import CommandLine.Proofs.OperandOrder
import CommandLine.Proofs.Scanning

namespace CommandLine

def Diagnostic.later (places : Nat) (d : Diagnostic) : Diagnostic := { d with index := d.index + places }

namespace Scan

def MeetsTerminator (scan : Scan) : Prop := ∃ index tail, scan.ending = .terminated index tail

variable {scan rest : Scan} {back : List Text}

theorem inOrder_later (places : Nat) : (scan.later places).inOrder = scan.inOrder := by
  obtain ⟨notes, ending⟩ := scan
  have same : (notes.map (Note.later places)).flatMap (·.step.records) = notes.flatMap (·.step.records) := by
    rw [List.flatMap_map]
    rfl
  cases ending <;> simp [later, inOrder, tail, Ending.later, same]

theorem diagnostic?_later (places : Nat) :
    (scan.later places).diagnostic? = scan.diagnostic?.map (Diagnostic.later places) := by
  obtain ⟨notes, ending⟩ := scan
  cases ending <;> simp [later, diagnostic?, Ending.later, Diagnostic.later, Diagnostic.ofProblem]

theorem exhausted_of_succeeds (succeeds : scan.diagnostic? = none) (unended : ¬ scan.MeetsTerminator) :
    scan.ending = .exhausted := by
  cases given : scan.ending with
  | exhausted => rfl
  | terminated index tail => exact absurd ⟨index, tail, given⟩ unended
  | failed index token problem => simp [diagnostic?, given] at succeeds

theorem succeeds_of_exhausted (exhausted : scan.ending = .exhausted) : scan.diagnostic? = none := by
  simp [diagnostic?, exhausted]

theorem not_meets_of_exhausted (exhausted : scan.ending = .exhausted) : ¬ scan.MeetsTerminator := by
  rintro ⟨index, tail, given⟩
  rw [exhausted] at given
  cases given

theorem resume_exhausted (exhausted : scan.ending = .exhausted) :
    (scan.resume back rest).inOrder = scan.inOrder ++ rest.inOrder ∧
      (scan.resume back rest).diagnostic? = rest.diagnostic? := by
  simp [resume, inOrder, tail, diagnostic?, exhausted]

theorem resume_terminated (terminated : scan.MeetsTerminator) :
    (scan.resume back rest).inOrder = scan.inOrder ++ back.map Record.operand ∧
      (scan.resume back rest).diagnostic? = none := by
  obtain ⟨index, tail, given⟩ := terminated
  simp [resume, inOrder, Scan.tail, diagnostic?, given]

end Scan

section Arranged

variable {records others : List Record}

def joined (reorder : Bool) (front back : List Record) : List Record :=
  if reorder then optionsOf front ++ optionsOf back ++ operandsOf front ++ operandsOf back else front ++ back

theorem arranged_append (reorder : Bool) :
    arranged reorder (records ++ others) = joined reorder (arranged reorder records) (arranged reorder others) := by
  cases reorder with
  | false => rfl
  | true =>
      rw [joined, if_pos rfl, optionsOf_arranged, optionsOf_arranged, operandsOf_arranged, operandsOf_arranged,
        arranged, if_pos rfl, optionsOf_append, operandsOf_append, List.append_assoc _ _ (operandsOf others),
        List.append_assoc]

theorem arranged_operands (reorder : Bool) (texts : List Text) :
    arranged reorder (records ++ texts.map Record.operand) =
      arranged reorder records ++ texts.map Record.operand := by
  cases reorder with
  | false => rfl
  | true =>
      simp only [arranged, if_true, optionsOf_append, operandsOf_append, optionsOf_operands,
        operandsOf_operands, List.append_nil, List.append_assoc]

end Arranged

namespace Table

variable {table : Table} {program : Text} {front elements : List Text} {reorder : Bool}

def session (table : Table) (reorder : Bool) (program : Text) (elements : List Text) : Session :=
  Session.start table (program :: elements) reorder none

theorem scanArguments_all : table.scanArguments (program :: elements) none = table.scan false 1 elements := rfl

theorem session_state_iff :
    (table.session reorder program elements).state = .succeeded ↔
      (table.scan false 1 elements).diagnostic? = none := Session.start_state_iff

theorem session_diagnostic :
    (table.session reorder program elements).diagnostic = (table.scan false 1 elements).diagnostic? :=
  Session.start_diagnostic

theorem session_succeeded (succeeds : (table.scan false 1 elements).diagnostic? = none) :
    table.session reorder program elements =
      ⟨.succeeded, arranged reorder (table.scan false 1 elements).inOrder, none⟩ :=
  start_eq_arranged_iff.mpr ⟨succeeds, rfl⟩

/-- Behind a front part that is read to its end, the pass goes on as it would begin there. -/
theorem scan_behind (readable : (table.scan false 1 front).ending = .exhausted) (back : List Text) :
    (table.scan false 1 (front ++ back)).inOrder =
        (table.scan false 1 front).inOrder ++ (table.scan false (1 + front.length) back).inOrder ∧
      (table.scan false 1 (front ++ back)).diagnostic? =
        (table.scan false (1 + front.length) back).diagnostic? := by
  rw [scan_append back (Scan.succeeds_of_exhausted readable) (by simp)]
  exact Scan.resume_exhausted readable

theorem scan_open (succeeds : (table.scan false 1 front).diagnostic? = none)
    (unended : ¬ (table.scan false 1 front).MeetsTerminator) (back : List Text) :
    (table.scan false 1 (front ++ back)).inOrder =
        (table.scan false 1 front).inOrder ++ (table.scan false 1 back).inOrder ∧
      (table.scan false 1 (front ++ back)).diagnostic? =
        (table.scan false 1 back).diagnostic?.map (Diagnostic.later front.length) := by
  obtain ⟨kept, diagnostic⟩ := scan_behind (Scan.exhausted_of_succeeds succeeds unended) back
  rw [kept, diagnostic, scan_later, Scan.inOrder_later, Scan.diagnostic?_later]
  exact ⟨rfl, rfl⟩

theorem scan_ended (ended : (table.scan false 1 front).MeetsTerminator) (back : List Text) :
    (table.scan false 1 (front ++ back)).inOrder =
        (table.scan false 1 front).inOrder ++ back.map Record.operand ∧
      (table.scan false 1 (front ++ back)).diagnostic? = none := by
  have succeeds : (table.scan false 1 front).diagnostic? = none := by
    obtain ⟨index, tail, given⟩ := ended
    simp [Scan.diagnostic?, given]
  rw [scan_append back succeeds (by simp)]
  exact Scan.resume_terminated ended

end Table

/-- Reading a longer command line. If the front part is read without a terminator, the longer command line is read if
and only if the back part is, with the records of both; otherwise it has the diagnostic of the back part, at a place
that is later by the length of the front part. After a terminator the back part adds its elements as operands. -/
theorem session_append (table : Table) (program : Text) (front back : List Text) (mode reorder : Bool)
    (succeeds : (table.session mode program front).state = .succeeded) :
    (¬ (table.scanArguments (program :: front) none).MeetsTerminator →
      ((table.session reorder program (front ++ back)).state = .succeeded ↔
        (table.session reorder program back).state = .succeeded) ∧
      ((table.session reorder program back).state = .succeeded →
        (table.session reorder program (front ++ back)).records =
          joined reorder (table.session reorder program front).records
            (table.session reorder program back).records) ∧
      ∀ d, (table.session reorder program back).diagnostic = some d →
        (table.session reorder program (front ++ back)).diagnostic =
          some { d with index := d.index + front.length }) ∧
    ((table.scanArguments (program :: front) none).MeetsTerminator →
      table.session reorder program (front ++ back) =
        ⟨.succeeded, (table.session reorder program front).records ++ back.map Record.operand, none⟩) := by
  have read := Table.session_state_iff.mp succeeds
  rw [Table.scanArguments_all]
  constructor
  · intro unended
    obtain ⟨kept, diagnostic⟩ := Table.scan_open read unended back
    have iff : (table.scan false 1 (front ++ back)).diagnostic? = none ↔
        (table.scan false 1 back).diagnostic? = none := by
      rw [diagnostic, Option.map_eq_none_iff]
    refine ⟨by rw [Table.session_state_iff, Table.session_state_iff, iff], ?_, ?_⟩
    · intro backRead
      have backRead := Table.session_state_iff.mp backRead
      rw [Table.session_succeeded read, Table.session_succeeded backRead,
        Table.session_succeeded (iff.mpr backRead), kept]
      exact arranged_append reorder
    · intro d given
      rw [Table.session_diagnostic] at given ⊢
      rw [diagnostic, given]
      rfl
  · intro ended
    obtain ⟨kept, diagnostic⟩ := Table.scan_ended ended back
    rw [Table.session_succeeded diagnostic, Table.session_succeeded read, kept, arranged_operands]

theorem session_append_sample :
    (sampleTable.session true programName [['h'], ['-', 'v']]).state = .succeeded ∧
      ¬ (sampleTable.scanArguments [programName, ['h'], ['-', 'v']] none).MeetsTerminator ∧
      (sampleTable.session true programName [['h'], ['-', 'v'], ['-', 'o']]).diagnostic =
        some (.ofProblem (.shortNeedsArgument 'o') ['-', 'o'] 3) ∧
      (sampleTable.session true programName [['-', 'v'], ['-', '-']]).state = .succeeded ∧
      (sampleTable.scanArguments [programName, ['-', 'v'], ['-', '-']] none).MeetsTerminator ∧
      (sampleTable.session true programName [['-', 'v'], ['-', '-'], ['-', 'o']]).records =
        [.short ⟨.char 'v', some "verbose".toText, .never⟩ 'v' [], .operand ['-', 'o']] := by
  have first : (sampleTable.session true programName [['h'], ['-', 'v']]).state = .succeeded := by decide
  have unended : ¬ (sampleTable.scanArguments [programName, ['h'], ['-', 'v']] none).MeetsTerminator := by
    rintro ⟨_, _, given⟩
    have exhausted : (sampleTable.scanArguments [programName, ['h'], ['-', 'v']] none).ending = .exhausted := by
      decide
    rw [exhausted] at given
    cases given
  have alone : (sampleTable.session true programName [['-', 'o']]).diagnostic =
      some (.ofProblem (.shortNeedsArgument 'o') ['-', 'o'] 1) := by decide
  have second : (sampleTable.session true programName [['-', 'v'], ['-', '-']]).state = .succeeded := by decide
  have ended : (sampleTable.scanArguments [programName, ['-', 'v'], ['-', '-']] none).MeetsTerminator :=
    ⟨2, [], by decide⟩
  have failing := session_append sampleTable programName [['h'], ['-', 'v']] [['-', 'o']] true true first
  have reading := session_append sampleTable programName [['-', 'v'], ['-', '-']] [['-', 'o']] true true second
  refine ⟨first, unended, (failing.1 unended).2.2 _ alone, second, ended, ?_⟩
  exact (congrArg Session.records (reading.2 ended)).trans (by decide)

end CommandLine
