import CommandLine.Proofs.Failure
import CommandLine.Proofs.Grammar

/-!
The same options, written in another way. A required value can be attached to its option or stand behind it, and flags
can be gathered in one cluster or stand alone. Neither changes the records, wherever on a command line it is done.
-/
namespace CommandLine

/-- Two passes with the same records. If the first fails, so does the second, with a changed diagnostic. -/
structure Scan.Matches (change : Diagnostic → Diagnostic) (one two : Scan) : Prop where
  diagnostic : two.diagnostic? = one.diagnostic?.map change
  records : one.diagnostic? = none → two.inOrder = one.inOrder

structure Session.Matches (change : Diagnostic → Diagnostic) (one two : Session) : Prop where
  state : two.state = one.state
  records : two.records = one.records
  diagnostic : two.diagnostic = one.diagnostic.map change

section Matches

variable {table : Table} {change other : Diagnostic → Diagnostic} {one two : Scan} {front : List Text}

theorem matches_next {taken : Bool} (index : Nat) (elements : List Text) :
    (table.scan taken index elements).Matches (Diagnostic.later 1) (table.scan taken (index + 1) elements) := by
  rw [Table.scan_later]
  exact ⟨Scan.diagnostic?_later 1, fun _ => Scan.inOrder_later 1⟩

theorem matches_cons {note added : Note} (same : added.step.records = note.step.records)
    (alike : one.Matches change two) : (one.cons note).Matches change (two.cons added) := by
  refine ⟨alike.diagnostic, fun succeeds => ?_⟩
  rw [Scan.inOrder_cons, Scan.inOrder_cons, same, alike.records succeeds]

theorem matches_congr (alike : one.Matches change two)
    (agree : ∀ d, one.diagnostic? = some d → change d = other d) : one.Matches other two := by
  refine ⟨?_, alike.records⟩
  rw [alike.diagnostic]
  exact Option.map_congr agree

/-- Command lines that match still do so behind a front part that is read to its end. -/
theorem matches_behind {first second : List Text} (readable : (table.scan false 1 front).ending = .exhausted)
    (alike : (table.scan false (1 + front.length) first).Matches change
      (table.scan false (1 + front.length) second)) :
    (table.scan false 1 (front ++ first)).Matches change (table.scan false 1 (front ++ second)) := by
  obtain ⟨firstRecords, firstDiagnostic⟩ := Table.scan_behind readable first
  obtain ⟨secondRecords, secondDiagnostic⟩ := Table.scan_behind readable second
  constructor
  · rw [firstDiagnostic, secondDiagnostic, alike.diagnostic]
  · intro read
    rw [firstDiagnostic] at read
    rw [firstRecords, secondRecords, alike.records read]

theorem session_matches {program : Text} {reorder : Bool} {first second : List Text}
    (alike : (table.scan false 1 first).Matches change (table.scan false 1 second)) :
    (table.session reorder program first).Matches change (table.session reorder program second) := by
  obtain ⟨diagnostic, records⟩ := alike
  cases blamed : (table.scan false 1 first).diagnostic? with
  | none =>
      rw [blamed] at diagnostic
      rw [Table.session_succeeded blamed, Table.session_succeeded diagnostic, records blamed]
      exact ⟨rfl, rfl, rfl⟩
  | some d =>
      rw [blamed] at diagnostic
      have failed : table.session reorder program first = _ := Session.start_eq_failed_iff.mpr blamed
      have failedAlike : table.session reorder program second = _ := Session.start_eq_failed_iff.mpr diagnostic
      rw [failed, failedAlike]
      exact ⟨rfl, rfl, rfl⟩

theorem readable_of_open {mode : Bool} {program : Text}
    (succeeds : (table.session mode program front).state = .succeeded)
    (unended : ¬ (table.scanArguments (program :: front) none).MeetsTerminator) :
    (table.scan false 1 front).ending = .exhausted :=
  Scan.exhausted_of_succeeds (Table.session_state_iff.mp succeeds) unended

end Matches

section Attached

variable {table : Table} {token value : Text} {records : List Record}

def attached (token value : Text) : Text :=
  match classify token with
  | .long _ => token ++ .scalar '=' :: value
  | _ => token ++ value

theorem cluster_attached {chars : Text} (reads : Cluster table chars (some value) records) :
    Cluster table (chars ++ value) none records := by
  generalize given : some value = taken at reads
  induction reads with
  | done => cases given
  | flag selects arity more ih => exact .flag selects arity (ih given)
  | bare selects arity => cases given
  | attached selects arity nonempty => cases given
  | separate selects arity nonempty =>
      cases given
      exact .attached selects (by simp [arity]) nonempty

theorem phrase_attached (phrase : Phrase table token (some value) records) :
    Phrase table (attached token value) none records := by
  cases phrase with
  | longSeparate nonempty noEquals selects arity given =>
      rw [attached, Token.classify_of_shape (.longBare _ nonempty noEquals)]
      exact .longAttached noEquals selects (Or.inr ⟨arity, given⟩)
  | cluster single reads =>
      rw [attached, Token.classify_of_shape (.cluster _ _ single)]
      exact .cluster single (cluster_attached reads)

theorem matches_phrase {joined : Text} (one : Phrase table joined none records)
    (two : Phrase table token (some value) records) (index : Nat) (back : List Text) :
    (table.scan false index (joined :: back)).Matches (Diagnostic.later 1)
      (table.scan false index (token :: value :: back)) := by
  obtain ⟨first, same, read⟩ : ∃ step, Step.records step = records ∧
      table.scan false index (joined :: back) = (table.scan false (index + 1) back).cons ⟨index, step⟩ :=
    Table.scan_phrase one back
  obtain ⟨second, sameAgain, readAgain⟩ : ∃ step, Step.records step = records ∧
      table.scan false index (token :: value :: back) =
        (table.scan false (index + 1 + 1) back).cons ⟨index, step⟩ := Table.scan_phrase two back
  rw [read, readAgain]
  exact matches_cons (sameAgain.trans same.symm) (matches_next (index + 1) back)

end Attached

/-- A value that stands behind its option can as well be attached to it. The command line gets shorter by one element,
so that an error behind it is one place earlier, and nothing else changes. -/
theorem session_attached (table : Table) (program : Text) (front back : List Text) (token value : Text)
    (mode reorder : Bool) (resolution : Resolution)
    (succeeds : (table.session mode program front).state = .succeeded)
    (unended : ¬ (table.scanArguments (program :: front) none).MeetsTerminator)
    (isOption : (classify token).isOption = true)
    (resolved : table.resolve (classify token) (some value) = .ok resolution) (both : resolution.consumed = 2) :
    (table.session reorder program (front ++ attached token value :: back)).state =
        (table.session reorder program (front ++ token :: value :: back)).state ∧
      (table.session reorder program (front ++ attached token value :: back)).records =
        (table.session reorder program (front ++ token :: value :: back)).records ∧
      (table.session reorder program (front ++ attached token value :: back)).diagnostic =
        (table.session reorder program (front ++ token :: value :: back)).diagnostic.map
          fun d => { d with index := d.index - 1 } := by
  have readable := readable_of_open succeeds unended
  have takes : resolution.usesNext = true := by
    cases used : resolution.usesNext with
    | true => rfl
    | false => simp [Resolution.consumed, used] at both
  have apart := Table.phrase_of_resolve (Token.shape_classify token) isOption resolved
  rw [if_pos takes] at apart
  have alike : (table.session reorder program (front ++ attached token value :: back)).Matches
      (Diagnostic.later 1) (table.session reorder program (front ++ token :: value :: back)) :=
    session_matches (matches_behind readable (matches_phrase (phrase_attached apart) apart _ back))
  refine ⟨alike.state.symm, alike.records.symm, ?_⟩
  rw [alike.diagnostic, Option.map_map]
  simp [Function.comp_def, Diagnostic.later]

def sampleResolution : Resolution :=
  ⟨[.short ⟨.char 'v', some "verbose".toText, .never⟩ 'v' [],
    .short ⟨.char 'o', some "output".toText, .required⟩ 'o' "--".toText], true⟩

theorem session_attached_sample :
    (sampleTable.session true programName [['h']]).state = .succeeded ∧
      ¬ (sampleTable.scanArguments [programName, ['h']] none).MeetsTerminator ∧
      (classify "-vo".toText).isOption = true ∧
      sampleTable.resolve (classify "-vo".toText) (some "--".toText) = .ok sampleResolution ∧
      sampleResolution.consumed = 2 ∧
      (sampleTable.session true programName (["h", "-vo", "--", "--bad"].map String.toText)).diagnostic =
        some (.ofProblem (.unrecognized "--bad".toText) "--bad".toText 4) ∧
      (sampleTable.session true programName (["h", "-vo--", "--bad"].map String.toText)).diagnostic =
        some (.ofProblem (.unrecognized "--bad".toText) "--bad".toText 3) := by
  have succeeds : (sampleTable.session true programName [['h']]).state = .succeeded := by decide
  have unended : ¬ (sampleTable.scanArguments [programName, ['h']] none).MeetsTerminator :=
    Scan.not_meets_of_exhausted (by decide)
  have isOption : (classify "-vo".toText).isOption = true := by decide
  have resolved : sampleTable.resolve (classify "-vo".toText) (some "--".toText) = .ok sampleResolution := by
    decide
  have apart : (sampleTable.session true programName (["h", "-vo", "--", "--bad"].map String.toText)).diagnostic =
      some (.ofProblem (.unrecognized "--bad".toText) "--bad".toText 4) := by decide
  have joined := (session_attached sampleTable programName [['h']] ["--bad".toText] "-vo".toText "--".toText true
    true sampleResolution succeeds unended isOption resolved rfl).2.2
  exact ⟨succeeds, unended, isOption, resolved, rfl, apart, joined.trans (congrArg _ apart)⟩

section Gathered

variable {table : Table} {x c : CodePoint} {d : Descriptor}

/-- How the diagnostic changes when the flag before a cluster at place `index` gets an element of its own. -/
def Diagnostic.behindFlag (index : Nat) (rest : Text) (d : Diagnostic) : Diagnostic :=
  { d with index := d.index + 1, token := if d.index = index then '-' :: rest else d.token }

theorem matches_behindFlag (table : Table) (taken : Bool) (index : Nat) (rest : Text) (back : List Text) :
    (table.scan taken (index + 1) back).Matches (Diagnostic.behindFlag index rest)
      (table.scan taken (index + 1 + 1) back) := by
  apply matches_congr (matches_next (index + 1) back)
  intro d blamed
  have bound := Table.le_index blamed
  have later : d.index ≠ index := by omega
  simp [Diagnostic.later, Diagnostic.behindFlag, later]

theorem matches_gathered (flagSingle : x ≠ '-') (first : table.findShort x = some d) (flag : d.arity = .never)
    (single : c ≠ '-') (rest : Text) (index : Nat) (back : List Text) :
    (table.scan false index (('-' :: x :: c :: rest) :: back)).Matches (Diagnostic.behindFlag index (c :: rest))
      (table.scan false index (['-', x] :: ('-' :: c :: rest) :: back)) := by
  have alone : Phrase table ['-', x] none [.short d x []] :=
    .cluster flagSingle (.flag (Table.findShort_eq_some_iff.mp first) flag .done)
  obtain ⟨step, record, split⟩ : ∃ step, Step.records step = [.short d x []] ∧
      table.scan false index (['-', x] :: ('-' :: c :: rest) :: back) =
        (table.scan false (index + 1) (('-' :: c :: rest) :: back)).cons ⟨index, step⟩ :=
    Table.scan_phrase alone _
  -- Only the rest of the cluster looks at the element behind both spellings, and in both it is the same one.
  rw [split, Table.scan_met, Table.scan_met, Table.meet_cluster flagSingle, Table.meet_cluster single,
    Table.resolveCluster_flag first flag]
  cases table.resolveCluster back.head? (c :: rest) with
  | error problem =>
      constructor
      · simp [Except.map, Scan.cons, Scan.diagnostic?, Diagnostic.ofProblem, Diagnostic.behindFlag]
      · intro read
        cases read
  | ok resolution =>
      have behind := matches_behindFlag table resolution.usesNext index (c :: rest) back
      refine ⟨behind.diagnostic, fun read => ?_⟩
      simp only [Except.map, Scan.inOrder_cons, behind.records read, record]
      rfl

end Gathered

/-- A flag at the front of a cluster can as well be an element of its own, before the rest of the cluster. The command
line gets longer by one element, so that an error from there on is one place later, and an error in the cluster is
found in what is left of it. -/
theorem session_flag_apart (table : Table) (program : Text) (front back : List Text) (x : CodePoint) (d : Descriptor)
    (rest : Text) (mode reorder : Bool)
    (succeeds : (table.session mode program front).state = .succeeded)
    (unended : ¬ (table.scanArguments (program :: front) none).MeetsTerminator)
    (flagSingle : x ≠ '-') (first : table.findShort x = some d) (flag : d.arity = .never)
    (nonempty : rest ≠ []) (single : rest.head? ≠ some (.scalar '-')) :
    (table.session reorder program (front ++ [.scalar '-', x] :: (.scalar '-' :: rest) :: back)).state =
        (table.session reorder program (front ++ (.scalar '-' :: x :: rest) :: back)).state ∧
      (table.session reorder program (front ++ [.scalar '-', x] :: (.scalar '-' :: rest) :: back)).records =
        (table.session reorder program (front ++ (.scalar '-' :: x :: rest) :: back)).records ∧
      (table.session reorder program (front ++ [.scalar '-', x] :: (.scalar '-' :: rest) :: back)).diagnostic =
        (table.session reorder program (front ++ (.scalar '-' :: x :: rest) :: back)).diagnostic.map fun d =>
          { d with
            index := d.index + 1
            token := if d.index = (1 + front.length : Nat) then '-' :: rest else d.token } := by
  obtain ⟨c, others, rfl⟩ := List.exists_cons_of_ne_nil nonempty
  have readable := readable_of_open succeeds unended
  have pair := matches_gathered flagSingle first flag (by simpa using single) others (1 + front.length) back
  have alike : (table.session reorder program (front ++ (.scalar '-' :: x :: c :: others) :: back)).Matches
      (Diagnostic.behindFlag (1 + front.length) (c :: others))
      (table.session reorder program (front ++ [.scalar '-', x] :: (.scalar '-' :: c :: others) :: back)) :=
    session_matches (matches_behind readable pair)
  exact ⟨alike.state, alike.records, alike.diagnostic⟩

theorem session_flag_apart_sample :
    (sampleTable.session true programName [['h']]).state = .succeeded ∧
      ¬ (sampleTable.scanArguments [programName, ['h']] none).MeetsTerminator ∧
      sampleTable.findShort 'v' = some ⟨.char 'v', some "verbose".toText, .never⟩ ∧
      (sampleTable.session true programName (["h", "-vvz", "-o"].map String.toText)).diagnostic =
        some (.ofProblem (.invalidShort 'z') "-vvz".toText 2) ∧
      (sampleTable.session true programName (["h", "-v", "-vz", "-o"].map String.toText)).diagnostic =
        some (.ofProblem (.invalidShort 'z') "-vz".toText 3) := by
  have succeeds : (sampleTable.session true programName [['h']]).state = .succeeded := by decide
  have unended : ¬ (sampleTable.scanArguments [programName, ['h']] none).MeetsTerminator :=
    Scan.not_meets_of_exhausted (by decide)
  have first : sampleTable.findShort 'v' = some ⟨.char 'v', some "verbose".toText, .never⟩ := by decide
  have gathered : (sampleTable.session true programName (["h", "-vvz", "-o"].map String.toText)).diagnostic =
      some (.ofProblem (.invalidShort 'z') "-vvz".toText 2) := by decide
  have apart := (session_flag_apart sampleTable programName [['h']] ["-o".toText] 'v' _ "vz".toText true true
    succeeds unended (by decide) first rfl (by decide) (by decide)).2.2
  exact ⟨succeeds, unended, first, gathered, apart.trans ((congrArg _ gathered).trans (by decide))⟩

end CommandLine
