import CommandLine.Proofs.Grammar
import CommandLine.Proofs.OperandOrder

/-!
Records written back as a command line. Each record is one element again, a terminator stands before the first
operand that would not be read as one, and the command line has the records that it was written from.
-/
namespace CommandLine

namespace Record

def spelling (r : Record) : Text :=
  if r.isOperand then r.argument
  else if r.argument = [] then r.form
  else if [.scalar '-', .scalar '-'].isPrefixOf r.form then r.form ++ .scalar '=' :: r.argument
  else r.form ++ r.argument

def needsTerminator (r : Record) : Bool :=
  r.isOperand && r.argument.head? = some (.scalar '-') && 2 ≤ r.argument.length

theorem needsTerminator_operand (text : Text) :
    (Record.operand text).needsTerminator = !decide (Token.Plain text) := by
  have isOperand : (Record.operand text).isOperand = true := rfl
  rw [needsTerminator, isOperand]
  rcases text with _ | ⟨a, _ | ⟨b, rest⟩⟩ <;> simp [Record.operand, Token.Plain]

end Record

def canonicalElements : List Record → List Text
  | [] => []
  | r :: rest =>
    if r.needsTerminator then ['-', '-'] :: (r :: rest).map Record.spelling
    else r.spelling :: canonicalElements rest

/-- Records of which those before the last operands can each be written as an element of its own. -/
inductive Writable (table : Table) : List Record → Prop where
  | operands (texts : List Text) : Writable table (texts.map Record.operand)
  | option {r : Record} {rest : List Record} (reports : r.Reports table) (more : Writable table rest) :
      Writable table (r :: rest)
  | operand {text : Text} {rest : List Record} (plain : Token.Plain text) (more : Writable table rest) :
      Writable table (.operand text :: rest)

theorem Scan.tail_eq (scan : Scan) : ∃ texts : List Text, scan.tail = texts.map Record.operand := by
  unfold Scan.tail
  split
  · next rest _ => exact ⟨rest, rfl⟩
  · exact ⟨[], rfl⟩

section Writable

variable {table : Table} {records others : List Record}

theorem writable_reports (reports : ∀ r ∈ records, r.Reports table) (more : Writable table others) :
    Writable table (records ++ others) := by
  induction records with
  | nil => exact more
  | cons r rest ih =>
      have later := ih fun other member => reports other (List.mem_cons_of_mem r member)
      exact .option (reports r List.mem_cons_self) later

theorem writable_step {step : Step} (lawful : step.Lawful table) (more : Writable table others) :
    Writable table (step.records ++ others) := by
  cases step with
  | operand text => exact .operand lawful more
  | option _ _ => exact writable_reports lawful more

theorem writable_notes {notes : List Note} (lawful : ∀ note ∈ notes, note.step.Lawful table)
    (texts : List Text) : Writable table (notes.flatMap (·.step.records) ++ texts.map Record.operand) := by
  induction notes with
  | nil => exact .operands texts
  | cons note notes ih =>
      rw [List.flatMap_cons, List.append_assoc]
      have later := ih fun other member => lawful other (List.mem_cons_of_mem note member)
      exact writable_step (lawful note List.mem_cons_self) later

theorem optionsOf_writable (writable : Writable table records) : ∀ r ∈ optionsOf records, r.Reports table := by
  induction writable with
  | operands texts => simp [optionsOf_operands]
  | option reports more ih =>
      rw [(partition_option reports.isOperand).1]
      exact List.forall_mem_cons.mpr ⟨reports, ih⟩
  | operand plain more ih =>
      rw [(partition_operand _).1]
      exact ih

theorem operandsOf_writable (writable : Writable table records) : Writable table (operandsOf records) := by
  induction writable with
  | operands texts =>
      rw [operandsOf_operands]
      exact .operands texts
  | option reports more ih =>
      rw [(partition_option reports.isOperand).2]
      exact ih
  | operand plain more ih =>
      rw [(partition_operand _).2]
      exact .operand plain ih

theorem writable_arranged (reorder : Bool) (writable : Writable table records) :
    Writable table (arranged reorder records) := by
  cases reorder with
  | false => exact writable
  | true => exact writable_reports (optionsOf_writable writable) (operandsOf_writable writable)

theorem writable_scan (index : Nat) (elements : List Text) :
    Writable table (table.scan false index elements).inOrder := by
  obtain ⟨texts, tail⟩ := (table.scan false index elements).tail_eq
  rw [Scan.inOrder, tail]
  exact writable_notes (table.scan_lawful elements) texts

end Writable

section Spelling

variable {table : Table}

/-- The descriptors that can be spelled: a name can be written before an equals sign, and a short form does not begin
like a long one. -/
structure Table.Spellable (table : Table) : Prop where
  noEquals : ∀ d ∈ table.entries, .scalar '=' ∉ d.longName
  noDash : ∀ d ∈ table.entries, d.short? ≠ some (.scalar '-')

theorem spelling_long {d : Descriptor} {argument : Text} (isOption : (Record.long d argument).isOperand = false)
    (named : d.Named d.longName) : (Record.long d argument).spelling =
      if argument = [] then .scalar '-' :: .scalar '-' :: d.longName
      else .scalar '-' :: .scalar '-' :: (d.longName ++ .scalar '=' :: argument) := by
  rw [Record.spelling, isOption]
  simp [Record.long, named.longForm]

theorem spelling_short {c : CodePoint} {d : Descriptor} {argument : Text}
    (isOption : (Record.short d c argument).isOperand = false) (single : c ≠ '-') :
    (Record.short d c argument).spelling = .scalar '-' :: c :: argument := by
  have form : List.isPrefixOf [.scalar '-', .scalar '-'] [.scalar '-', c] = false := by
    simpa [List.isPrefixOf] using Ne.symm single
  rw [Record.spelling, isOption]
  by_cases empty : argument = [] <;> simp [Record.short, form, empty]

theorem phrase_long {d : Descriptor} {argument : Text} (spellable : table.Spellable)
    (first : IsFirst (·.Named d.longName) table.entries d) (allowed : d.arity.Allows argument) :
    Phrase table (Record.long d argument).spelling none [.long d argument] := by
  have isOption := (Record.Reports.long first allowed).isOperand
  have noEquals := spellable.noEquals d first.mem
  rw [spelling_long isOption first.holds]
  by_cases empty : argument = []
  · subst empty
    rw [if_pos rfl]
    refine .longBare first.holds.1 noEquals (.full first) ?_
    intro arity
    rw [arity] at allowed
    exact allowed rfl
  · rw [if_neg empty]
    refine .longAttached noEquals (.full first) ?_
    cases arity : d.arity with
    | never =>
        rw [arity] at allowed
        exact absurd allowed empty
    | required => exact Or.inr ⟨rfl, empty⟩
    | optional => exact Or.inl rfl

theorem phrase_short {c : CodePoint} {d : Descriptor} {argument : Text} (spellable : table.Spellable)
    (selects : table.SelectsShort c d) (allowed : d.arity.Allows argument) :
    Phrase table (Record.short d c argument).spelling none [.short d c argument] := by
  have isOption := (Record.Reports.short selects allowed).isOperand
  have single : c ≠ '-' := by
    rintro rfl
    exact spellable.noDash d selects.mem selects.holds
  rw [spelling_short isOption single]
  refine .cluster single ?_
  by_cases empty : argument = []
  · subst empty
    cases arity : d.arity with
    | never => exact .flag selects arity .done
    | optional => exact .bare selects arity
    | required =>
        rw [arity] at allowed
        exact absurd rfl allowed
  · refine .attached selects ?_ empty
    intro arity
    rw [arity] at allowed
    exact empty allowed

theorem phrase_spelling {r : Record} (spellable : table.Spellable) (reports : r.Reports table) :
    Phrase table r.spelling none [r] := by
  cases reports with
  | long first allowed => exact phrase_long spellable first allowed
  | short selects allowed => exact phrase_short spellable selects allowed

theorem phrase_operand {text : Text} (plain : Token.Plain text) :
    Phrase table (Record.operand text).spelling none [.operand text] := .operand plain

end Spelling

def Restores (table : Table) (records : List Record) : Prop :=
  ∃ cut : Cut, cut.Grammatical table ∧ cut.elements = canonicalElements records ∧ cut.records = records

section Restores

variable {table : Table} {records : List Record}

theorem restores_cons {r : Record} (phrase : Phrase table r.spelling none [r])
    (free : r.needsTerminator = false) (others : Restores table records) : Restores table (r :: records) := by
  obtain ⟨⟨portions, tail⟩, grammatical, split, kept⟩ := others
  refine ⟨⟨⟨r.spelling, none, [r]⟩ :: portions, tail⟩,
    Cut.grammatical_cons.mpr ⟨phrase, grammatical⟩, ?_, ?_⟩
  · rw [Cut.elements_cons, split]
    simp [canonicalElements, free, Portion.elements]
  · rw [Cut.records_cons, kept]
    rfl

theorem restores_operands (table : Table) (texts : List Text) :
    Restores table (texts.map Record.operand) := by
  induction texts with
  | nil => exact ⟨⟨[], none⟩, by simp [Cut.Grammatical], rfl, rfl⟩
  | cons text texts ih =>
      have needs := Record.needsTerminator_operand text
      by_cases plain : Token.Plain text
      · exact restores_cons (phrase_operand plain) (by simp [needs, plain]) ih
      · -- Everything from here on stands after the terminator.
        refine ⟨⟨[], some (text :: texts)⟩, by simp [Cut.Grammatical], ?_, rfl⟩
        have written : ∀ text, (Record.operand text).spelling = text := fun _ => rfl
        simp [canonicalElements, needs, plain, Cut.elements, Cut.ending, written, Function.comp_def]

theorem restores_writable (spellable : table.Spellable) (writable : Writable table records) :
    Restores table records := by
  induction writable with
  | operands texts => exact restores_operands table texts
  | option reports more ih =>
      exact restores_cons (phrase_spelling spellable reports)
        (by simp [Record.needsTerminator, reports.isOperand]) ih
  | operand plain more ih =>
      exact restores_cons (phrase_operand plain) (by simp [Record.needsTerminator_operand, plain]) ih

end Restores

/-- The records of a command line that is read, written back as a command line, are read again. -/
theorem start_canonical (table : Table) (argv : List Text) (argc : Option Int) (reorder : Bool)
    (records : List Record) (program : Text) (noEquals : ∀ d ∈ table.entries, .scalar '=' ∉ d.longName)
    (noDash : ∀ d ∈ table.entries, d.short? ≠ some (.scalar '-'))
    (read : Session.start table argv reorder argc = ⟨.succeeded, records, none⟩) :
    Session.start table (program :: canonicalElements records) reorder none = ⟨.succeeded, records, none⟩ := by
  obtain ⟨_, sorted⟩ := start_eq_arranged_iff.mp read
  have writable : Writable table records := sorted ▸ writable_arranged reorder (writable_scan 1 _)
  obtain ⟨cut, grammatical, split, restored⟩ := restores_writable ⟨noEquals, noDash⟩ writable
  obtain ⟨succeeds, kept⟩ := table.scan_of_cut grammatical
  rw [split] at succeeds kept
  rw [start_eq_arranged_iff, Table.scanArguments, admitted_none]
  refine ⟨succeeds, ?_⟩
  calc
    _ = arranged reorder records := by rw [kept, restored]
    _ = arranged reorder (arranged reorder (table.scanArguments argv argc).inOrder) := by rw [sorted]
    _ = arranged reorder (table.scanArguments argv argc).inOrder := arranged_arranged reorder _
    _ = records := sorted

def sampleLine : List Text :=
  programName :: ["host", "-vo", "-x", "--out", "a=b", "--col=", "--", "-z", "end"].map String.toText

def sampleRecords : List Record := (Session.start sampleTable sampleLine true none).records

theorem start_canonical_sample :
    (∀ d ∈ sampleTable.entries, .scalar '=' ∉ d.longName) ∧ (∀ d ∈ sampleTable.entries, d.short? ≠ some (.scalar '-')) ∧
      Session.start sampleTable sampleLine true none = ⟨.succeeded, sampleRecords, none⟩ ∧
      canonicalElements sampleRecords =
        ["-v", "-o-x", "--output=a=b", "--color", "host", "--", "-z", "end"].map String.toText ∧
      Session.start sampleTable (programName :: canonicalElements sampleRecords) true none =
        ⟨.succeeded, sampleRecords, none⟩ := by
  have noEquals : ∀ d ∈ sampleTable.entries, .scalar '=' ∉ d.longName := by decide
  have noDash : ∀ d ∈ sampleTable.entries, d.short? ≠ some (.scalar '-') := by decide
  have read : Session.start sampleTable sampleLine true none = ⟨.succeeded, sampleRecords, none⟩ := by decide
  exact ⟨noEquals, noDash, read, by decide,
    start_canonical sampleTable sampleLine none true sampleRecords programName noEquals noDash read⟩

end CommandLine
