import CommandLine.Proofs.RecordInvariant
import CommandLine.Proofs.Stores

namespace CommandLine

def optionsOf (records : List Record) : List Record := records.filter fun r => !r.isOperand

def operandsOf (records : List Record) : List Record := records.filter Record.isOperand

section Partition

variable {table : Table} {records others : List Record}

theorem optionsOf_append : optionsOf (records ++ others) = optionsOf records ++ optionsOf others :=
  List.filter_append ..

theorem operandsOf_append : operandsOf (records ++ others) = operandsOf records ++ operandsOf others :=
  List.filter_append ..

theorem partition_option {r : Record} (isOption : r.isOperand = false) :
    optionsOf (r :: records) = r :: optionsOf records ∧ operandsOf (r :: records) = operandsOf records := by
  simp [optionsOf, operandsOf, isOption]

theorem partition_operand (text : Text) :
    optionsOf (.operand text :: records) = optionsOf records ∧
      operandsOf (.operand text :: records) = .operand text :: operandsOf records := by
  have isOperand : (Record.operand text).isOperand = true := rfl
  simp [optionsOf, operandsOf, isOperand]

theorem optionsOf_operands (texts : List Text) : optionsOf (texts.map Record.operand) = [] := by
  simp [optionsOf, Record.operand, Record.isOperand, Descriptor.isSentinel, Descriptor.operand]

theorem operandsOf_operands (texts : List Text) :
    operandsOf (texts.map Record.operand) = texts.map Record.operand := by
  simp [operandsOf, Record.operand, Record.isOperand, Descriptor.isSentinel, Descriptor.operand]

theorem optionsOf_reports (reports : ∀ r ∈ records, r.Reports table) : optionsOf records = records := by
  apply List.filter_eq_self.mpr
  intro r member
  simp [(reports r member).isOperand]

theorem operandsOf_reports (reports : ∀ r ∈ records, r.Reports table) : operandsOf records = [] := by
  apply List.filter_eq_nil_iff.mpr
  intro r member
  simp [(reports r member).isOperand]

end Partition

/-- The stores of the two loops at one place: the same records, divided in one of them. -/
structure Stores.Divides (plain sorted : Stores) : Prop where
  options : sorted.records = optionsOf plain.records
  operands : sorted.deferred.map Record.operand = operandsOf plain.records
  direct : plain.deferred = []

structure Session.Divides (plain sorted : Session) : Prop where
  state : sorted.state = plain.state
  diagnostic : sorted.diagnostic = plain.diagnostic
  records : sorted.records = optionsOf plain.records ++ operandsOf plain.records

section Loops

variable {table : Table} {plain sorted : Stores} {elements : List Text}

theorem divides_keep {step : Step} (divides : plain.Divides sorted) (lawful : step.Lawful table) :
    (plain.keep false step).Divides (sorted.keep true step) := by
  obtain ⟨options, operands, direct⟩ := divides
  cases step with
  | operand text =>
      have one : optionsOf [.operand text] = [] ∧ operandsOf [.operand text] = [.operand text] :=
        partition_operand text
      constructor
      · simp [Stores.keep, options, optionsOf_append, one.1]
      · simp [Stores.keep, operands, operandsOf_append, one.2]
      · simpa [Stores.keep] using direct
  | option token records =>
      constructor
      · simp [Stores.keep, options, optionsOf_append, optionsOf_reports lawful]
      · simp [Stores.keep, operands, operandsOf_append, operandsOf_reports lawful]
      · exact direct

theorem divides_close (divides : plain.Divides sorted) (texts : List Text) :
    (plain.close (texts.map Record.operand)).Divides (sorted.close (texts.map Record.operand)) := by
  obtain ⟨options, operands, direct⟩ := divides
  refine ⟨rfl, rfl, ?_⟩
  simp only [Stores.close, options, operands, direct, optionsOf_append, operandsOf_append, optionsOf_operands,
    operandsOf_operands, List.map_nil, List.append_nil, List.append_assoc]

theorem divides_run (index : Nat) (divides : plain.Divides sorted) :
    (table.run false elements index plain).Divides (table.run true elements index sorted) := by
  -- Both loops stay at one place, since what is met there does not depend on the stores.
  induction index, plain using Table.run.induct table false elements generalizing sorted with
  | case1 index plain inside met =>
      rw [Table.run, Table.run, dif_pos inside, dif_pos inside, met]
      exact divides_close divides _
  | case2 index plain inside problem met =>
      rw [Table.run, Table.run, dif_pos inside, dif_pos inside, met]
      exact ⟨rfl, rfl, rfl⟩
  | case3 index plain inside step used met ih =>
      rw [Table.run, Table.run, dif_pos inside, dif_pos inside, met]
      exact ih (divides_keep divides (table.meet_lawful met))
  | case4 index plain outside =>
      rw [Table.run, Table.run, dif_neg outside, dif_neg outside]
      exact divides_close divides _

theorem divides_start (table : Table) (argv : List Text) (argc : Option Int) :
    (Session.start table argv false argc).Divides (Session.start table argv true argc) := by
  rw [table.start_eq_run, table.start_eq_run]
  exact divides_run 1 ⟨rfl, rfl, rfl⟩

end Loops

def arranged (reorder : Bool) (records : List Record) : List Record :=
  if reorder then optionsOf records ++ operandsOf records else records

theorem optionsOf_arranged (reorder : Bool) (records : List Record) :
    optionsOf (arranged reorder records) = optionsOf records := by
  cases reorder <;> simp [arranged, optionsOf, operandsOf, List.filter_append, List.filter_filter]

theorem operandsOf_arranged (reorder : Bool) (records : List Record) :
    operandsOf (arranged reorder records) = operandsOf records := by
  cases reorder <;> simp [arranged, optionsOf, operandsOf, List.filter_append, List.filter_filter]

theorem arranged_arranged (reorder : Bool) (records : List Record) :
    arranged reorder (arranged reorder records) = arranged reorder records := by
  cases reorder with
  | false => rfl
  | true =>
      have options := optionsOf_arranged true records
      have operands := operandsOf_arranged true records
      simp only [arranged, if_true] at options operands ⊢
      rw [options, operands]

section Start

variable {table : Table} {argv : List Text} {argc : Option Int} {reorder : Bool}

theorem sorted_scanArguments (succeeds : (table.scanArguments argv argc).diagnostic? = none) :
    (table.scanArguments argv argc).sorted reorder =
      arranged reorder (table.scanArguments argv argc).inOrder := by
  cases reorder with
  | false => rfl
  | true =>
      have read (reorder : Bool) := Session.start_eq_succeeded_iff.mpr
        ⟨succeeds, Eq.refl ((table.scanArguments argv argc).sorted reorder)⟩
      have divided := (divides_start table argv argc).records
      rw [read, read] at divided
      exact divided

theorem start_eq_arranged_iff {records : List Record} :
    Session.start table argv reorder argc = ⟨.succeeded, records, none⟩ ↔
      (table.scanArguments argv argc).diagnostic? = none ∧
        arranged reorder (table.scanArguments argv argc).inOrder = records := by
  rw [Session.start_eq_succeeded_iff]
  apply and_congr_right
  intro succeeds
  rw [sorted_scanArguments succeeds]

end Start

/-- Reordering changes neither whether a command line is read nor what is reported of it, and partitions the records:
the options first and the operands after them, both in the order in which they were read. -/
theorem start_reordered (table : Table) (argv : List Text) (argc : Option Int) :
    (Session.start table argv true argc).state = (Session.start table argv false argc).state ∧
      (Session.start table argv true argc).diagnostic = (Session.start table argv false argc).diagnostic ∧
      (Session.start table argv true argc).records =
        ((Session.start table argv false argc).records.filter fun r => !r.isOperand) ++
          (Session.start table argv false argc).records.filter fun r => r.isOperand := by
  obtain ⟨state, diagnostic, records⟩ := divides_start table argv argc
  exact ⟨state, diagnostic, records⟩

end CommandLine
