import CommandLine.Proofs.Phrase

/-!
What holds of every note of a pass: an operand is a plain text, and a record of an option reports a descriptor of
the table in a form that selects this descriptor, with an argument that it allows.
-/
namespace CommandLine

namespace Arity

variable {arity : Arity} {argument : Text}

def Allows : Arity → Text → Prop
  | never, argument => argument = []
  | required, argument => argument ≠ []
  | optional, _ => True

theorem allows_nil (free : arity ≠ .required) : arity.Allows [] := by
  cases arity with
  | never => rfl
  | required => exact absurd rfl free
  | optional => trivial

theorem allows_nonempty (takes : arity ≠ .never) (nonempty : argument ≠ []) : arity.Allows argument := by
  cases arity with
  | never => exact absurd rfl takes
  | required => exact nonempty
  | optional => trivial

theorem allows_attached (attached : arity = .optional ∨ arity = .required ∧ argument ≠ []) :
    arity.Allows argument := by
  rcases attached with rfl | ⟨rfl, nonempty⟩
  · trivial
  · exact nonempty

end Arity

inductive Record.Reports (table : Table) : Record → Prop where
  | long {d : Descriptor} {argument : Text} (first : IsFirst (·.Named d.longName) table.entries d)
      (allowed : d.arity.Allows argument) : Reports table (.long d argument)
  | short {c : CodePoint} {d : Descriptor} {argument : Text} (selects : table.SelectsShort c d)
      (allowed : d.arity.Allows argument) : Reports table (.short d c argument)

namespace Record.Reports

variable {table : Table} {r : Record}

theorem mem (reports : r.Reports table) : r.descriptor ∈ table.entries := by
  cases reports with
  | long first _ => exact first.mem
  | short selects _ => exact selects.mem

theorem isOperand (reports : r.Reports table) : r.isOperand = false := table.sentinelFree _ reports.mem

theorem allows (reports : r.Reports table) : r.descriptor.arity.Allows r.argument := by
  cases reports with
  | long _ allowed => exact allowed
  | short _ allowed => exact allowed

end Record.Reports

def Step.Lawful (table : Table) : Step → Prop
  | operand text => Token.Plain text
  | option _ records => ∀ r ∈ records, r.Reports table

namespace Table

variable {table : Table}

theorem cluster_reports {chars : Text} {value : Option Text} {records : List Record}
    (reads : Cluster table chars value records) : ∀ r ∈ records, r.Reports table := by
  induction reads with
  | done => simp
  | flag selects arity more ih =>
      intro r member
      rcases List.mem_cons.mp member with rfl | later
      · exact .short selects (Arity.allows_nil (by simp [arity]))
      · exact ih r later
  | bare selects arity => simpa using Record.Reports.short selects (Arity.allows_nil (by simp [arity]))
  | attached selects arity nonempty =>
      simpa using Record.Reports.short selects (Arity.allows_nonempty arity nonempty)
  | separate selects arity nonempty =>
      simpa using Record.Reports.short selects (Arity.allows_nonempty (by simp [arity]) nonempty)

theorem phrase_reports {element : Text} {value : Option Text} {records : List Record}
    (phrase : Phrase table element value records) (isOption : ¬ Token.Plain element) :
    ∀ r ∈ records, r.Reports table := by
  cases phrase with
  | operand plain => exact absurd plain isOption
  | longBare nonempty noEquals selects arity =>
      simpa using Record.Reports.long selects.first_named (Arity.allows_nil arity)
  | longAttached noEquals selects arity =>
      simpa using Record.Reports.long selects.first_named (Arity.allows_attached arity)
  | longSeparate nonempty noEquals selects arity given =>
      simpa using Record.Reports.long selects.first_named (Arity.allows_nonempty (by simp [arity]) given)
  | cluster single reads => exact cluster_reports reads

theorem meet_lawful {element : Text} {next : Option Text} {step : Step} {used : Bool}
    (met : table.meet element next = .noted step used) : step.Lawful table := by
  have phrase := phrase_of_meet met
  cases meets_of_meet met with
  | operand plain => exact plain
  | option isOption resolved =>
      apply phrase_reports phrase
      intro plain
      rw [Token.classify_of_shape (.operand element plain)] at isOption
      cases isOption

/-- Every note of every pass is lawful, also of one that fails later. -/
theorem scan_lawful {taken : Bool} {index : Nat} (elements : List Text) :
    ∀ note ∈ (table.scan taken index elements).notes, note.step.Lawful table := by
  induction elements generalizing taken index with
  | nil => simp [scan_nil]
  | cons element rest ih =>
      cases taken with
      | true => exact ih
      | false =>
          rw [scan_met]
          cases met : table.meet element rest.head? with
          | stop => simp
          | refused problem => simp
          | noted step used =>
              intro note member
              rcases List.mem_cons.mp member with rfl | later
              · exact meet_lawful met
              · exact ih note later

end Table

end CommandLine
