import CommandLine.Proofs.Agreement
import CommandLine.Proofs.Outcome
import CommandLine.Proofs.Phrase

namespace CommandLine

/-- The next element can only be missed where there is no value behind an equals sign, and an empty value is none. -/
def LacksArgument (value next : Option Text) : Prop :=
  value = some [] ∨ value = none ∧ (next = none ∨ next = some [])

/-- Why a long option cannot be read, and the message about it. A descriptor is only asked about its argument once the
name means it without doubt. -/
inductive LongRefusal (table : Table) (token : LongToken) (next : Option Text) : Fault → Text → Prop where
  | ambiguous (ambiguous : table.Ambiguous token.name) :
      LongRefusal table token next .ambiguousOption
        ("option '".toText ++ token.text ++ "' is ambiguous".toText)
  | unrecognized (unknown : table.Unknown token.name) :
      LongRefusal table token next .unrecognizedOption
        ("unrecognized option '".toText ++ token.text ++ "'".toText)
  | unexpected {d : Descriptor} (selects : table.Selects token.name d) (arity : d.arity = .never)
      (given : token.value ≠ none) :
      LongRefusal table token next .unexpectedArgument
        ("option '--".toText ++ d.longName ++ "' doesn't allow an argument".toText)
  | missing {d : Descriptor} (selects : table.Selects token.name d) (arity : d.arity = .required)
      (lacks : LacksArgument token.value next) :
      LongRefusal table token next .missingArgument
        ("option '--".toText ++ d.longName ++ "' requires an argument".toText)

def Descriptor.longArgument (d : Descriptor) (value next : Option Text) : Text :=
  match value with
  | some text => text
  | none => if d.arity = .required then next.getD [] else []

section Matched

variable {d : Descriptor} {value next : Option Text}

theorem resolveMatched_unexpected (arity : d.arity = .never) (given : value ≠ none) :
    Table.resolveMatched d value next = .error (.longAllowsNoArgument d) := by
  rcases Option.ne_none_iff_exists'.mp given with ⟨text, rfl⟩
  simp only [Table.resolveMatched, arity]

theorem resolveMatched_missing (arity : d.arity = .required) (lacks : LacksArgument value next) :
    Table.resolveMatched d value next = .error (.longNeedsArgument d) := by
  rcases lacks with rfl | ⟨rfl, absent⟩
  · simp only [Table.resolveMatched, arity]
  · simp only [Table.resolveMatched, arity, argument?_eq_none_iff.mpr absent]

theorem resolveMatched_fits (allowed : ¬ (d.arity = .never ∧ value ≠ none))
    (supplied : ¬ (d.arity = .required ∧ LacksArgument value next)) :
    Table.resolveMatched d value next =
      .ok ⟨[.long d (d.longArgument value next)], decide (d.arity = .required ∧ value = none)⟩ := by
  cases value with
  | some text =>
      apply Table.resolveMatched_attached_iff.mpr
      constructor
      · cases arity : d.arity with
        | never => exact absurd ⟨arity, by simp⟩ allowed
        | optional => exact Or.inl rfl
        | required =>
            refine Or.inr ⟨rfl, ?_⟩
            intro empty
            exact supplied ⟨arity, Or.inl (by rw [empty])⟩
      · simp [Descriptor.longArgument]
  | none =>
      apply Table.resolveMatched_bare_iff.mpr
      by_cases arity : d.arity = .required
      · have given : ¬ (next = none ∨ next = some []) := by
          intro absent
          exact supplied ⟨arity, Or.inr ⟨rfl, absent⟩⟩
        cases next with
        | none => simp at given
        | some text =>
            refine Or.inr ⟨arity, text, rfl, by simpa using given, ?_⟩
            simp [Descriptor.longArgument, arity]
      · refine Or.inl ⟨arity, ?_⟩
        simp [Descriptor.longArgument, arity]

end Matched

namespace Table

variable {table : Table} {token : LongToken} {next : Option Text} {d : Descriptor}

theorem longVerdict_of_selects (selects : table.Selects token.name d) :
    table.longVerdict token next = .ofResult token.text (resolveMatched d token.value next) :=
  congrArg (Verdict.ofResult token.text) (resolveLong_of_selects selects)

theorem Selects.longForm (selects : table.Selects token.name d) :
    Record.longForm d = .scalar '-' :: .scalar '-' :: d.longName :=
  selects.first_named.holds.longForm

theorem message_longOption (selects : table.Selects token.name d) (rest : Text) :
    "option '".toText ++ Record.longForm d ++ rest = "option '--".toText ++ d.longName ++ rest := by
  have begins : "option '--".toText = "option '".toText ++ [.scalar '-', .scalar '-'] := by decide
  rw [selects.longForm, begins]
  simp only [List.append_assoc, List.cons_append, List.nil_append]

theorem longVerdict_of_refusal {fault : Fault} {message : Text}
    (refusal : LongRefusal table token next fault message) :
    table.longVerdict token next = ⟨[], 0, some ⟨fault, message, token.text, -1⟩⟩ := by
  cases refusal with
  | ambiguous ambiguous =>
      have result : table.resolveLong token next = .error (.ambiguous token.text) :=
        resolveLong_of_ambiguous ambiguous
      rw [longVerdict, result]
      rfl
  | unrecognized unknown =>
      have result : table.resolveLong token next = .error (.unrecognized token.text) :=
        resolveLong_of_unknown unknown
      rw [longVerdict, result]
      rfl
  | unexpected selects arity given =>
      rw [longVerdict_of_selects selects, resolveMatched_unexpected arity given, ← message_longOption selects]
      rfl
  | missing selects arity lacks =>
      rw [longVerdict_of_selects selects, resolveMatched_missing arity lacks, ← message_longOption selects]
      rfl

theorem longVerdict_of_fits (selects : table.Selects token.name d)
    (allowed : ¬ (d.arity = .never ∧ token.value ≠ none))
    (supplied : ¬ (d.arity = .required ∧ LacksArgument token.value next)) :
    table.longVerdict token next =
      ⟨[⟨d, d.longArgument token.value next, "--".toText ++ d.longName⟩],
        if d.arity = .required ∧ token.value = none then 2 else 1, none⟩ := by
  rw [longVerdict_of_selects selects, resolveMatched_fits allowed supplied]
  simp [Verdict.ofResult, Resolution.consumed, Record.long, selects.longForm, String.toText, Text.ofScalars]

/-- Two refusals of one token are for the same fault, since both tell its verdict. -/
theorem fault_unique {one two : Fault} {message other : Text}
    (first : LongRefusal table token next one message) (second : LongRefusal table token next two other) :
    one = two := by
  have same := (longVerdict_of_refusal first).symm.trans (longVerdict_of_refusal second)
  simp only [Verdict.mk.injEq, Option.some.injEq, Diagnostic.mk.injEq] at same
  exact same.2.2.1

theorem fits_of_not_refused (accepted : ∀ fault message, ¬ LongRefusal table token next fault message) :
    ∃ d, table.Selects token.name d ∧ ¬ (d.arity = .never ∧ token.value ≠ none) ∧
      ¬ (d.arity = .required ∧ LacksArgument token.value next) := by
  rcases table.name_cases token.name with ⟨d, selects⟩ | ambiguous | unknown
  · refine ⟨d, selects, ?_, ?_⟩
    · intro refuses
      exact accepted _ _ (.unexpected selects refuses.1 refuses.2)
    · intro misses
      exact accepted _ _ (.missing selects misses.1 misses.2)
  · exact absurd (.ambiguous ambiguous) (accepted _ _)
  · exact absurd (.unrecognized unknown) (accepted _ _)

end Table

/-- A long option fails with a fault exactly under the condition of that fault, and no two conditions hold together. A
failure leaves no records, uses nothing and names the token and, where it is known, the option in full. In every other
case there is one record, which shows the option in full. -/
theorem longVerdict_rule (table : Table) (token : LongToken) (next : Option Text) :
    (∀ fault, (∃ d, (table.longVerdict token next).diagnostic = some d ∧ d.fault = fault) ↔
      ∃ message, LongRefusal table token next fault message) ∧
    (∀ fault message, LongRefusal table token next fault message →
      table.longVerdict token next = ⟨[], 0, some ⟨fault, message, token.text, -1⟩⟩) ∧
    (∀ one two message other, LongRefusal table token next one message → LongRefusal table token next two other →
      one = two) ∧
    ((∀ fault message, ¬ LongRefusal table token next fault message) →
      ∃ d, table.Selects token.name d ∧
        table.longVerdict token next =
          ⟨[⟨d, d.longArgument token.value next, "--".toText ++ d.longName⟩],
            if d.arity = .required ∧ token.value = none then 2 else 1, none⟩) := by
  refine ⟨?faults, ?refused, ?exclusive, ?accepted⟩
  case faults =>
    intro fault
    constructor
    · intro failed
      rcases failed with ⟨d, blamed, rfl⟩
      -- Another refusal would have its own fault in the diagnostic, and without any there would be none.
      by_contra none
      have accepted : ∀ fault message, ¬ LongRefusal table token next fault message := by
        intro other message refusal
        rw [Table.longVerdict_of_refusal refusal] at blamed
        cases blamed
        exact none ⟨message, refusal⟩
      rcases Table.fits_of_not_refused accepted with ⟨e, selects, allowed, supplied⟩
      rw [Table.longVerdict_of_fits selects allowed supplied] at blamed
      cases blamed
    · intro refused
      rcases refused with ⟨message, refusal⟩
      rw [Table.longVerdict_of_refusal refusal]
      exact ⟨_, rfl, rfl⟩
  case refused =>
    intro fault message refusal
    exact Table.longVerdict_of_refusal refusal
  case exclusive =>
    intro one two message other first second
    exact Table.fault_unique first second
  case accepted =>
    intro accepted
    rcases Table.fits_of_not_refused accepted with ⟨d, selects, allowed, supplied⟩
    exact ⟨d, selects, Table.longVerdict_of_fits selects allowed supplied⟩

theorem longVerdict_rule_sample :
    sampleTable.longVerdict ⟨"--out".toText, "out".toText, none⟩ (some []) =
        ⟨[], 0, some ⟨.missingArgument, "option '--output' requires an argument".toText, "--out".toText, -1⟩⟩ ∧
      sampleTable.longVerdict ⟨"--verb=".toText, "verb".toText, some []⟩ none =
        ⟨[], 0, some ⟨.unexpectedArgument, "option '--verbose' doesn't allow an argument".toText,
          "--verb=".toText, -1⟩⟩ ∧
      ∃ d, sampleTable.Selects "col".toText d ∧
        sampleTable.longVerdict ⟨"--col=".toText, "col".toText, some []⟩ (some "next".toText) =
          ⟨[⟨d, [], "--".toText ++ d.longName⟩], if d.arity = .required ∧ some ([] : Text) = none then 2 else 1,
            none⟩ := by
  have output : sampleTable.Selects "out".toText ⟨.char 'o', some "output".toText, .required⟩ :=
    .abbreviation (by decide)
      ⟨[⟨.char 'v', some "verbose".toText, .never⟩], [⟨.char 'c', some "color".toText, .optional⟩], by decide,
        by decide, by decide⟩ (by decide)
  have verbose : sampleTable.Selects "verb".toText ⟨.char 'v', some "verbose".toText, .never⟩ :=
    .abbreviation (by decide)
      ⟨[], [⟨.char 'o', some "output".toText, .required⟩, ⟨.char 'c', some "color".toText, .optional⟩], by decide,
        by decide, by decide⟩ (by decide)
  have missing : LongRefusal sampleTable ⟨"--out".toText, "out".toText, none⟩ (some []) .missingArgument
      "option '--output' requires an argument".toText := by
    have told : "option '--output' requires an argument".toText =
        "option '--".toText ++ "output".toText ++ "' requires an argument".toText := by decide
    rw [told]
    exact @LongRefusal.missing _ ⟨"--out".toText, "out".toText, none⟩ _ _ output rfl (Or.inr ⟨rfl, Or.inr rfl⟩)
  have unexpected : LongRefusal sampleTable ⟨"--verb=".toText, "verb".toText, some []⟩ none .unexpectedArgument
      "option '--verbose' doesn't allow an argument".toText := by
    have told : "option '--verbose' doesn't allow an argument".toText =
        "option '--".toText ++ "verbose".toText ++ "' doesn't allow an argument".toText := by decide
    rw [told]
    exact @LongRefusal.unexpected _ ⟨"--verb=".toText, "verb".toText, some []⟩ _ _ verbose rfl (Option.some_ne_none [])
  refine ⟨?_, ?_, ?_⟩
  · exact (longVerdict_rule sampleTable _ _).2.1 _ _ missing
  · exact (longVerdict_rule sampleTable _ _).2.1 _ _ unexpected
  · rcases longVerdict_rule sampleTable ⟨"--col=".toText, "col".toText, some []⟩ (some "next".toText) with
      ⟨faults, _, _, accepted⟩
    apply accepted
    intro fault message refusal
    rcases (faults fault).mpr ⟨message, refusal⟩ with ⟨d, blamed, _⟩
    have clear : (sampleTable.longVerdict ⟨"--col=".toText, "col".toText, some []⟩
        (some "next".toText)).diagnostic = none := by decide
    rw [clear] at blamed
    cases blamed

end CommandLine
