import CommandLine.Proofs.Agreement
import CommandLine.Proofs.Failure
import CommandLine.Proofs.Provenance
import CommandLine.Proofs.QuotedText

/-!
What the texts in a session are made of: elements of the command line and names of the table, with ASCII words around
them. So no halves of a pair meet in them unless they meet in an element or in a name.
-/
namespace CommandLine

namespace Text

variable {text front back : Text}

theorem unpaired_ofScalars (scalars : Scalars) : (ofScalars scalars).Unpaired := by
  induction scalars with
  | nil => exact .nil
  | cons c scalars ih =>
      refine List.isChain_cons.mpr ⟨?_, ih⟩
      rintro next - ⟨high, _⟩
      cases high

theorem Unpaired.of_suffix (whole : text.Unpaired) (ends : back <:+ text) : back.Unpaired :=
  List.IsChain.suffix whole ends

/-- Texts without halves at the place where they meet. -/
theorem unpaired_append (first : front.Unpaired) (second : back.Unpaired)
    (apart : ∀ c ∈ front.getLast?, ∀ next ∈ back.head?, ¬ (c.isHighHalf = true ∧ next.isLowHalf = true)) :
    Unpaired (front ++ back) :=
  List.isChain_append.mpr ⟨first, second, apart⟩

theorem scalar_of_mem {scalars : Scalars} {c : CodePoint} (member : c ∈ ofScalars scalars) :
    c.isHighHalf = false ∧ c.isLowHalf = false := by
  obtain ⟨letter, _, rfl⟩ := List.mem_map.mp member
  exact ⟨rfl, rfl⟩

theorem Unpaired.before (first : front.Unpaired) (scalars : Scalars) : Unpaired (front ++ ofScalars scalars) := by
  refine unpaired_append first (unpaired_ofScalars scalars) ?_
  rintro c - next head ⟨_, low⟩
  rw [(scalar_of_mem (List.mem_of_mem_head? head)).2] at low
  cases low

theorem Unpaired.after (second : back.Unpaired) (scalars : Scalars) : Unpaired (ofScalars scalars ++ back) := by
  refine unpaired_append (unpaired_ofScalars scalars) second ?_
  rintro c last next - ⟨high, _⟩
  rw [(scalar_of_mem (List.mem_of_mem_getLast? last)).1] at high
  cases high

theorem unpaired_singleton (c : CodePoint) : Unpaired [c] := List.isChain_singleton c

end Text

def Table.Unpaired (table : Table) : Prop := ∀ d ∈ table.entries, ∀ name, d.name = some name → name.Unpaired

instance (table : Table) : Decidable table.Unpaired :=
  inferInstanceAs (Decidable (∀ d ∈ table.entries, ∀ name ∈ d.name, name.Unpaired))

section Problems

/-- A problem names its token, a descriptor of the table, or one character. -/
inductive Problem.About (table : Table) (token : Text) : Problem → Prop where
  | ambiguous : About table token (.ambiguous token)
  | unrecognized : About table token (.unrecognized token)
  | longAllowsNoArgument {d : Descriptor} (entry : d ∈ table.entries) : About table token (.longAllowsNoArgument d)
  | longNeedsArgument {d : Descriptor} (entry : d ∈ table.entries) : About table token (.longNeedsArgument d)
  | invalidShort (c : CodePoint) : About table token (.invalidShort c)
  | shortNeedsArgument (c : CodePoint) : About table token (.shortNeedsArgument c)

variable {table : Table} {token element : Text} {value next : Option Text} {problem : Problem} {d : Descriptor}

theorem about_of_resolveMatched (entry : d ∈ table.entries)
    (refused : Table.resolveMatched d value next = .error problem) : problem.About table token := by
  unfold Table.resolveMatched at refused
  split at refused
  · cases refused
    exact .longAllowsNoArgument entry
  · cases refused
    exact .longNeedsArgument entry
  · cases refused
  · split at refused
    · cases refused
    · cases refused
      exact .longNeedsArgument entry
  · cases refused

theorem about_of_resolveLong {option : LongToken} (refused : table.resolveLong option next = .error problem) :
    problem.About table option.text := by
  rcases table.name_cases option.name with ⟨d, selects⟩ | ambiguous | unknown
  · exact about_of_resolveMatched selects.first_named.mem ((Table.resolveLong_of_selects selects).symm.trans refused)
  · cases (Table.resolveLong_of_ambiguous ambiguous).symm.trans refused
    exact .ambiguous
  · cases (Table.resolveLong_of_unknown unknown).symm.trans refused
    exact .unrecognized

/-- By induction on the cluster: the first character that cannot be read is the one in the problem. -/
theorem about_of_resolveCluster {chars : Text} (refused : table.resolveCluster next chars = .error problem) :
    problem.About table token := by
  induction chars with
  | nil => cases refused
  | cons c rest ih =>
      rw [Table.resolveCluster] at refused
      split at refused
      · cases refused
        exact .invalidShort c
      · split_ifs at refused
        · split at refused
          · cases refused
          · cases refused
            exact .shortNeedsArgument c
        · cases later : table.resolveCluster next rest with
          | ok resolution => simp [later, Except.map] at refused
          | error found =>
              rw [later] at refused
              cases refused
              exact ih later

theorem about_of_refused (refused : table.meet element next = .refused problem) : problem.About table element := by
  cases Table.meets_of_meet refused with
  | refused _ resolved =>
      have text := Token.text_classify element
      cases shape : classify element with
      | terminator _ => simp [shape, Table.resolve] at resolved
      | operand _ => simp [shape, Table.resolve] at resolved
      | short option =>
          rw [shape] at resolved
          exact about_of_resolveCluster resolved
      | long option =>
          rw [shape] at resolved text
          exact text ▸ about_of_resolveLong resolved

end Problems

section Texts

variable {table : Table} {argv : List Text} {reorder : Bool} {argc : Option Int} {problem : Problem} {token : Text}

theorem unpaired_longForm (names : table.Unpaired) {d : Descriptor} (entry : d ∈ table.entries) :
    (Record.longForm d).Unpaired := by
  cases given : d.name with
  | none =>
      rw [Record.longForm, given]
      exact (Text.unpaired_ofScalars "None".toList).after "--".toList
  | some name =>
      rw [Record.longForm, given]
      exact (names d entry name given).after "--".toList

theorem Problem.About.unpaired (names : table.Unpaired) (quoted : token.Unpaired) (about : problem.About table token) :
    problem.message.Unpaired := by
  cases about with
  | ambiguous => exact (quoted.after "option '".toList).before "' is ambiguous".toList
  | unrecognized => exact (quoted.after "unrecognized option '".toList).before "'".toList
  | longAllowsNoArgument entry =>
      exact ((unpaired_longForm names entry).after "option '".toList).before "' doesn't allow an argument".toList
  | longNeedsArgument entry =>
      exact ((unpaired_longForm names entry).after "option '".toList).before "' requires an argument".toList
  | invalidShort c => exact (Text.unpaired_singleton c).after "invalid option -- ".toList
  | shortNeedsArgument c => exact (Text.unpaired_singleton c).after "option requires an argument -- ".toList

theorem admitted_subset (argv : List Text) (argc : Option Int) : admitted argv argc ⊆ argv := by
  rw [admitted_eq]
  exact fun element member => List.mem_of_mem_take (List.mem_of_mem_drop member)

theorem unpaired_record (names : table.Unpaired) (elements : ∀ element ∈ argv, element.Unpaired) {r : Record}
    (member : r ∈ (Session.start table argv reorder argc).records) : r.form.Unpaired ∧ r.argument.Unpaired := by
  cases start_origin member with
  | operand inside => exact ⟨.nil, elements _ (admitted_subset argv argc inside)⟩
  | option reports inside ends =>
      refine ⟨?_, (elements _ (admitted_subset argv argc inside)).of_suffix ends⟩
      rcases reports.form with ⟨name, _, form, first⟩ | ⟨c, form, _⟩
      · rw [form]
        exact (names _ first.mem name first.holds).after "--".toList
      · rw [form]
        exact (Text.unpaired_singleton c).after "-".toList

theorem unpaired_diagnostic (names : table.Unpaired) (elements : ∀ element ∈ argv, element.Unpaired) {d : Diagnostic}
    (blamed : (Session.start table argv reorder argc).diagnostic = some d) :
    d.message.Unpaired ∧ d.token.Unpaired := by
  rw [Session.start_diagnostic] at blamed
  obtain ⟨failure, occurs, split, rfl⟩ := Table.diagnostic_iff_occurs.mp blamed
  have inside : failure.token ∈ admitted argv argc := by
    rw [← split]
    exact List.mem_append_right _ List.mem_cons_self
  have token := elements _ (admitted_subset argv argc inside)
  exact ⟨(about_of_refused occurs.refused).unpaired names token, token⟩

end Texts

end CommandLine
