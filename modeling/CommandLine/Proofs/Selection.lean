import CommandLine.Proofs.LongSearch

/-!
Which descriptor of a table a long name or a character selects, stated without the search that finds it.
-/
namespace CommandLine

/-- The element `x` has the property `p`, and none before it in `xs` has. -/
def IsFirst {α : Type} (p : α → Prop) (xs : List α) (x : α) : Prop :=
  ∃ before after, xs = before ++ x :: after ∧ p x ∧ ∀ y ∈ before, ¬ p y

section First

variable {α : Type} {xs : List α} {x y : α}

theorem find?_eq_some_iff_first (p : α → Bool) :
    xs.find? p = some x ↔ IsFirst (fun y => p y = true) xs x := by
  rw [List.find?_eq_some_iff_append]
  constructor
  · rintro ⟨holds, before, after, rfl, earlier⟩
    exact ⟨before, after, rfl, holds, by simpa using earlier⟩
  · rintro ⟨before, after, rfl, holds, earlier⟩
    exact ⟨holds, before, after, rfl, by simpa using earlier⟩

theorem IsFirst.mem {p : α → Prop} (first : IsFirst p xs x) : x ∈ xs := by
  obtain ⟨before, after, rfl, _⟩ := first
  simp

theorem IsFirst.holds {p : α → Prop} (first : IsFirst p xs x) : p x := by
  obtain ⟨_, _, _, holds, _⟩ := first
  exact holds

theorem isFirst_congr {p q : α → Prop} (same : ∀ z, p z ↔ q z) : IsFirst p xs x ↔ IsFirst q xs x := by
  have equal : p = q := funext fun z => propext (same z)
  rw [equal]

theorem IsFirst.unique {p : α → Prop} (one : IsFirst p xs x) (two : IsFirst p xs y) : x = y := by
  classical
  have found : ∀ z, IsFirst p xs z → xs.find? (fun w => decide (p w)) = some z := by
    intro z first
    exact (find?_eq_some_iff_first _).mpr ((isFirst_congr (by simp)).mp first)
  exact Option.some.inj ((found x one).symm.trans (found y two))

theorem exists_isFirst {p : α → Prop} (holds : ∃ x ∈ xs, p x) : ∃ x, IsFirst p xs x := by
  classical
  rcases holds with ⟨x, member, property⟩
  have found : (xs.find? fun y => decide (p y)).isSome = true :=
    List.find?_isSome.mpr ⟨x, member, decide_eq_true property⟩
  rcases Option.isSome_iff_exists.mp found with ⟨y, first⟩
  exact ⟨y, (isFirst_congr (by simp)).mp ((find?_eq_some_iff_first _).mp first)⟩

theorem IsFirst.narrow {p q : α → Prop} (first : IsFirst p xs x) (stronger : ∀ y, q y → p y) (holds : q x) :
    IsFirst q xs x := by
  rcases first with ⟨before, after, split, _, earlier⟩
  refine ⟨before, after, split, holds, ?_⟩
  intro y member property
  exact earlier y member (stronger y property)

theorem IsFirst.append {p : α → Prop} (first : IsFirst p xs x) (ys : List α) : IsFirst p (xs ++ ys) x := by
  obtain ⟨before, after, rfl, holds, earlier⟩ := first
  exact ⟨before, after ++ ys, by simp, holds, earlier⟩

theorem isFirst_of_only {p : α → Prop} (member : x ∈ xs) (holds : p x) (only : ∀ y ∈ xs, p y → y = x) :
    IsFirst p xs x := by
  obtain ⟨before, after, split, fresh⟩ := List.eq_append_cons_of_mem member
  refine ⟨before, after, split, holds, ?_⟩
  intro y earlier other
  have same : y = x := only y (split ▸ List.mem_append_left _ earlier) other
  exact fresh (same ▸ earlier)

end First

namespace Descriptor

def Named (d : Descriptor) (name : Text) : Prop := d.longName ≠ [] ∧ d.longName = name

def Abbreviated (d : Descriptor) (name : Text) : Prop := d.longName ≠ [] ∧ name <+: d.longName

instance (d : Descriptor) (name : Text) : Decidable (d.Named name) := inferInstanceAs (Decidable (_ ∧ _))

instance (d : Descriptor) (name : Text) : Decidable (d.Abbreviated name) := inferInstanceAs (Decidable (_ ∧ _))

theorem Named.abbreviated {d : Descriptor} {name : Text} (named : d.Named name) : d.Abbreviated name :=
  ⟨named.1, named.2 ▸ List.prefix_refl _⟩

theorem Named.name_ne_nil {d : Descriptor} {name : Text} (named : d.Named name) : name ≠ [] := named.2 ▸ named.1

theorem Abbreviated.shorter {d : Descriptor} {short long : Text} (front : short <+: long)
    (begins : d.Abbreviated long) : d.Abbreviated short :=
  ⟨begins.1, front.trans begins.2⟩

theorem Named.name_eq {d : Descriptor} {name : Text} (named : d.Named name) : d.name = some name := by
  obtain ⟨nonempty, same⟩ := named
  cases given : d.name with
  | none => simp [longName, given] at nonempty
  | some full => simpa [longName, given] using same

theorem Named.longForm {d : Descriptor} {name : Text} (named : d.Named name) :
    Record.longForm d = .scalar '-' :: .scalar '-' :: name := by
  rw [Record.longForm, named.name_eq]
  rfl

theorem named_iff {d : Descriptor} {name : Text} (nonempty : name ≠ []) : d.Named name ↔ d.name = some name := by
  constructor
  · exact Named.name_eq
  · intro same
    simp [Named, longName, same, nonempty]

end Descriptor

namespace Table

variable {table : Table} {name : Text} {c : CodePoint} {d e : Descriptor}

/-- A full name selects the first entry that has it. Any other name selects the first entry whose name it begins,
if all such entries agree. -/
inductive Selects (table : Table) (name : Text) (d : Descriptor) : Prop where
  | full (first : IsFirst (·.Named name) table.entries d)
  | abbreviation (noFull : ∀ e ∈ table.entries, ¬ e.Named name)
      (first : IsFirst (·.Abbreviated name) table.entries d)
      (agree : ∀ e ∈ table.entries, e.Abbreviated name → e.code = d.code ∧ e.arity = d.arity)

def SelectsShort (table : Table) (c : CodePoint) (d : Descriptor) : Prop :=
  IsFirst (fun e => e.short? = some c) table.entries d

theorem findShort_eq_some_iff : table.findShort c = some d ↔ table.SelectsShort c d := by
  rw [findShort, find?_eq_some_iff_first]
  simp only [decide_eq_true_eq, SelectsShort]

theorem findShort_eq_none_iff : table.findShort c = none ↔ ∀ e ∈ table.entries, e.short? ≠ some c := by
  simp only [findShort, List.find?_eq_none, decide_eq_true_eq, ne_eq]

theorem mem_candidates : e ∈ table.candidates name ↔ e ∈ table.entries ∧ e.Abbreviated name := by
  simp only [candidates, named, List.mem_filter, Descriptor.Abbreviated, List.isPrefixOf_iff_prefix,
    decide_eq_true_eq, ne_eq, and_assoc]

theorem find_candidates_iff :
    ((table.candidates name).find? fun e => e.longName = name) = some d ↔
      IsFirst (·.Named name) table.entries d := by
  rw [candidates, named, List.filter_filter, List.find?_filter, find?_eq_some_iff_first]
  apply isFirst_congr
  intro e
  simp only [Descriptor.Named, Bool.and_eq_true, decide_eq_true_eq, List.isPrefixOf_iff_prefix, ne_eq]
  constructor
  · rintro ⟨⟨_, nonempty⟩, same⟩
    exact ⟨nonempty, same⟩
  · rintro ⟨nonempty, same⟩
    exact ⟨⟨same ▸ List.prefix_refl _, nonempty⟩, same⟩

theorem head_candidates_iff :
    (table.candidates name).head? = some d ↔ IsFirst (·.Abbreviated name) table.entries d := by
  rw [candidates, named, List.filter_filter, List.head?_filter, find?_eq_some_iff_first]
  apply isFirst_congr
  intro e
  simp only [Descriptor.Abbreviated, Bool.and_eq_true, decide_eq_true_eq, List.isPrefixOf_iff_prefix, ne_eq]
  exact and_comm

theorem find_candidates_none :
    ((table.candidates name).find? fun e => e.longName = name) = none ↔
      ∀ e ∈ table.entries, ¬ e.Named name := by
  rw [List.find?_eq_none]
  constructor
  · intro absent e member named
    exact absent e (mem_candidates.mpr ⟨member, named.abbreviated⟩) (by simpa using named.2)
  · intro absent e member same
    obtain ⟨member, nonempty, _⟩ := mem_candidates.mp member
    exact absent e member ⟨nonempty, by simpa using same⟩

inductive LongSearch (table : Table) (name : Text) : LongMatch → Prop where
  | full (d : Descriptor) (first : IsFirst (·.Named name) table.entries d) :
      LongSearch table name ⟨some d, true, false⟩
  | abbreviation (d : Descriptor) (noFull : ∀ e ∈ table.entries, ¬ e.Named name)
      (first : IsFirst (·.Abbreviated name) table.entries d)
      (agree : ∀ e ∈ table.entries, e.Abbreviated name → e.code = d.code ∧ e.arity = d.arity) :
      LongSearch table name ⟨some d, false, false⟩
  | ambiguous (d e : Descriptor) (noFull : ∀ e ∈ table.entries, ¬ e.Named name)
      (first : IsFirst (·.Abbreviated name) table.entries d) (member : e ∈ table.entries)
      (abbreviated : e.Abbreviated name) (differ : ¬ (e.code = d.code ∧ e.arity = d.arity)) :
      LongSearch table name ⟨some d, false, true⟩
  | unknown (absent : ∀ e ∈ table.entries, ¬ e.Abbreviated name) : LongSearch table name ⟨none, false, false⟩

theorem search_of_weighs {found : LongMatch} (noFull : ∀ e ∈ table.entries, ¬ e.Named name)
    (weighs : found.Weighs (table.candidates name)) : LongSearch table name found := by
  rcases found with ⟨kept, isFull, flag⟩
  rcases weighs with ⟨option, exact, ambiguous⟩
  simp only at option exact ambiguous
  subst exact
  cases met : table.candidates name with
  | nil =>
      have clear : flag = false := by simpa [met, not_clash_nil] using ambiguous
      rw [option, met, clear]
      apply LongSearch.unknown
      intro e member abbreviated
      simpa [met] using mem_candidates.mpr ⟨member, abbreviated⟩
  | cons d rest =>
      have first := head_candidates_iff.mp (congrArg List.head? met)
      rw [met, clash_cons] at ambiguous
      rw [option, met]
      cases flag with
      | false =>
          apply LongSearch.abbreviation d noFull first
          intro e member abbreviated
          have candidate := mem_candidates.mpr ⟨member, abbreviated⟩
          rw [met] at candidate
          rcases List.mem_cons.mp candidate with rfl | later
          · exact ⟨rfl, rfl⟩
          · by_contra differ
            simpa using ambiguous.mpr ⟨e, later, differ⟩
      | true =>
          rcases ambiguous.mp rfl with ⟨e, later, differ⟩
          have candidate : e ∈ table.candidates name := met ▸ List.mem_cons_of_mem d later
          exact .ambiguous d e noFull first (mem_candidates.mp candidate).1 (mem_candidates.mp candidate).2 differ

theorem search_matchLong (table : Table) (name : Text) : LongSearch table name (table.matchLong name) := by
  cases full : (table.candidates name).find? fun e => e.longName = name with
  | some d =>
      rcases List.find?_eq_some_iff_append.mp full with ⟨same, seen, rest, split, earlier⟩
      rw [matchLong_of_full split (by simpa using same) (by simpa using earlier)]
      exact .full d (find_candidates_iff.mp full)
  | none =>
      apply search_of_weighs (find_candidates_none.mp full)
      apply weighs_matchLong
      simpa using List.find?_eq_none.mp full

theorem matchLong_of_selects (selects : table.Selects name d) :
    ∃ exact, table.matchLong name = ⟨some d, exact, false⟩ := by
  have search := search_matchLong table name
  generalize table.matchLong name = found at search ⊢
  cases selects with
  | full first =>
      cases search with
      | full other again => exact ⟨true, by rw [first.unique again]⟩
      | abbreviation _ noFull => exact absurd first.holds (noFull d first.mem)
      | ambiguous _ _ noFull => exact absurd first.holds (noFull d first.mem)
      | unknown absent => exact absurd first.holds.abbreviated (absent d first.mem)
  | abbreviation noFull first agree =>
      cases search with
      | full other again => exact absurd again.holds (noFull other again.mem)
      | abbreviation other _ again => exact ⟨false, by rw [first.unique again]⟩
      | ambiguous other e _ again member abbreviated differ =>
          rw [← first.unique again] at differ
          exact absurd (agree e member abbreviated) differ
      | unknown absent => exact absurd first.holds (absent d first.mem)

/-- No entry has the full name, and two of those whose name it begins differ. It does not matter where they stand. -/
structure Ambiguous (table : Table) (name : Text) : Prop where
  noFull : ∀ e ∈ table.entries, ¬ e.Named name
  clash : ∃ d ∈ table.entries, ∃ e ∈ table.entries,
    d.Abbreviated name ∧ e.Abbreviated name ∧ ¬ (e.code = d.code ∧ e.arity = d.arity)

def Unknown (table : Table) (name : Text) : Prop := ∀ e ∈ table.entries, ¬ e.Abbreviated name

theorem name_cases (table : Table) (name : Text) :
    (∃ d, table.Selects name d) ∨ table.Ambiguous name ∨ table.Unknown name := by
  have search := search_matchLong table name
  generalize table.matchLong name = found at search
  cases search with
  | full d first => exact Or.inl ⟨d, .full first⟩
  | abbreviation d noFull first agree => exact Or.inl ⟨d, .abbreviation noFull first agree⟩
  | ambiguous d e noFull first member abbreviated differ =>
      exact Or.inr (Or.inl ⟨noFull, d, first.mem, e, member, first.holds, abbreviated, differ⟩)
  | unknown absent => exact Or.inr (Or.inr absent)

theorem matchLong_of_ambiguous (ambiguous : table.Ambiguous name) :
    ∃ d, table.matchLong name = ⟨some d, false, true⟩ := by
  obtain ⟨noFull, one, member, two, another, begins, beginsToo, differ⟩ := ambiguous
  have search := search_matchLong table name
  generalize table.matchLong name = found at search ⊢
  cases search with
  | full d first => exact absurd first.holds (noFull d first.mem)
  | abbreviation d _ _ agree =>
      -- Two entries that agree with the first one agree with each other.
      obtain ⟨code, arity⟩ := agree one member begins
      obtain ⟨codeToo, arityToo⟩ := agree two another beginsToo
      exact absurd ⟨codeToo.trans code.symm, arityToo.trans arity.symm⟩ differ
  | ambiguous d => exact ⟨d, rfl⟩
  | unknown absent => exact absurd begins (absent one member)

theorem matchLong_of_unknown (unknown : table.Unknown name) : table.matchLong name = ⟨none, false, false⟩ := by
  have search := search_matchLong table name
  generalize table.matchLong name = found at search ⊢
  cases search with
  | full d first => exact absurd first.holds.abbreviated (unknown d first.mem)
  | abbreviation d _ first => exact absurd first.holds (unknown d first.mem)
  | ambiguous d _ _ first => exact absurd first.holds (unknown d first.mem)
  | unknown _ => rfl

theorem Selects.unique (one : table.Selects name d) (two : table.Selects name e) : d = e := by
  obtain ⟨_, left⟩ := matchLong_of_selects one
  obtain ⟨_, right⟩ := matchLong_of_selects two
  have same := congrArg LongMatch.option (left.symm.trans right)
  exact Option.some.inj same

/-- An abbreviation never skips the first entry with the name that it stands for. -/
theorem Selects.first_named (selects : table.Selects name d) :
    IsFirst (·.Named d.longName) table.entries d := by
  cases selects with
  | full first =>
      have same := first.holds.2
      rw [same]
      exact first
  | abbreviation _ first _ =>
      apply first.narrow _ ⟨first.holds.1, rfl⟩
      intro e named
      exact ⟨named.1, named.2 ▸ first.holds.2⟩

end Table

end CommandLine
