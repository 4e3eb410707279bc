import CommandLine.Resolution
import Mathlib.Data.List.Basic

/-!
The pass that looks for a long name. It keeps the first candidate and a flag, and the flag tells whether any two of the
candidates differ, wherever they stand.
-/
namespace CommandLine

variable {seen rest : List Descriptor} {found : LongMatch} {first d e : Descriptor} {name : Text}

theorem Table.agrees_iff : d.agrees e = true ↔ e.code = d.code ∧ e.arity = d.arity := by
  simp only [Descriptor.agrees, Bool.and_eq_true, decide_eq_true_eq]
  exact and_congr eq_comm eq_comm

def Clash (descriptors : List Descriptor) : Prop :=
  ∃ d ∈ descriptors, ∃ e ∈ descriptors, ¬ (e.code = d.code ∧ e.arity = d.arity)

theorem not_clash_nil : ¬ Clash [] := by
  intro clash
  rcases clash with ⟨d, member, _⟩
  cases member

theorem clash_congr {one two : List Descriptor} (same : ∀ e, e ∈ two ↔ e ∈ one) : Clash two ↔ Clash one := by
  simp only [Clash, same]

theorem clash_cons : Clash (first :: rest) ↔ ∃ e ∈ rest, ¬ (e.code = first.code ∧ e.arity = first.arity) := by
  constructor
  · intro clash
    rcases clash with ⟨one, member, two, another, differ⟩
    by_contra none
    have all : ∀ e ∈ first :: rest, e.code = first.code ∧ e.arity = first.arity := by
      intro e inside
      rcases List.mem_cons.mp inside with same | later
      · rw [same]
        exact ⟨rfl, rfl⟩
      · by_contra other
        exact none ⟨e, later, other⟩
    apply differ
    constructor
    · calc
        two.code = first.code := (all two another).1
        _ = one.code := (all one member).1.symm
    · calc
        two.arity = first.arity := (all two another).2
        _ = one.arity := (all one member).2.symm
  · intro differs
    rcases differs with ⟨e, later, differ⟩
    exact ⟨first, List.mem_cons_self, e, List.mem_cons_of_mem first later, differ⟩

theorem clash_concat (d : Descriptor) :
    Clash (first :: rest ++ [d]) ↔ Clash (first :: rest) ∨ ¬ (d.code = first.code ∧ d.arity = first.arity) := by
  rw [List.cons_append, clash_cons, clash_cons]
  constructor
  · intro differs
    rcases differs with ⟨e, inside, differ⟩
    rcases List.mem_append.mp inside with old | new
    · exact Or.inl ⟨e, old, differ⟩
    · rw [List.mem_singleton.mp new] at differ
      exact Or.inr differ
  · intro either
    rcases either with ⟨e, old, differ⟩ | differ
    · exact ⟨e, List.mem_append_left _ old, differ⟩
    · exact ⟨d, List.mem_append_right _ List.mem_cons_self, differ⟩

namespace LongMatch

/-- What the pass knows when it has met the candidates in `seen`, and none of them had the full name. -/
structure Weighs (seen : List Descriptor) (found : LongMatch) : Prop where
  option : found.option = seen.head?
  exact : found.exact = false
  ambiguous : found.ambiguous = true ↔ Clash seen

theorem weighs_nil : Weighs [] ⟨none, false, false⟩ where
  option := rfl
  exact := rfl
  ambiguous := by simpa using not_clash_nil

theorem weighs_weigh (weighs : Weighs seen found) (d : Descriptor) : Weighs (seen ++ [d]) (found.weigh d) := by
  rcases weighs with ⟨option, exact, ambiguous⟩
  cases seen with
  | nil =>
      have fresh : found.ambiguous = false := by simpa [not_clash_nil] using ambiguous
      have kept : found.weigh d = { found with option := some d } := by simp [weigh, option]
      rw [kept]
      exact ⟨rfl, exact, by simp [fresh, clash_cons]⟩
  | cons first rest =>
      have held : found.weigh d = { found with ambiguous := found.ambiguous || !first.agrees d } := by
        simp [weigh, option]
      rw [held]
      refine ⟨option, exact, ?_⟩
      rw [clash_concat, ← ambiguous, ← Table.agrees_iff]
      simp

theorem weighs_search (weighs : Weighs seen found) (noFull : ∀ e ∈ rest, e.longName.length ≠ name.length) :
    Weighs (seen ++ rest) (search name found rest) := by
  -- Each step moves one candidate from what is left to what is met, so both change in the induction.
  induction rest generalizing seen found with
  | nil => simpa [search] using weighs
  | cons d rest ih =>
      have goesOn : search name found (d :: rest) = search name (found.weigh d) rest :=
        if_neg (noFull d List.mem_cons_self)
      have more := ih (weighs_weigh weighs d) fun e later => noFull e (List.mem_cons_of_mem d later)
      rw [goesOn]
      simpa using more

/-- The first full name ends the pass, whatever is found by then and whatever follows. -/
theorem search_full (full : d.longName.length = name.length)
    (earlier : ∀ e ∈ seen, e.longName.length ≠ name.length) :
    search name found (seen ++ d :: rest) = ⟨some d, true, false⟩ := by
  induction seen generalizing found with
  | nil => exact if_pos full
  | cons e seen ih =>
      have goesOn : search name found (e :: seen ++ d :: rest) =
          search name (found.weigh e) (seen ++ d :: rest) := if_neg (earlier e List.mem_cons_self)
      rw [goesOn]
      exact ih fun other later => earlier other (List.mem_cons_of_mem e later)

end LongMatch

namespace Table

variable {table : Table}

theorem length_eq_iff_of_candidate (candidate : d ∈ table.candidates name) :
    d.longName.length = name.length ↔ d.longName = name := by
  have begins : name <+: d.longName := List.isPrefixOf_iff_prefix.mp (List.mem_filter.mp candidate).2
  constructor
  · intro length
    exact (begins.eq_of_length length.symm).symm
  · intro same
    rw [same]

theorem matchLong_of_full (split : table.candidates name = seen ++ d :: rest) (full : d.longName = name)
    (earlier : ∀ e ∈ seen, e.longName ≠ name) : table.matchLong name = ⟨some d, true, false⟩ := by
  rw [matchLong, split]
  apply LongMatch.search_full
  · rw [full]
  · intro e member
    have candidate : e ∈ table.candidates name := split ▸ List.mem_append_left _ member
    exact mt (length_eq_iff_of_candidate candidate).mp (earlier e member)

theorem weighs_matchLong (noFull : ∀ e ∈ table.candidates name, e.longName ≠ name) :
    (table.matchLong name).Weighs (table.candidates name) := by
  apply LongMatch.weighs_search LongMatch.weighs_nil
  intro e candidate
  exact mt (length_eq_iff_of_candidate candidate).mp (noFull e candidate)

end Table

end CommandLine
