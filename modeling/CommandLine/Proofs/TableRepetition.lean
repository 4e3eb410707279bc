import CommandLine.Proofs.TableBuilding
import CommandLine.Proofs.TableOrder

/-!
Entries that a table holds more than once. A table is only searched for the first entry with some property, and no
such search finds an entry that stands behind an equal one. So it does not matter whether it stands there.
-/
namespace CommandLine

section Searches

variable {α : Type} {xs ys : List α} {x : α}

/-- Every search finds the same in both lists. -/
def SearchedAlike (xs ys : List α) : Prop := ∀ p : α → Bool, ys.find? p = xs.find? p

namespace SearchedAlike

theorem isFirst_iff (alike : SearchedAlike xs ys) {p : α → Prop} : IsFirst p ys x ↔ IsFirst p xs x := by
  classical
  have found : ∀ zs, IsFirst p zs x ↔ zs.find? (fun z => decide (p z)) = some x := by
    intro zs
    rw [find?_eq_some_iff_first]
    exact isFirst_congr (by simp)
  rw [found, found, alike]

theorem mem_iff (alike : SearchedAlike xs ys) : x ∈ ys ↔ x ∈ xs := by
  have sought : ∀ zs : List α, x ∈ zs ↔ ∃ z, IsFirst (· = x) zs z := by
    intro zs
    constructor
    · intro member
      exact exists_isFirst ⟨x, member, rfl⟩
    · intro found
      rcases found with ⟨z, first⟩
      exact first.holds ▸ first.mem
  rw [sought, sought]
  exact exists_congr fun z => alike.isFirst_iff

end SearchedAlike

theorem searchedAlike_repeated {front : List α} (member : x ∈ front) (back : List α) :
    SearchedAlike (front ++ back) (front ++ x :: back) := by
  intro p
  rw [List.find?_append, List.find?_append]
  cases found : front.find? p with
  | some y => rfl
  | none =>
      have rejected : ¬ p x = true := List.find?_eq_none.mp found x member
      rw [List.find?_cons_of_neg rejected]

variable [DecidableEq α]

theorem find?_eraseDups (p : α → Bool) (xs : List α) : xs.eraseDups.find? p = xs.find? p := by
  -- What is left of the tail is no part of it, so the induction is on the length.
  induction size : xs.length using Nat.strong_induction_on generalizing xs with
  | _ n ih =>
      cases xs with
      | nil => rfl
      | cons x rest =>
          have shorter : (rest.filter fun y => !y == x).length < n := by
            have bound := List.length_filter_le (fun y => !y == x) rest
            rw [← size, List.length_cons]
            omega
          rw [List.eraseDups_cons]
          by_cases accepted : p x = true
          · rw [List.find?_cons_of_pos accepted, List.find?_cons_of_pos accepted]
          · rw [List.find?_cons_of_neg accepted, List.find?_cons_of_neg accepted, ih _ shorter _ rfl, List.find?_filter]
            congr 1
            funext y
            by_cases same : y = x
            · simp [same, accepted]
            · simp [same]

theorem searchedAlike_eraseDups (xs : List α) : SearchedAlike xs xs.eraseDups := fun p => find?_eraseDups p xs

end Searches

namespace Table

variable {one two : Table}

/-- What a name or a character stands for is a question of which entries come first. -/
theorem alike_of_searchedAlike (same : SearchedAlike one.entries two.entries) : one.Alike two where
  entries e := same.mem_iff
  long name d selects := by
    cases selects with
    | full first => exact .full (same.isFirst_iff.mpr first)
    | abbreviation noFull first agree =>
        refine .abbreviation ?_ (same.isFirst_iff.mpr first) ?_
        · intro e member
          exact noFull e (same.mem_iff.mp member)
        · intro e member
          exact agree e (same.mem_iff.mp member)
  short c d selects := same.isFirst_iff.mpr selects

theorem exists_table_of_subset {descriptors : List Descriptor} (subset : descriptors ⊆ one.entries) :
    ∃ two : Table, ofEntries (descriptors.map .descriptor) = .ok two ∧ two.entries = descriptors := by
  have free : ∀ d ∈ descriptors, d.isSentinel = false := fun d member => one.sentinelFree d (subset member)
  exact ⟨.ofList descriptors, ofEntries_descriptors descriptors, ofList_of_sentinelFree free⟩

end Table

/-- Repeating an entry of a table behind it, next to it or further on, changes nothing: every command line has the same
state, the same records and the same diagnostic, in either order and with any bound. So a table may as well be rid of
all entries that repeat an earlier one. -/
theorem start_repeated (table : Table) :
    (∀ (front back : List Descriptor) (o : Descriptor), table.entries = front ++ back → o ∈ front →
      ∃ longer, Table.ofEntries ((front ++ o :: back).map .descriptor) = .ok longer ∧
        longer.entries = front ++ o :: back ∧
        ∀ (argv : List Text) (reorder : Bool) (argc : Option Int),
          Session.start longer argv reorder argc = Session.start table argv reorder argc) ∧
    ∃ shorter, Table.ofEntries (table.entries.eraseDups.map .descriptor) = .ok shorter ∧
      shorter.entries = table.entries.eraseDups ∧
      ∀ (argv : List Text) (reorder : Bool) (argc : Option Int),
        Session.start shorter argv reorder argc = Session.start table argv reorder argc := by
  constructor
  · intro front back o split member
    have subset : front ++ o :: back ⊆ table.entries := by
      rw [split]
      intro d inside
      exact (searchedAlike_repeated member back).mem_iff.mp inside
    rcases Table.exists_table_of_subset subset with ⟨longer, built, entries⟩
    refine ⟨longer, built, entries, ?_⟩
    have alike : table.Alike longer := by
      apply Table.alike_of_searchedAlike
      rw [split, entries]
      exact searchedAlike_repeated member back
    exact alike.start
  · have subset : table.entries.eraseDups ⊆ table.entries := fun d inside => List.mem_eraseDups.mp inside
    rcases Table.exists_table_of_subset subset with ⟨shorter, built, entries⟩
    refine ⟨shorter, built, entries, ?_⟩
    have alike : table.Alike shorter := by
      apply Table.alike_of_searchedAlike
      rw [entries]
      exact searchedAlike_eraseDups table.entries
    exact alike.start

theorem start_repeated_sample :
    versionTable.entries = versionTable.entries.take 2 ++ versionTable.entries.drop 2 ∧
      ⟨.char 'v', some "verbose".toText, .never⟩ ∈ versionTable.entries.take 2 ∧
      ∃ longer, longer.entries =
          [⟨.char 'v', some "verbose".toText, .never⟩, ⟨.number 86, some "version".toText, .never⟩,
            ⟨.char 'v', some "verbose".toText, .never⟩, ⟨.char 'o', none, .required⟩] ∧
        Session.start longer (["p", "-vo", "log", "--verb"].map String.toText) true none =
          ⟨.succeeded, [.short ⟨.char 'v', some "verbose".toText, .never⟩ 'v' [],
            .short ⟨.char 'o', none, .required⟩ 'o' "log".toText,
            .long ⟨.char 'v', some "verbose".toText, .never⟩ []], none⟩ ∧
        Session.start longer (["p", "-vo", "log", "--ver"].map String.toText) true none =
          ⟨.failed, [], some (.ofProblem (.ambiguous "--ver".toText) "--ver".toText 3)⟩ := by
  have split : versionTable.entries = versionTable.entries.take 2 ++ versionTable.entries.drop 2 := by decide
  have member : ⟨.char 'v', some "verbose".toText, .never⟩ ∈ versionTable.entries.take 2 := by decide
  rcases (start_repeated versionTable).1 _ _ _ split member with ⟨longer, _, entries, same⟩
  refine ⟨split, member, longer, entries.trans (by decide), ?_, ?_⟩
  · rw [same]
    decide
  · rw [same]
    decide

end CommandLine
