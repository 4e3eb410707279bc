import CommandLine.Proofs.Selection
import Mathlib.Data.List.Forall2
import Mathlib.Data.List.TakeWhile

/-!
Building a table from entries that are read one by one. The entries before the first one that ends a table are all read,
the first of them that cannot be read is what the building fails with, and nothing behind them matters.
-/
namespace CommandLine

def Refused {α β ε : Type} (read : α → Except ε β) (x : α) : Prop := ∃ error, read x = .error error

section Reading

variable {α β ε : Type} {read : α → Except ε β} {x y : α} {z : β} {xs : List α} {zs : List β} {error : ε}

theorem isFirst_cons_of_holds {p : α → Prop} (holds : p x) : IsFirst p (x :: xs) y ↔ y = x := by
  have here : IsFirst p (x :: xs) x := ⟨[], xs, rfl, holds, by simp⟩
  constructor
  · intro first
    exact first.unique here
  · rintro rfl
    exact here

theorem isFirst_cons_of_not {p : α → Prop} (skips : ¬ p x) : IsFirst p (x :: xs) y ↔ IsFirst p xs y := by
  constructor
  · rintro ⟨before, after, split, holds, earlier⟩
    cases before with
    | nil =>
        cases split
        exact absurd holds skips
    | cons z before =>
        cases split
        exact ⟨before, after, rfl, holds, fun w member => earlier w (List.mem_cons_of_mem _ member)⟩
  · rintro ⟨before, after, rfl, holds, earlier⟩
    exact ⟨x :: before, after, rfl, holds, List.forall_mem_cons.mpr ⟨skips, earlier⟩⟩

theorem mapM_cons_error (failed : read x = .error error) (xs : List α) : (x :: xs).mapM read = .error error := by
  rw [List.mapM_cons, failed]
  rfl

theorem mapM_cons_ok (done : read x = .ok z) (xs : List α) :
    (x :: xs).mapM read = (xs.mapM read).map (z :: ·) := by
  rw [List.mapM_cons, done]
  cases xs.mapM read <;> rfl

theorem mapM_eq_ok_iff : xs.mapM read = .ok zs ↔ List.Forall₂ (fun x z => read x = .ok z) xs zs := by
  induction xs generalizing zs with
  | nil => simp [pure, Except.pure, eq_comm]
  | cons x xs ih =>
      rw [List.forall₂_cons_left_iff]
      cases here : read x with
      | error cause => simp [mapM_cons_error here]
      | ok z =>
          rw [mapM_cons_ok here]
          cases rest : xs.mapM read with
          | error cause => simp [Except.map, ← ih, rest]
          | ok others => simp [Except.map, ← ih, rest, eq_comm]

theorem mapM_eq_error_iff : xs.mapM read = .error error ↔
    ∃ x, IsFirst (Refused read) xs x ∧ read x = .error error := by
  induction xs with
  | nil =>
      constructor
      · intro failed
        cases failed
      · rintro ⟨x, first, _⟩
        cases first.mem
  | cons x xs ih =>
      cases here : read x with
      | error cause =>
          have refused : Refused read x := ⟨cause, here⟩
          simp only [isFirst_cons_of_holds refused, exists_eq_left, here, mapM_cons_error here, Except.error.injEq]
      | ok z =>
          have passes : ¬ Refused read x := by simp [Refused, here]
          simp only [isFirst_cons_of_not passes, mapM_cons_ok here, ← ih]
          cases xs.mapM read <;> simp [Except.map]

end Reading

namespace Table

section Ends

variable {α ε : Type}

/-- The entry is read, and it ends a table. One that is refused does not, whatever it has for a code. -/
def endsTable (read : α → Except ε Descriptor) (entry : α) : Bool :=
  match read entry with
  | .ok d => d.isSentinel
  | .error _ => false

def beforeEnd (read : α → Except ε Descriptor) (entries : List α) : List α :=
  entries.take (entries.findIdx (endsTable read))

variable {read : α → Except ε Descriptor} {entry : α} {xs ys : List α} {table : Table} {error : ε}

theorem beforeEnd_cons_of_ends (ends : endsTable read entry = true) : beforeEnd read (entry :: xs) = [] := by
  simp [beforeEnd, List.findIdx_cons, ends]

theorem beforeEnd_cons (goesOn : endsTable read entry = false) :
    beforeEnd read (entry :: xs) = entry :: beforeEnd read xs := by
  simp [beforeEnd, List.findIdx_cons, goesOn]

theorem beforeEnd_append_of_ends (ends : ∃ entry ∈ xs, endsTable read entry = true) (ys : List α) :
    beforeEnd read (xs ++ ys) = beforeEnd read xs := by
  rw [beforeEnd, List.findIdx_append, if_pos (List.findIdx_lt_length.mpr ends)]
  exact List.take_append_of_le_length List.findIdx_le_length

theorem beforeEnd_append (goesOn : ∀ entry ∈ xs, endsTable read entry = false) (ys : List α) :
    beforeEnd read (xs ++ ys) = xs ++ beforeEnd read ys := by
  induction xs with
  | nil => rfl
  | cons entry xs ih =>
      rw [List.cons_append, beforeEnd_cons (goesOn entry List.mem_cons_self),
        ih fun other member => goesOn other (List.mem_cons_of_mem _ member), List.cons_append]

theorem beforeEnd_eq_self (goesOn : ∀ entry ∈ xs, endsTable read entry = false) : beforeEnd read xs = xs := by
  simpa [beforeEnd] using beforeEnd_append goesOn []

theorem not_endsTable_of_beforeEnd : ∀ entry ∈ beforeEnd read xs, endsTable read entry = false := by
  induction xs with
  | nil => simp [beforeEnd]
  | cons entry xs ih =>
      cases ends : endsTable read entry with
      | true => simp [beforeEnd_cons_of_ends ends]
      | false =>
          rw [beforeEnd_cons ends]
          exact List.forall_mem_cons.mpr ⟨ends, ih⟩

end Ends

section Build

variable {α ε : Type} {read : α → Except ε Descriptor} {xs ys : List α} {table : Table} {error : ε}

/-- The reading of a table is that of the entries before its end, each read in its turn. -/
theorem readUntilSentinel_eq_mapM (xs : List α) : readUntilSentinel read xs = (beforeEnd read xs).mapM read := by
  induction xs with
  | nil => rfl
  | cons entry xs ih =>
      rw [readUntilSentinel]
      cases here : read entry with
      | error cause =>
          have goesOn : endsTable read entry = false := by simp [endsTable, here]
          rw [beforeEnd_cons goesOn, mapM_cons_error here]
          rfl
      | ok d =>
          cases sentinel : d.isSentinel with
          | true =>
              have ends : endsTable read entry = true := by simp [endsTable, here, sentinel]
              simp [beforeEnd_cons_of_ends ends, sentinel, bind, Except.bind, pure, Except.pure]
          | false =>
              have goesOn : endsTable read entry = false := by simp [endsTable, here, sentinel]
              rw [beforeEnd_cons goesOn, mapM_cons_ok here, ← ih]
              cases readUntilSentinel read xs <;> simp [sentinel, bind, Except.bind, pure, Except.pure, Except.map]

theorem ofList_of_sentinelFree {descriptors : List Descriptor} (free : ∀ d ∈ descriptors, d.isSentinel = false) :
    (ofList descriptors).entries = descriptors :=
  List.takeWhile_eq_self_iff.mpr fun d member => by simp [free d member]

theorem ofList_entries (table : Table) : ofList table.entries = table := by
  cases table with
  | mk entries free => simpa [ofList] using ofList_of_sentinelFree free

theorem sentinelFree_of_read {descriptors : List Descriptor}
    (each : List.Forall₂ (fun entry d => read entry = .ok d) xs descriptors)
    (goesOn : ∀ entry ∈ xs, endsTable read entry = false) : ∀ d ∈ descriptors, d.isSentinel = false := by
  induction each with
  | nil => simp
  | @cons entry d xs descriptors here _ ih =>
      rcases List.forall_mem_cons.mp goesOn with ⟨first, others⟩
      have kept : d.isSentinel = false := by simpa [endsTable, here] using first
      exact List.forall_mem_cons.mpr ⟨kept, ih others⟩

theorem entries_inj {one two : Table} : one.entries = two.entries ↔ one = two := by
  cases one
  cases two
  simp

theorem entries_build (xs : List α) : (build read xs).map entries = (beforeEnd read xs).mapM read := by
  rw [build, readUntilSentinel_eq_mapM]
  cases result : (beforeEnd read xs).mapM read with
  | error cause => rfl
  | ok descriptors =>
      have free := sentinelFree_of_read (mapM_eq_ok_iff.mp result) not_endsTable_of_beforeEnd
      exact congrArg Except.ok (ofList_of_sentinelFree free)

theorem build_eq_ok_iff : build read xs = .ok table ↔
    List.Forall₂ (fun entry d => read entry = .ok d) (beforeEnd read xs) table.entries := by
  rw [← mapM_eq_ok_iff, ← entries_build]
  cases build read xs with
  | error cause => simp [Except.map]
  | ok other => simp [Except.map, entries_inj]

theorem build_eq_error_iff : build read xs = .error error ↔
    ∃ entry, IsFirst (Refused read) (beforeEnd read xs) entry ∧ read entry = .error error := by
  rw [← mapM_eq_error_iff, ← entries_build]
  cases build read xs <;> simp [Except.map]

/-- Behind entries that do not end the table, the others build what they build alone. -/
theorem build_append (built : build read xs = .ok table) (goesOn : ∀ entry ∈ xs, endsTable read entry = false)
    (ys : List α) :
    (build read (xs ++ ys)).map entries = (build read ys).map fun more => table.entries ++ more.entries := by
  have first : xs.mapM read = .ok table.entries := by
    rw [← beforeEnd_eq_self goesOn, ← entries_build, built]
    rfl
  have others : (build read ys).map entries = (beforeEnd read ys).mapM read := entries_build ys
  rw [entries_build, beforeEnd_append goesOn, List.mapM_append, first, ← others]
  cases build read ys <;> rfl

theorem build_append_of_ends (ends : ∃ entry ∈ xs, endsTable read entry = true) (ys : List α) :
    build read (xs ++ ys) = build read xs := by
  rw [build, build, readUntilSentinel_eq_mapM, readUntilSentinel_eq_mapM, beforeEnd_append_of_ends ends]

theorem build_append_of_error (failed : build read xs = .error error) (ys : List α) :
    build read (xs ++ ys) = .error error := by
  by_cases ends : ∃ entry ∈ xs, endsTable read entry = true
  · rw [build_append_of_ends ends, failed]
  · have goesOn : ∀ entry ∈ xs, endsTable read entry = false := by simpa using ends
    rcases build_eq_error_iff.mp failed with ⟨entry, first, refused⟩
    rw [beforeEnd_eq_self goesOn] at first
    rw [build_eq_error_iff, beforeEnd_append goesOn]
    exact ⟨entry, first.append _, refused⟩

end Build

end Table

section Descriptors

theorem settle_descriptors (descriptors : List Descriptor) :
    (descriptors.map Entry.descriptor).mapM Entry.settle = .ok (descriptors.map Entry.descriptor) :=
  mapM_eq_ok_iff.mpr (List.forall₂_same.mpr (List.forall_mem_map.mpr fun _ _ => rfl))

theorem read_descriptors (descriptors : List Descriptor) :
    Table.readUntilSentinel Entry.check (descriptors.map Entry.descriptor) =
      .ok (descriptors.takeWhile fun d => !d.isSentinel) := by
  induction descriptors with
  | nil => rfl
  | cons d rest ih =>
      rw [List.map_cons, Table.readUntilSentinel, ih, List.takeWhile_cons]
      cases sentinel : d.isSentinel <;> simp [Entry.check, sentinel, bind, Except.bind, pure, Except.pure]

theorem ofEntries_descriptors (descriptors : List Descriptor) :
    Table.ofEntries (descriptors.map .descriptor) = .ok (.ofList descriptors) := by
  have same : Table.ofList (descriptors.takeWhile fun d => !d.isSentinel) = .ofList descriptors := by
    simp only [Table.ofList, List.takeWhile_takeWhile, and_self, Bool.decide_eq_true]
  calc
    _ = Table.ofList <$> Table.readUntilSentinel Entry.check (descriptors.map .descriptor) := rfl
    _ = .ok (.ofList (descriptors.takeWhile fun d => !d.isSentinel)) := by
      rw [read_descriptors]
      rfl
    _ = .ok (.ofList descriptors) := by rw [same]

theorem extended_descriptors (table : Table) (extra : List Descriptor) :
    table.extended (extra.map .descriptor) = .ok (.ofList (table.entries ++ extra)) := by
  rw [Table.extended, settle_descriptors]
  change Table.ofEntries (table.entries.map .descriptor ++ extra.map .descriptor) = _
  rw [← List.map_append, ofEntries_descriptors]

theorem ofList_entries_append (table : Table) (extra : List Descriptor) :
    (Table.ofList (table.entries ++ extra)).entries =
      table.entries ++ extra.takeWhile fun d => !d.isSentinel := by
  apply List.takeWhile_append_of_pos
  intro d member
  simp [table.sentinelFree d member]

end Descriptors

namespace Table

theorem ofEntries_entries (table : Table) : ofEntries (table.entries.map .descriptor) = .ok table :=
  (ofEntries_descriptors table.entries).trans (congrArg Except.ok (ofList_entries table))

/-- How a table is built from entries. Only those before the first one that ends it matter: the first of them that is
refused is the error, and if none is, they are the table. So the entries of two lists build one table behind the other,
unless the first list is refused or ends the table, and then the second one does not matter. A table is built again from
its own entries, and none of them has code 0. -/
theorem ofEntries_rule (xs : List Entry) :
    (∀ error, ofEntries xs = .error error ↔
      ∃ entry, IsFirst (Refused Entry.check) (beforeEnd Entry.check xs) entry ∧ entry.check = .error error) ∧
    ((∃ error, ofEntries xs = .error error) ↔ ∃ entry ∈ beforeEnd Entry.check xs, Refused Entry.check entry) ∧
    (∀ table, ofEntries xs = .ok table ↔
      List.Forall₂ (fun entry d => entry.check = .ok d) (beforeEnd Entry.check xs) table.entries) ∧
    (∀ table ys, ofEntries xs = .ok table → (∀ entry ∈ xs, endsTable Entry.check entry = false) →
      (ofEntries (xs ++ ys)).map entries = (ofEntries ys).map fun more => table.entries ++ more.entries) ∧
    (∀ ys, (∃ entry ∈ xs, endsTable Entry.check entry = true) → ofEntries (xs ++ ys) = ofEntries xs) ∧
    (∀ ys error, ofEntries xs = .error error → ofEntries (xs ++ ys) = .error error) ∧
    ∀ table, ofEntries xs = .ok table →
      ofEntries (table.entries.map .descriptor) = .ok table ∧ ∀ d ∈ table.entries, d.code ≠ .number 0 := by
  refine ⟨?blamed, ?refused, ?kept, ?joined, ?ended, ?failed, ?whole⟩
  case blamed => exact fun error => build_eq_error_iff
  case refused =>
    constructor
    · rintro ⟨error, failed⟩
      rcases build_eq_error_iff.mp failed with ⟨entry, first, _⟩
      exact ⟨entry, first.mem, first.holds⟩
    · intro some
      rcases exists_isFirst some with ⟨entry, first⟩
      rcases first.holds with ⟨error, refused⟩
      exact ⟨error, build_eq_error_iff.mpr ⟨entry, first, refused⟩⟩
  case kept => exact fun table => build_eq_ok_iff
  case joined => exact fun table ys built goesOn => build_append built goesOn ys
  case ended => exact fun ys ends => build_append_of_ends ends ys
  case failed => exact fun ys error failed => build_append_of_error failed ys
  case whole =>
    intro table _
    refine ⟨ofEntries_entries table, ?_⟩
    intro d member
    simpa [Descriptor.isSentinel] using table.sentinelFree d member

def endedEntries : List Entry :=
  [.descriptor ⟨.char 'v', some "verbose".toText, .never⟩, .spec ⟨.int 0, .null, .chosen .never⟩, .other (.int 7)]

def malformedEntries : List Entry :=
  [.descriptor ⟨.char 'v', some "verbose".toText, .never⟩, .spec ⟨.int 0, .int 7, .chosen .never⟩,
    .spec ⟨.bool false, .null, .chosen .never⟩]

/-- Nothing behind a valid entry with code 0 is looked at. A malformed one is an error. -/
theorem ofEntries_rule_sample :
    (∀ ys, ofEntries (endedEntries ++ ys) = .ok (.ofList [⟨.char 'v', some "verbose".toText, .never⟩])) ∧
      ofEntries malformedEntries = .error (.nameNotText (.int 7)) := by
  constructor
  · intro ys
    rcases ofEntries_rule endedEntries with ⟨_, _, _, _, ended, _⟩
    rw [ended ys ⟨_, List.mem_cons_of_mem _ List.mem_cons_self, rfl⟩]
    rfl
  · rcases ofEntries_rule malformedEntries with ⟨blamed, _⟩
    have valid : ¬ Refused Entry.check (.descriptor ⟨.char 'v', some "verbose".toText, .never⟩) := by
      rintro ⟨error, refused⟩
      cases refused
    have first : IsFirst (Refused Entry.check) (beforeEnd Entry.check malformedEntries)
        (.spec ⟨.int 0, .int 7, .chosen .never⟩) :=
      ⟨[.descriptor ⟨.char 'v', some "verbose".toText, .never⟩], [.spec ⟨.bool false, .null, .chosen .never⟩], rfl,
        ⟨_, rfl⟩, List.forall_mem_singleton.mpr valid⟩
    exact (blamed _).mpr ⟨_, first, rfl⟩

end Table

end CommandLine
