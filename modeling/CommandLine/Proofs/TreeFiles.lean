import CommandLine.Proofs.FileEffects
import CommandLine.Tool.Tree

namespace CommandLine.Tool

namespace Tree

variable {tree : Tree} {place other : List Text} {node : Node} {nodes : List (List Text × Node)} {home : Text}
  {spot : Spot} {state after : Tree}

section Places

theorem lookup_put_self : (put place node nodes).lookup place = some node := by
  induction nodes with
  | nil => simp [put]
  | cons entry nodes ih =>
      rw [put]
      split
      · simp
      · rename_i apart
        have skipped : (place == entry.1) = false := beq_false_of_ne (Ne.symm apart)
        obtain ⟨there, kept⟩ := entry
        rw [List.lookup_cons, skipped]
        exact ih

theorem lookup_put_of_ne (apart : other ≠ place) : (put place node nodes).lookup other = nodes.lookup other := by
  induction nodes with
  | nil =>
      have skipped : (other == place) = false := beq_false_of_ne apart
      rw [put, List.lookup_cons, skipped]
  | cons entry nodes ih =>
      obtain ⟨there, kept⟩ := entry
      rw [put]
      split
      · rename_i same
        obtain rfl : there = place := same
        have skipped : (other == there) = false := beq_false_of_ne apart
        rw [List.lookup_cons, List.lookup_cons, skipped]
      · rw [List.lookup_cons, List.lookup_cons, ih]

def content? (tree : Tree) (place : List Text) : Option Octets :=
  match tree.node? place with
  | some (.file octets) => some octets
  | _ => none

theorem node?_put_self (inside : place ≠ []) : (⟨put place node nodes⟩ : Tree).node? place = some node := by
  rw [node?, if_neg inside, lookup_put_self]

theorem content?_put_self (inside : place ≠ []) (octets : Octets) :
    (⟨put place (.file octets) nodes⟩ : Tree).content? place = some octets := by
  rw [content?, node?_put_self inside]

theorem content?_put_of_ne (apart : other ≠ place) : (⟨put place node nodes⟩ : Tree).content? other =
    (⟨nodes⟩ : Tree).content? other := by
  rw [content?, content?, node?, node?]
  by_cases root : other = []
  · rw [if_pos root, if_pos root]
  · rw [if_neg root, if_neg root, lookup_put_of_ne apart]
    cases nodes.lookup other with
    | some node => rfl
    -- What was no file may have become a directory, which has no content either.
    | none =>
        cases (put place node nodes).any fun entry => other.isPrefixOf entry.1 <;>
          cases nodes.any fun entry => other.isPrefixOf entry.1 <;> rfl

theorem node?_root (tree : Tree) : tree.node? [] = some .directory := if_pos rfl

end Places

section Directories

/-- A directory is only made where there is nothing, by induction on the names that lead there. -/
theorem node?_of_entryFault? {names : List Text} (free : tree.entryFault? place names = none) :
    tree.node? (place ++ names) = none := by
  induction names generalizing place with
  | nil => cases free
  | cons name rest ih =>
      unfold entryFault? at free
      split at free
      · cases free
      · split at free
        · have later := ih free
          rwa [List.append_assoc] at later
        · cases free
        · cases free
        · rename_i absent
          exact absent
        · cases free

theorem content?_makeOne (home : Text) (place : List Text) (tree : Tree) :
    (makeOne home place tree).2.content? = tree.content? := by
  rw [makeOne]
  cases fault : tree.makeFault? home place with
  | some blocked => rfl
  | none =>
      have absent : tree.node? place = none := by
        rw [makeFault?] at fault
        split at fault
        · exact node?_of_entryFault? fault
        · cases fault
      funext other
      by_cases same : other = place
      · subst same
        have inside : other ≠ [] := by
          rintro rfl
          rw [node?_root] at absent
          cases absent
        rw [content?, node?_put_self inside, content?, absent]
      · exact content?_put_of_ne same

theorem content?_makeAll (home : Text) (names : List Text) (tree : Tree) :
    (makeAll home names tree).2.content? = tree.content? := by
  induction names generalizing tree with
  | nil => rfl
  | cons name above ih =>
      have outer := ih tree
      unfold makeAll
      split
      · split
        · rename_i made given
          rw [given] at outer
          exact (content?_makeOne home _ made).trans outer
        · exact outer
      · exact content?_makeOne home _ tree

end Directories

section Writing

def Spot.place? : Spot → Option (List Text)
  | .inside place => some place
  | .outside _ => none

theorem content?_createFile (home : Text) (tree : Tree) (spot : Spot) :
    SameBut spot.place? tree.content? (tree.createFile home spot).2.content? := by
  cases spot with
  | outside path => exact .refl
  | inside place =>
      rw [createFile]
      cases tree.createFault? home place with
      | some fault => exact .refl
      | none => exact fun other apart => content?_put_of_ne fun same => apart (congrArg some same.symm)

theorem content?_of_createFile (created : tree.createFile home spot = (.ok (), after)) :
    ∀ file, spot.place? = some file → after.content? file = some [] := by
  rintro file there
  cases spot with
  | outside path => cases there
  | inside place =>
      cases there
      rw [createFile] at created
      cases fault : tree.createFault? home file with
      | some blocked => simp [fault] at created
      | none =>
          rw [fault] at created
          cases created
          refine content?_put_self ?_ []
          rintro rfl
          rw [createFault?, node?_root] at fault
          split at fault <;> cases fault

theorem content?_appendText (tree : Tree) (spot : Spot) (text : Text) :
    SameBut spot.place? tree.content? (tree.appendText spot text).2.content? := by
  unfold appendText
  split
  · exact .refl
  · exact .refl
  · split
    · exact fun other apart => content?_put_of_ne fun same => apart (congrArg some same.symm)
    · exact .refl

theorem content?_of_appendText {text : Text} (appended : tree.appendText spot text = (.ok (), after)) :
    ∃ octets, Text.encode text = .ok octets ∧ ∀ file held, spot.place? = some file →
      tree.content? file = some held → after.content? file = some (held ++ octets) := by
  unfold appendText at appended
  split at appended
  · cases appended
  · rename_i octets path encoded
    exact ⟨octets, encoded, nofun⟩
  · rename_i octets place encoded
    refine ⟨octets, encoded, ?_⟩
    split at appended
    · rename_i before found
      cases appended
      rintro file held ⟨⟩ content
      rw [content?, found] at content
      cases content
      refine content?_put_self ?_ _
      rintro rfl
      rw [node?_root] at found
      cases found
    · cases appended

def files (convention : Convention) (nesting : Nat) (home : Text → Except Trouble (Option Text)) (directory : Text) :
    Files Tree Spot (List Text) where
  system := system convention nesting home directory
  file? := Spot.place?
  content? := content?
  read_keeps _ _ := rfl
  resolve_keeps _ _ := rfl
  makeDirectory_keeps state place := by
    cases place with
    | outside path => rfl
    | inside place => exact content?_makeAll directory place.dropLast.reverse state
  create_touches state place := content?_createFile directory state place
  append_touches state place text := content?_appendText state place text
  close_touches _ _ := .refl
  create_empties created := content?_of_createFile created
  append_adds appended := content?_of_appendText appended
  close_keeps closed := by
    cases closed
    rfl

end Writing

end Tree

end CommandLine.Tool
