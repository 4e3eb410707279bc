import CommandLine.Proofs.ClusterResolution
import CommandLine.Proofs.Loop

namespace CommandLine

structure Cursor where
  passed : Nat
  records : List Record

def Cursor.start : Cursor := ⟨0, []⟩

/-- Where the cursor stands in the end, and the verdict; none if a character was asked for that is not there. -/
structure CursorExit where
  passed : Nat
  verdict : Option Verdict

namespace Table

def cursorTurn (table : Table) (token : ShortToken) (next : Option Text) (here : Cursor) : Turn Cursor CursorExit :=
  match token.cluster[here.passed]? with
  | none => .leaves ⟨here.passed, none⟩
  | some c =>
    match table.findShort c with
    | none => .leaves ⟨here.passed, some (.ofResult token.text (.error (.invalidShort c)))⟩
    | some d =>
      let remainder := token.cluster.drop (here.passed + 1)
      if d.takesArgument ∧ remainder ≠ [] then
        .leaves ⟨here.passed + 1, some ⟨here.records ++ [.short d c remainder], 1, none⟩⟩
      else if d.arity = .required then
        match argument? next with
        | some text => .leaves ⟨here.passed + 1, some ⟨here.records ++ [.short d c text], 2, none⟩⟩
        | none => .leaves ⟨here.passed + 1, some (.ofResult token.text (.error (.shortNeedsArgument c)))⟩
      else .goesOn ⟨here.passed + 1, here.records ++ [.short d c []]⟩

def cursorLoop (table : Table) (token : ShortToken) (next : Option Text) : Loop Cursor CursorExit where
  guard here := here.passed < token.cluster.length
  turn := table.cursorTurn token next
  close here := ⟨here.passed, some ⟨here.records, 1, none⟩⟩

def resolvedAt (table : Table) (token : ShortToken) (next : Option Text) (here : Cursor) : Except Problem Resolution :=
  (table.resolveCluster next (token.cluster.drop here.passed)).map (Resolution.behind here.records)

variable {table : Table} {token : ShortToken} {next : Option Text} {here : Cursor}

theorem resolvedAt_start : table.resolvedAt token next .start = table.resolveShort token next := by
  rw [resolvedAt, resolveShort, Cursor.start, List.drop_zero]
  cases table.resolveCluster next token.cluster <;> rfl

theorem resolvedAt_end (outside : token.cluster.length ≤ here.passed) :
    table.resolvedAt token next here = .ok ⟨here.records, false⟩ := by
  rw [resolvedAt, List.drop_eq_nil_of_le outside]
  simp [resolveCluster, Except.map, Resolution.behind]

/-- One turn inside the cluster: the cursor passes one character and what the loop comes to stays the same, or the loop
is left with that, and the cursor is still inside. -/
theorem cursorTurn_comes (inside : here.passed < token.cluster.length) :
    (table.cursorTurn token next here).Comes
      (fun there => there.passed = here.passed + 1 ∧
        table.resolvedAt token next there = table.resolvedAt token next here)
      (fun exit => exit.passed ≤ token.cluster.length ∧
        exit.verdict = some (.ofResult token.text (table.resolvedAt token next here))) := by
  have char : token.cluster[here.passed]? = some token.cluster[here.passed] := List.getElem?_eq_getElem inside
  have split : token.cluster.drop here.passed =
      token.cluster[here.passed] :: token.cluster.drop (here.passed + 1) := List.drop_eq_getElem_cons inside
  generalize token.cluster[here.passed] = c at char split
  simp only [cursorTurn, char, resolvedAt, split, resolveCluster]
  cases table.findShort c with
  | none => exact ⟨Nat.le_of_lt inside, rfl⟩
  | some d =>
      by_cases attached : d.takesArgument = true ∧ token.cluster.drop (here.passed + 1) ≠ []
      · simp only [if_pos attached]
        exact ⟨inside, rfl⟩
      · by_cases arity : d.arity = .required
        · simp only [if_neg attached, if_pos arity]
          cases argument? next <;> exact ⟨inside, rfl⟩
        · simp only [if_neg attached, if_neg arity]
          refine ⟨rfl, ?_⟩
          cases table.resolveCluster next (token.cluster.drop (here.passed + 1)) with
          | error _ => rfl
          | ok resolution => simp [Except.map, Resolution.behind, Resolution.cons]

theorem cursorLoop_sound (table : Table) (token : ShortToken) (next : Option Text) :
    (table.cursorLoop token next).Sound .start
      (fun here => here.passed ≤ token.cluster.length ∧
        table.resolvedAt token next here = table.resolveShort token next)
      (fun here => token.cluster.length - here.passed)
      (fun exit => exit.passed ≤ token.cluster.length ∧ exit.verdict = some (table.shortVerdict token next)) where
  first := ⟨Nat.zero_le _, resolvedAt_start⟩
  turns here holds inside := by
    have room : here.passed < token.cluster.length := inside
    apply (cursorTurn_comes room).imp
    · rintro there ⟨passed, same⟩
      rw [same, passed]
      exact ⟨⟨room, holds.2⟩, by omega⟩
    · rintro exit ⟨fits, same⟩
      exact ⟨fits, same.trans (by rw [holds.2]; rfl)⟩
  positive here _ inside := Nat.sub_pos_of_lt inside
  closes here holds outside := by
    have ended : table.resolvedAt token next here = .ok ⟨here.records, false⟩ :=
      resolvedAt_end (Nat.le_of_not_lt outside)
    refine ⟨holds.1, ?_⟩
    rw [shortVerdict, ← holds.2, ended]
    rfl

structure CursorBounded (table : Table) (token : ShortToken) (next : Option Text) : Prop where
  inside : ∀ turns here, (table.cursorLoop token next).Reaches .start turns here → here.passed ≤ token.cluster.length
  advances : ∀ turns here there, (table.cursorLoop token next).Reaches .start turns here →
    here.passed < token.cluster.length → table.cursorTurn token next here = .goesOn there →
    there.passed = here.passed + 1
  ends : ∃ turns exit, (table.cursorLoop token next).Leaves .start turns exit
  left : ∀ turns exit, (table.cursorLoop token next).Leaves .start turns exit →
    turns ≤ token.cluster.length ∧ exit.passed ≤ token.cluster.length ∧
      exit.verdict = some (table.shortVerdict token next)

theorem cursorBounded (table : Table) (token : ShortToken) (next : Option Text) : table.CursorBounded token next where
  inside _ _ reaches := ((cursorLoop_sound table token next).reached reaches).1.1
  advances _ here there _ inside turn := by
    have comes : (table.cursorTurn token next here).Comes _ _ := cursorTurn_comes inside
    rw [turn] at comes
    exact comes.1
  ends := (cursorLoop_sound table token next).exists_leaves
  left _ _ leaves := by
    rcases (cursorLoop_sound table token next).left leaves with ⟨⟨fits, verdict⟩, spent⟩
    exact ⟨spent, fits, verdict⟩

end Table

end CommandLine
