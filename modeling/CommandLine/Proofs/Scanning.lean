import CommandLine.Proofs.Classification
import CommandLine.Proofs.Lookahead
import CommandLine.Session

namespace CommandLine

/-- What the pass does at an element that no token before it took. -/
inductive Meeting where
  | stop
  | noted (step : Step) (usesNext : Bool)
  | refused (problem : Problem)

namespace Table

variable {table : Table} {element : Text} {next : Option Text} {step : Step} {index : Nat}

def meet (table : Table) (element : Text) (next : Option Text) : Meeting :=
  match classify element with
  | .terminator _ => .stop
  | .operand text => .noted (.operand text) false
  | token =>
    match table.resolve token next with
    | .error problem => .refused problem
    | .ok resolution => .noted (.option element resolution.records) resolution.usesNext

theorem meet_option (isOption : (classify element).isOption = true) :
    table.meet element next =
      match table.resolve (classify element) next with
      | .error problem => .refused problem
      | .ok resolution => .noted (.option element resolution.records) resolution.usesNext := by
  unfold meet
  cases shape : classify element <;> simp_all [Token.isOption]

theorem meet_dashes : table.meet [.scalar '-', .scalar '-'] next = .stop := by
  rw [meet, Token.classify_of_shape .terminator]

theorem meet_plain (plain : Token.Plain element) :
    table.meet element next = .noted (.operand element) false := by
  rw [meet, Token.classify_of_shape (.operand element plain)]

theorem element_cases (element : Text) :
    element = [.scalar '-', .scalar '-'] ∨ Token.Plain element ∨ (classify element).isOption = true := by
  have shape := Token.shape_classify element
  generalize classify element = token at shape
  cases shape with
  | terminator => exact Or.inl rfl
  | longBare => exact Or.inr (Or.inr rfl)
  | longValued => exact Or.inr (Or.inr rfl)
  | cluster => exact Or.inr (Or.inr rfl)
  | operand _ plain => exact Or.inr (Or.inl plain)

inductive Meets (table : Table) (element : Text) (next : Option Text) : Meeting → Prop where
  | stop (dashes : element = [.scalar '-', .scalar '-']) : Meets table element next .stop
  | operand (plain : Token.Plain element) : Meets table element next (.noted (.operand element) false)
  | option {resolution : Resolution} (isOption : (classify element).isOption = true)
      (resolved : table.resolve (classify element) next = .ok resolution) :
      Meets table element next (.noted (.option element resolution.records) resolution.usesNext)
  | refused {problem : Problem} (isOption : (classify element).isOption = true)
      (resolved : table.resolve (classify element) next = .error problem) :
      Meets table element next (.refused problem)

theorem meets_of_meet {meeting : Meeting} (met : table.meet element next = meeting) :
    Meets table element next meeting := by
  subst met
  rcases element_cases element with rfl | plain | isOption
  · rw [meet_dashes]
    exact .stop rfl
  · rw [meet_plain plain]
    exact .operand plain
  · rw [meet_option isOption]
    cases resolved : table.resolve (classify element) next with
    | error problem => exact .refused isOption resolved
    | ok resolution => exact .option isOption resolved

theorem next_of_meet {used : Bool} (met : table.meet element next = .noted step used) (takes : used = true) :
    ∃ text, next = some text ∧ text ≠ [] := by
  cases meets_of_meet met with
  | operand plain => cases takes
  | option isOption resolved => exact next_of_resolve resolved takes

theorem rest_of_meet {used : Bool} {rest : List Text} (met : table.meet element rest.head? = .noted step used) :
    used = true → rest ≠ [] := by
  rintro takes rfl
  obtain ⟨text, given, _⟩ := next_of_meet met takes
  cases given

theorem meet_of_unused {used : Bool} (met : table.meet element next = .noted step used) (unused : used = false)
    (other : Option Text) : table.meet element other = .noted step false := by
  cases meets_of_meet met with
  | operand plain => exact meet_plain plain
  | option isOption resolved =>
      rw [meet_option isOption, resolve_of_unused resolved unused other]
      simp only [unused]

theorem meet_of_stop (met : table.meet element next = .stop) : element = [.scalar '-', .scalar '-'] := by
  cases meets_of_meet met with
  | stop dashes => exact dashes

theorem meet_append {rest : List Text} {meeting : Meeting} (back : List Text)
    (met : table.meet element rest.head? = meeting) (accepted : ∀ problem, meeting ≠ .refused problem) :
    table.meet element (rest ++ back).head? = meeting := by
  cases rest with
  | cons next rest => exact met
  | nil =>
      cases meeting with
      | refused problem => exact absurd rfl (accepted problem)
      | stop =>
          rw [meet_of_stop met]
          exact meet_dashes
      | noted step used =>
          cases used with
          | false => exact meet_of_unused met rfl _
          | true => exact absurd rfl (rest_of_meet met rfl)

theorem meet_cut {used : Bool} {front back : List Text}
    (met : table.meet element (front ++ back).head? = .noted step used) (kept : used = true → front ≠ []) :
    table.meet element front.head? = .noted step used := by
  cases front with
  | cons next front => exact met
  | nil =>
      have unused : used = false := by simpa using kept
      subst unused
      exact meet_of_unused met rfl _

theorem refused_isOption {problem : Problem} (met : table.meet element next = .refused problem) :
    (classify element).isOption = true := by
  cases meets_of_meet met with
  | refused isOption _ => exact isOption

theorem meet_of_refused {problem : Problem} {other : Option Text}
    (met : table.meet element next = .refused problem) (same : problem.fault = .missingArgument → other = next) :
    table.meet element other = .refused problem := by
  cases meets_of_meet met with
  | refused isOption resolved =>
      by_cases missing : problem.fault = .missingArgument
      · rw [same missing]
        exact met
      · rw [meet_option isOption, resolve_of_error resolved missing other]

theorem scan_nil (taken : Bool) : table.scan taken index [] = ⟨[], .exhausted⟩ := by
  cases taken <;> rfl

theorem scan_taken (rest : List Text) :
    table.scan true index (element :: rest) = table.scan false (index + 1) rest := rfl

theorem scan_met (rest : List Text) :
    table.scan false index (element :: rest) =
      match table.meet element rest.head? with
      | .stop => ⟨[], .terminated index rest⟩
      | .noted step used => (table.scan used (index + 1) rest).cons ⟨index, step⟩
      | .refused problem => ⟨[], .failed index element problem⟩ := by
  have sameText := Token.text_classify element
  rcases element_cases element with rfl | plain | isOption
  · rw [meet_dashes, scan, Token.classify_of_shape .terminator]
    rfl
  · rw [meet_plain plain, scan, Token.classify_of_shape (.operand element plain)]
    rfl
  · rw [meet_option isOption, scan]
    cases shape : classify element with
    | terminator _ => simp [shape, Token.isOption] at isOption
    | operand _ => simp [shape, Token.isOption] at isOption
    | long option =>
        rw [shape] at sameText
        cases resolved : table.resolve (.long option) rest.head? <;> simp [sameText, resolved]
    | short option =>
        rw [shape] at sameText
        cases resolved : table.resolve (.short option) rest.head? <;> simp [sameText, resolved]

end Table

def Note.later (places : Nat) (note : Note) : Note := { note with index := note.index + places }

def Ending.later (places : Nat) : Ending → Ending
  | exhausted => exhausted
  | terminated index tail => terminated (index + places) tail
  | failed index token problem => failed (index + places) token problem

namespace Scan

def later (places : Nat) (scan : Scan) : Scan :=
  ⟨scan.notes.map (Note.later places), scan.ending.later places⟩

/-- A pass over the front part of a command line, continued over its back part. The pass `rest` over the back part
alone is what follows if the front part left no terminator. -/
def resume (scan : Scan) (back : List Text) (rest : Scan) : Scan :=
  match scan.ending with
  | .exhausted => ⟨scan.notes ++ rest.notes, rest.ending⟩
  | .terminated index tail => ⟨scan.notes, .terminated index (tail ++ back)⟩
  | .failed _ _ _ => scan

theorem later_cons (places : Nat) (note : Note) (scan : Scan) :
    (scan.cons note).later places = (scan.later places).cons (note.later places) := rfl

theorem resume_cons (note : Note) (scan rest : Scan) (back : List Text) :
    (scan.cons note).resume back rest = (scan.resume back rest).cons note := by
  obtain ⟨notes, ending⟩ := scan
  cases ending <;> rfl

end Scan

namespace Table

variable {table : Table} {taken : Bool} {index : Nat}

theorem scan_later (places : Nat) (elements : List Text) :
    table.scan taken (index + places) elements = (table.scan taken index elements).later places := by
  induction elements generalizing taken index with
  | nil => rw [scan_nil, scan_nil]; rfl
  | cons element rest ih =>
      have next : index + places + 1 = index + 1 + places := by omega
      cases taken with
      | true => rw [scan_taken, scan_taken, next, ih]
      | false =>
          rw [scan_met, scan_met]
          cases table.meet element rest.head? with
          | stop => rfl
          | refused problem => rfl
          | noted step used =>
              simp only [next, ih, Scan.later_cons]
              rfl

/-- A pass that succeeded never looked past its end: longer command lines are read alike up to there. -/
theorem scan_append {front : List Text} (back : List Text)
    (succeeds : (table.scan taken index front).diagnostic? = none) (ready : taken = true → front ≠ []) :
    table.scan taken index (front ++ back) =
      (table.scan taken index front).resume back (table.scan false (index + front.length) back) := by
  induction front generalizing taken index with
  | nil =>
      have free : taken = false := by simpa using ready
      subst free
      rfl
  | cons element rest ih =>
      have place : index + (element :: rest).length = index + 1 + rest.length := by
        simp only [List.length_cons]
        omega
      cases taken with
      | true =>
          rw [List.cons_append, scan_taken, scan_taken, place]
          exact ih succeeds (by simp)
      | false =>
          rw [scan_met] at succeeds
          rw [List.cons_append, scan_met, scan_met, place]
          cases met : table.meet element rest.head? with
          | refused problem => rw [met] at succeeds; cases succeeds
          | stop =>
              rw [meet_append back met (by simp)]
              rfl
          | noted step used =>
              rw [met] at succeeds
              rw [meet_append back met (by simp)]
              simp only [Scan.resume_cons, ih succeeds (rest_of_meet met)]

end Table

end CommandLine
