import CommandLine.Json.Reader
import CommandLine.Proofs.QuotedText

/-!
A JSON document as a run of lexemes. A document without stray characters is read by its lexemes alone, and the printed
form of a value spells the lexemes of that value whatever follows it.
-/
namespace CommandLine.Json

open Reading (between inWord inText afterBackslash feedBetween isWordChar isBlankChar)

section Runs

def lexemesFrom (reading : Reading) : Scalars → Option (List Lexeme)
  | [] => reading.finish.2.map fun _ => reading.finish.1
  | c :: rest => (reading.feed c).2.bind fun next => (lexemesFrom next rest).map ((reading.feed c).1 ++ ·)

variable {bounds : Bounds} {building : Building}

theorem lexemesFrom_cons_iff {reading : Reading} {c : Char} {rest : Scalars} {lexemes : List Lexeme} :
    lexemesFrom reading (c :: rest) = some lexemes ↔
      ∃ fed next more, reading.feed c = (fed, some next) ∧ lexemesFrom next rest = some more ∧
        fed ++ more = lexemes := by
  rw [lexemesFrom]
  rcases reading.feed c with ⟨fed, _ | next⟩ <;> simp

theorem steps_append (first second : List Lexeme) :
    building.steps bounds (first ++ second) = (building.steps bounds first).bind (·.steps bounds second) := by
  induction first generalizing building with
  | nil => rfl
  | cons lexeme first ih =>
      rw [List.cons_append, Building.steps, Building.steps]
      cases building.step bounds lexeme with
      | error fault => rfl
      | ok next => exact ih

theorem readFrom_eq {reading : Reading} {text : Scalars} {lexemes : List Lexeme}
    (split : lexemesFrom reading text = some lexemes) :
    Progress.readFrom bounds ⟨reading, building⟩ text =
      (building.steps bounds lexemes).bind Building.result := by
  induction text generalizing reading building lexemes with
  | nil =>
      obtain ⟨last, ended, rfl⟩ := Option.map_eq_some_iff.mp split
      rw [Progress.readFrom, Progress.take, ended]
      cases building.steps bounds reading.finish.1 <;> rfl
  | cons c rest ih =>
      obtain ⟨fed, next, more, fedEq, later, rfl⟩ := lexemesFrom_cons_iff.mp split
      rw [Progress.readFrom, Progress.take, fedEq, steps_append]
      cases building.steps bounds fed with
      | error fault => rfl
      | ok built => exact ih later

theorem readWithin_eq {text : Scalars} {lexemes : List Lexeme} (split : lexemesFrom between text = some lexemes) :
    readWithin bounds text = (Building.start.steps bounds lexemes).bind Building.result :=
  readFrom_eq split

end Runs

section Spelling

def Breaks (text : Scalars) : Prop := ∀ c ∈ text.head?, isWordChar c = false

theorem breaks_cons {c : Char} {rest : Scalars} (other : isWordChar c = false) : Breaks (c :: rest) := by
  simpa [Breaks] using other

/-- A text that gives the same lexemes before every text that ends a word. -/
def Spells (text : Scalars) (lexemes : List Lexeme) : Prop :=
  ∀ ⦃rest more⦄, Breaks rest → lexemesFrom between rest = some more →
    lexemesFrom between (text ++ rest) = some (lexemes ++ more)

/-- A text that gives the same lexemes whatever follows it. -/
def Marks (text : Scalars) (lexemes : List Lexeme) : Prop :=
  ∀ ⦃rest more⦄, lexemesFrom between rest = some more →
    lexemesFrom between (text ++ rest) = some (lexemes ++ more)

variable {text other : Scalars} {first second : List Lexeme}

theorem spells_nil : Spells [] [] := fun _ _ _ split => split

theorem Marks.spells (marks : Marks text first) : Spells text first := fun _ _ _ split => marks split

theorem Marks.append (front : Marks text first) (back : Marks other second) :
    Marks (text ++ other) (first ++ second) := by
  intro rest more split
  rw [List.append_assoc, List.append_assoc]
  exact front (back split)

theorem Marks.before (front : Marks text first) (back : Spells other second) :
    Spells (text ++ other) (first ++ second) := by
  intro rest more breaks split
  rw [List.append_assoc, List.append_assoc]
  exact front (back breaks split)

theorem Spells.ended (front : Spells text first) (back : Marks other second)
    (breaks : ∀ rest, Breaks (other ++ rest)) : Marks (text ++ other) (first ++ second) := by
  intro rest more split
  rw [List.append_assoc, List.append_assoc]
  exact front (breaks rest) (back split)

theorem marks_char {c : Char} (fed : feedBetween c = (first, some between)) : Marks [c] first :=
  fun _ more split => lexemesFrom_cons_iff.mpr ⟨first, between, more, fed, split, rfl⟩

theorem marks_newLine (depth : Nat) : Marks (newLine depth) [] := by
  have line : Marks ['\n'] [] := marks_char rfl
  have blank : Marks [' '] [] := marks_char rfl
  refine line.append ?_
  induction 2 * depth with
  | zero => exact fun _ _ split => split
  | succ count ih => exact blank.append ih

theorem breaks_newLine (depth : Nat) (rest : Scalars) : Breaks (newLine depth ++ rest) := breaks_cons rfl

end Spelling

section Words

variable {letters rest : Scalars} {more : List Lexeme}

theorem feedBetween_letter {c : Char} (letter : isWordChar c = true) : feedBetween c = ([], some (inWord [c])) := by
  have blank : isBlankChar c = false := by
    cases given : isBlankChar c with
    | false => rfl
    | true =>
        have cases : ((c = ' ' ∨ c = '\t') ∨ c = '\n') ∨ c = '\r' := by simpa [isBlankChar] using given
        rcases cases with ((rfl | rfl) | rfl) | rfl <;> cases letter
  have quote : c ≠ '"' := by
    rintro rfl
    cases letter
  rw [feedBetween, blank, if_neg Bool.false_ne_true, if_neg quote, if_pos letter]

theorem lexemesFrom_inWord (begun : Scalars) (all : ∀ c ∈ letters, isWordChar c = true) (breaks : Breaks rest)
    (split : lexemesFrom between rest = some more) :
    lexemesFrom (inWord begun) (letters ++ rest) = some (.word (begun.reverse ++ letters) :: more) := by
  induction letters generalizing begun with
  | nil =>
      rw [List.append_nil, List.nil_append]
      cases rest with
      | nil =>
          obtain rfl := Option.some.inj split
          rfl
      | cons c rest =>
          have fed : (inWord begun).feed c = (.word begun.reverse :: (feedBetween c).1, (feedBetween c).2) := by
            rw [Reading.feed, breaks c rfl, if_neg Bool.false_ne_true]
          obtain ⟨marks, next, later, goes, ended, rfl⟩ := lexemesFrom_cons_iff.mp split
          have ends : feedBetween c = (marks, some next) := goes
          rw [ends] at fed
          exact lexemesFrom_cons_iff.mpr ⟨_, next, later, fed, ended, rfl⟩
  | cons c letters ih =>
      have fed : (inWord begun).feed c = ([], some (inWord (c :: begun))) := by
        rw [Reading.feed, if_pos (all c List.mem_cons_self)]
      have later := ih (c :: begun) fun d member => all d (List.mem_cons_of_mem c member)
      rw [List.reverse_cons, List.append_assoc, List.singleton_append] at later
      exact lexemesFrom_cons_iff.mpr ⟨[], _, _, fed, later, rfl⟩

theorem spells_word (letters : Scalars) (nonempty : letters ≠ []) (all : ∀ c ∈ letters, isWordChar c = true) :
    Spells letters [.word letters] := by
  intro rest more breaks split
  obtain ⟨c, others, rfl⟩ := List.exists_cons_of_ne_nil nonempty
  have fed : between.feed c = ([], some (inWord [c])) := feedBetween_letter (all c List.mem_cons_self)
  have later := lexemesFrom_inWord [c] (fun d member => all d (List.mem_cons_of_mem c member)) breaks split
  exact lexemesFrom_cons_iff.mpr ⟨[], _, _, fed, later, rfl⟩

end Words

section Quotes

def Stays (text : Scalars) : Prop :=
  ∀ inside rest, lexemesFrom (inText inside) (text ++ rest) = lexemesFrom (inText (text.reverse ++ inside)) rest

variable {text other : Scalars}

theorem stays_nil : Stays [] := fun _ _ => rfl

theorem Stays.append (front : Stays text) (back : Stays other) : Stays (text ++ other) := by
  intro inside rest
  rw [List.append_assoc, front, back, List.reverse_append, List.append_assoc]

theorem stays_plain {c : Char} (quote : c ≠ '"') (backslash : c ≠ '\\') : Stays [c] := by
  intro inside rest
  have fed : (inText inside).feed c = ([], some (inText (c :: inside))) := by
    rw [Reading.feed, Reading.feedText, if_neg quote, if_neg backslash]
  rw [List.singleton_append, lexemesFrom, fed]
  simp

theorem stays_escape (c : Char) : Stays ['\\', c] := by
  intro inside rest
  have first : (inText inside).feed '\\' = ([], some (afterBackslash ('\\' :: inside))) := rfl
  have second : (afterBackslash ('\\' :: inside)).feed c = ([], some (inText (c :: '\\' :: inside))) := rfl
  rw [List.cons_append, List.singleton_append, lexemesFrom, first, Option.bind_some, lexemesFrom, second]
  simp

theorem stays_digits {n : Nat} (small : n < 0x10000) : Stays (Text.hex 4 n) := by
  have digit {d : Nat} (bound : d < 16) : Stays [d.digitChar] :=
    stays_plain (digitChar_plain bound).2.1 (digitChar_plain bound).2.2
  have digits := (((digit (show n / 4096 < 16 by omega)).append (digit (Nat.mod_lt (n / 256) (by decide)))).append
    (digit (Nat.mod_lt (n / 16) (by decide)))).append (digit (Nat.mod_lt n (by decide)))
  rw [Text.hex_four small]
  exact digits

theorem stays_unitEscape {n : Nat} (small : n < 0x10000) : Stays (unitEscape n) :=
  (stays_escape 'u').append (stays_digits small)

theorem stays_unicodeEscape (c : Char) : Stays (unicodeEscape c) := by
  by_cases small : c.toNat < 0x10000
  · rw [unicodeEscape, if_pos small]
    exact stays_unitEscape small
  · rw [unicodeEscape, if_neg small]
    exact (stays_unitEscape (units_lt c).1).append (stays_unitEscape (units_lt c).2)

theorem stays_escapedChar (c : CodePoint) : Stays (escapedChar c) := by
  cases c with
  | half offset => exact stays_unitEscape (half_lt offset)
  | scalar c =>
      rcases escapedScalar_cases c with ⟨letter, written, _⟩ | ⟨written, _, _, quote, backslash⟩ | written
      · rw [written]
        exact stays_escape letter
      · rw [written]
        exact stays_plain quote backslash
      · rw [written]
        exact stays_unicodeEscape c

theorem stays_escaped (text : Text) : Stays (text.flatMap escapedChar) := by
  induction text with
  | nil => exact stays_nil
  | cons c text ih => exact (stays_escapedChar c).append ih

theorem marks_inQuotes {text : Text} (unpaired : text.Unpaired) : Marks (inQuotes text) [.quoted text] := by
  intro rest more split
  have opened : between.feed '"' = ([], some (inText [])) := rfl
  have inside : unescape? ((text.flatMap escapedChar).reverse ++ []).reverse = some text := by
    rw [List.append_nil, List.reverse_reverse, unescape?_escaped unpaired]
  have closed : (inText ((text.flatMap escapedChar).reverse ++ [])).feed '"' =
      ([.quoted text], some between) := by
    rw [Reading.feed, Reading.feedText, if_pos rfl, inside]
  have ended := lexemesFrom_cons_iff.mpr ⟨_, _, _, closed, split, rfl⟩
  rw [← stays_escaped text] at ended
  rw [inQuotes, List.cons_append, List.cons_append, List.append_assoc]
  exact lexemesFrom_cons_iff.mpr ⟨[], _, _, opened, ended, rfl⟩

end Quotes

end CommandLine.Json
