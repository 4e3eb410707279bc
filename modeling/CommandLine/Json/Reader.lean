import CommandLine.Json.Lexeme
import CommandLine.Json.Limit
import CommandLine.Decimal.Shortest

/-!
Reading a JSON text. The lexemes drive a machine whose stack holds the collections that are still open. A text
is refused at its first fault: where it is malformed, or where it passes a bound on the digits of an integer
or on the number of collections inside each other.
-/
namespace CommandLine.Json

/-- How many digits an integer may have, and how many collections may be open at once; none is no bound. -/
structure Bounds where
  digits : Option Nat
  collections : Option Nat
  deriving DecidableEq, Repr

namespace Bounds

def standard (nesting : Nat) : Bounds := ⟨some Limit.maxDigits, some nesting⟩

def unlimited : Bounds := ⟨none, none⟩

def allowsDigits (bounds : Bounds) (count : Nat) : Bool := bounds.digits.all (count ≤ ·)

def allowsOpen (bounds : Bounds) (count : Nat) : Bool := bounds.collections.all (count ≤ ·)

end Bounds

inductive Fault where
  | malformed
  | beyond (limit : Limit)
  deriving DecidableEq, Repr

structure Numeral where
  negative : Bool
  whole : Scalars
  fraction : Option Scalars
  exponent : Option Int
  deriving DecidableEq, Repr

namespace Numeral

def digitsValue (digits : Scalars) : Nat := Nat.ofDigitChars 10 digits 0

def signed (negative : Bool) (size : Nat) : Int := if negative then -size else size

def takeFraction : Scalars → Option Scalars × Scalars
  | '.' :: rest =>
    match rest.takeWhile Char.isDigit with
    | [] => (none, '.' :: rest)
    | digits => (some digits, rest.dropWhile Char.isDigit)
  | letters => (none, letters)

def takeExponentDigits (negative : Bool) (letters rest : Scalars) : Option Int × Scalars :=
  match rest.takeWhile Char.isDigit with
  | [] => (none, letters)
  | digits => (some (signed negative (digitsValue digits)), rest.dropWhile Char.isDigit)

def takeExponent (letters : Scalars) : Option Int × Scalars :=
  match letters with
  | mark :: rest =>
    if mark = 'e' ∨ mark = 'E' then
      match rest with
      | '+' :: digits => takeExponentDigits false letters digits
      | '-' :: digits => takeExponentDigits true letters digits
      | digits => takeExponentDigits false letters digits
    else (none, letters)
  | [] => (none, [])

/-- No digit belongs to a number whose first digit is zero. -/
def takeWhole : Scalars → Scalars × Scalars
  | '0' :: rest => (['0'], rest)
  | letters => (letters.takeWhile Char.isDigit, letters.dropWhile Char.isDigit)

def takeSign : Scalars → Bool × Scalars
  | '-' :: rest => (true, rest)
  | letters => (false, letters)

def take? (letters : Scalars) : Option (Numeral × Scalars) :=
  let (negative, rest) := takeSign letters
  match takeWhole rest with
  | ([], _) => none
  | (whole, rest) =>
    let (fraction, rest) := takeFraction rest
    let (exponent, rest) := takeExponent rest
    some (⟨negative, whole, fraction, exponent⟩, rest)

/-- A number with a fraction or an exponent is a real, any other an integer. -/
def value (bounds : Bounds) (n : Numeral) : Except Fault Json :=
  match n.fraction, n.exponent with
  | none, none =>
    if bounds.allowsDigits n.whole.length then .ok (.int (signed n.negative (digitsValue n.whole)))
    else .error (.beyond (.integerDigits n.whole.length))
  | fraction, exponent =>
    let places := fraction.getD []
    let size := Decimal.toFloat (digitsValue (n.whole ++ places)) (exponent.getD 0 - places.length)
    .ok (.real (if n.negative then -size else size))

end Numeral

/-- A number is judged before the letters that follow it are. -/
def numberValue (bounds : Bounds) (letters : Scalars) : Except Fault Json :=
  match Numeral.take? letters with
  | none => .error .malformed
  | some (numeral, rest) =>
    match numeral.value bounds with
    | .ok value => if rest = [] then .ok value else .error .malformed
    | .error fault => .error fault

def wordValue (bounds : Bounds) (letters : Scalars) : Except Fault Json :=
  if letters = "null".toList then .ok .null
  else if letters = "true".toList then .ok (.bool true)
  else if letters = "false".toList then .ok (.bool false)
  else if letters = "NaN".toList then .ok (.real (0.0 / 0.0))
  else if letters = "Infinity".toList then .ok (.real (1.0 / 0.0))
  else if letters = "-Infinity".toList then .ok (.real (-1.0 / 0.0))
  else numberValue bounds letters

/-- A collection that is still open, with what it holds so far; the items of an array are held backwards. -/
inductive Frame where
  | array (items : List Json)
  | object (fields : List (Text × Json)) (key : Text)

inductive Expecting where
  | value
  | valueOrClose
  | key (fields : List (Text × Json))
  | keyOrClose
  | colon (fields : List (Text × Json)) (key : Text)
  | afterValue (value : Json)

structure Building where
  frames : List Frame
  expecting : Expecting

namespace Building

def start : Building := ⟨[], .value⟩

def enter (bounds : Bounds) (frames : List Frame) (collection : Collection) (expecting : Expecting) :
    Except Fault Building :=
  if bounds.allowsOpen (frames.length + 1) then .ok ⟨frames, expecting⟩
  else .error (.beyond (.openCollections collection))

def beginValue (bounds : Bounds) (frames : List Frame) : Lexeme → Except Fault Building
  | .openArray => enter bounds frames .array .valueOrClose
  | .openObject => enter bounds frames .object .keyOrClose
  | .quoted value => .ok ⟨frames, .afterValue (.text value)⟩
  | .word letters =>
    match wordValue bounds letters with
    | .ok value => .ok ⟨frames, .afterValue value⟩
    | .error fault => .error fault
  | _ => .error .malformed

def endValue (value : Json) : List Frame → Lexeme → Except Fault Building
  | .array items :: frames, .comma => .ok ⟨.array (value :: items) :: frames, .value⟩
  | .array items :: frames, .closeArray =>
    .ok ⟨frames, .afterValue (.array (value :: items).reverse)⟩
  | .object fields key :: frames, .comma => .ok ⟨frames, .key (put key value fields)⟩
  | .object fields key :: frames, .closeObject =>
    .ok ⟨frames, .afterValue (.object (put key value fields))⟩
  | _, _ => .error .malformed

def step (bounds : Bounds) (state : Building) (lexeme : Lexeme) : Except Fault Building :=
  match state.expecting, lexeme with
  | .value, lexeme => beginValue bounds state.frames lexeme
  | .valueOrClose, .closeArray => .ok ⟨state.frames, .afterValue (.array [])⟩
  | .valueOrClose, lexeme => beginValue bounds (.array [] :: state.frames) lexeme
  | .keyOrClose, .closeObject => .ok ⟨state.frames, .afterValue (.object [])⟩
  | .keyOrClose, .quoted key => .ok ⟨state.frames, .colon [] key⟩
  | .key fields, .quoted key => .ok ⟨state.frames, .colon fields key⟩
  | .colon fields key, .colon => .ok ⟨.object fields key :: state.frames, .value⟩
  | .afterValue value, lexeme => endValue value state.frames lexeme
  | _, _ => .error .malformed

def steps (bounds : Bounds) (state : Building) : List Lexeme → Except Fault Building
  | [] => .ok state
  | lexeme :: rest =>
    match state.step bounds lexeme with
    | .ok next => steps bounds next rest
    | .error fault => .error fault

def result : Building → Except Fault Json
  | ⟨[], .afterValue value⟩ => .ok value
  | _ => .error .malformed

end Building

structure Progress where
  reading : Reading
  building : Building

namespace Progress

def start : Progress := ⟨.between, .start⟩

def take (bounds : Bounds) (building : Building) (fed : Reading.Fed) : Except Fault Progress :=
  match building.steps bounds fed.1, fed.2 with
  | .ok next, some reading => .ok ⟨reading, next⟩
  | .ok _, none => .error .malformed
  | .error fault, _ => .error fault

def readFrom (bounds : Bounds) (progress : Progress) : Scalars → Except Fault Json
  | [] =>
    match take bounds progress.building progress.reading.finish with
    | .ok finished => finished.building.result
    | .error fault => .error fault
  | c :: rest =>
    match take bounds progress.building (progress.reading.feed c) with
    | .ok next => readFrom bounds next rest
    | .error fault => .error fault

end Progress

def readWithin (bounds : Bounds) (text : Scalars) : Except Fault Json := Progress.start.readFrom bounds text

def read (nesting : Nat) (text : Scalars) : Except Fault Json := readWithin (.standard nesting) text

end CommandLine.Json
