import CommandLine.Text

/-!
The lexemes of a JSON text: brackets, the colon and comma, quoted texts, and words (numbers and names).
A text is read one character at a time; blanks are the space, tab, line feed and carriage return.
-/
namespace CommandLine.Json

inductive Lexeme where
  | openArray
  | closeArray
  | openObject
  | closeObject
  | colon
  | comma
  | quoted (value : Text)
  | word (letters : Scalars)
  deriving DecidableEq, Repr

def hexDigit? (c : Char) : Option Nat :=
  if '0' ≤ c ∧ c ≤ '9' then some (c.toNat - 48)
  else if 'a' ≤ c ∧ c ≤ 'f' then some (c.toNat - 87)
  else if 'A' ≤ c ∧ c ≤ 'F' then some (c.toNat - 55)
  else none

def hexUnit? (a b c d : Char) : Option Nat := do
  return (((← hexDigit? a) * 16 + (← hexDigit? b)) * 16 + (← hexDigit? c)) * 16 + (← hexDigit? d)

def simpleEscape? : Char → Option Char
  | '"' => some '"'
  | '\\' => some '\\'
  | '/' => some '/'
  | 'b' => some '\x08'
  | 'f' => some '\x0c'
  | 'n' => some '\n'
  | 'r' => some '\r'
  | 't' => some '\t'
  | _ => none

inductive Piece where
  | plain (c : Char)
  | unit (code : Nat)
  deriving DecidableEq, Repr

def pieces? : Scalars → Option (List Piece)
  | [] => some []
  | '\\' :: 'u' :: a :: b :: c :: d :: rest => do
    let code ← hexUnit? a b c d
    let pieces ← pieces? rest
    return .unit code :: pieces
  | '\\' :: c :: rest => do
    let escaped ← simpleEscape? c
    let pieces ← pieces? rest
    return .plain escaped :: pieces
  | '\\' :: [] => none
  | c :: rest => if c.toNat < 0x20 then none else (.plain c :: ·) <$> pieces? rest

def isHighUnit (code : Nat) : Bool := 0xd800 ≤ code && code < 0xdc00

def isLowUnit (code : Nat) : Bool := 0xdc00 ≤ code && code < 0xe000

def codePoint (code : Nat) : CodePoint :=
  if within : 0xd800 ≤ code ∧ code < 0xe000 then .half ⟨code - 0xd800, by omega⟩ else .scalar (Char.ofNat code)

/-- A high and a low unit make one character when both are escapes; a unit left alone stays a half. -/
def joinUnits : List Piece → Text
  | [] => []
  | .plain c :: rest => .scalar c :: joinUnits rest
  | .unit code :: .unit next :: rest =>
    if isHighUnit code && isLowUnit next then
      .scalar (Char.ofNat (0x10000 + (code - 0xd800) * 0x400 + (next - 0xdc00))) :: joinUnits rest
    else codePoint code :: joinUnits (.unit next :: rest)
  | .unit code :: rest => codePoint code :: joinUnits rest

def unescape? (inside : Scalars) : Option Text := joinUnits <$> pieces? inside

/-- The lexeme that is being read. Letters and insides are held backwards. -/
inductive Reading where
  | between
  | inWord (letters : Scalars)
  | inText (inside : Scalars)
  | afterBackslash (inside : Scalars)

namespace Reading

def isWordChar (c : Char) : Bool := c.isAlphanum || c = '+' || c = '-' || c = '.'

def isBlankChar (c : Char) : Bool := c = ' ' || c = '\t' || c = '\n' || c = '\r'

def punctuation? (c : Char) : Option Lexeme :=
  if c = '[' then some .openArray
  else if c = ']' then some .closeArray
  else if c = '\x7b' then some .openObject
  else if c = '\x7d' then some .closeObject
  else if c = ':' then some .colon
  else if c = ',' then some .comma
  else none

abbrev Fed := List Lexeme × Option Reading

def feedBetween (c : Char) : Fed :=
  if isBlankChar c then ([], some between)
  else if c = '"' then ([], some (inText []))
  else if isWordChar c then ([], some (inWord [c]))
  else
    match punctuation? c with
    | some lexeme => ([lexeme], some between)
    | none => ([], none)

def feedText (inside : Scalars) (c : Char) : Fed :=
  if c = '"' then
    match unescape? inside.reverse with
    | some value => ([.quoted value], some between)
    | none => ([], none)
  else if c = '\\' then ([], some (afterBackslash (c :: inside)))
  else ([], some (inText (c :: inside)))

def feed : Reading → Char → Fed
  | between, c => feedBetween c
  | inWord letters, c =>
    if isWordChar c then ([], some (inWord (c :: letters)))
    else (.word letters.reverse :: (feedBetween c).1, (feedBetween c).2)
  | inText inside, c => feedText inside c
  | afterBackslash inside, c => ([], some (inText (c :: inside)))

def finish : Reading → Fed
  | between => ([], some between)
  | inWord letters => ([.word letters.reverse], some between)
  | _ => ([], none)

end Reading

end CommandLine.Json
