import CommandLine.Text.Quoted

namespace CommandLine

/-- The character `a` and the number 97 are different codes. -/
inductive Code where
  | number (value : Int)
  | char (value : CodePoint)
  deriving DecidableEq, Repr

/-- Whether an option takes an argument. An optional argument is only ever attached. -/
inductive Arity where
  | never
  | required
  | optional
  deriving DecidableEq, Repr

namespace Arity

def all : List Arity := [never, required, optional]

def word : Arity → Text
  | never => "no".toText
  | required => "yes".toText
  | optional => "maybe".toText

def label : Arity → Text
  | never => "NO".toText
  | required => "YES".toText
  | optional => "MAYBE".toText

/-- Letter case does not matter; the words are ASCII, and no other letter has one of theirs as its lower case. -/
def ofWord? (text : Text) : Option Arity :=
  all.find? fun arity => arity.word = text.map CodePoint.toLower

def shown (arity : Arity) : Text :=
  "<HasArg.".toText ++ arity.label ++ ": ".toText ++ Text.quoted arity.word ++ ">".toText

end Arity

structure Descriptor where
  code : Code
  name : Option Text := none
  arity : Arity := .never
  deriving DecidableEq, Repr

def Code.shown : Code → Text
  | number value => Text.ofInt value
  | char value => Text.quoted [value]

namespace Descriptor

def isSentinel (d : Descriptor) : Bool := d.code = .number 0

def short? (d : Descriptor) : Option CodePoint :=
  match d.code with
  | .char c => some c
  | .number n => if 0 < n ∧ n < 256 then some (.scalar (.ofNat n.toNat)) else none

def takesArgument (d : Descriptor) : Bool := d.arity ≠ .never

def longName (d : Descriptor) : Text := d.name.getD []

def shownName : Option Text → Text
  | none => "None".toText
  | some name => Text.quoted name

def shown (d : Descriptor) : Text :=
  "Option(code=".toText ++ d.code.shown ++ ", name=".toText ++ shownName d.name ++
    ", has_arg=".toText ++ d.arity.shown ++ ")".toText

def operand : Descriptor := ⟨.number 0, none, .never⟩

end Descriptor

end CommandLine
