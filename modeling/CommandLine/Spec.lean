import CommandLine.Descriptor
import CommandLine.Json.Shown

namespace CommandLine

inductive SpecError where
  | codeNeitherNumberNorText (code : Json)
  | codeNotOneCharacter (code : Text)
  | nameNotText (name : Json)
  | arityNotChosen (value : Json)
  | unknownArity (word : Text)
  | notADescriptor (value : Json)
  | tableNotAList
  | entryNotAnObject (position : Nat)
  | entryWithoutCode (position : Nat)
  | entryArityNotText (position : Nat)

namespace SpecError

def entryText (position : Nat) : Text := "table entry ".toText ++ Text.ofNat position

def message : SpecError → Text
  | codeNeitherNumberNorText code => "option code must be int or str, got ".toText ++ code.shown
  | codeNotOneCharacter code =>
    "string option codes must be a single character, got ".toText ++ Text.quoted code
  | nameNotText name => "option name must be a string, got ".toText ++ name.shown
  | arityNotChosen value => "has_arg must be a HasArg, got ".toText ++ value.shown
  | unknownArity word =>
    "has_arg must be one of ".toText ++
      Json.bracketed '[' ']' (Arity.all.map fun arity => Text.quoted arity.word) ++
      ", got ".toText ++ Text.quoted word
  | notADescriptor value => "expected an Option, got ".toText ++ value.shown
  | tableNotAList => "option table must be a JSON list".toText
  | entryNotAnObject position => entryText position ++ " is not an object".toText
  | entryWithoutCode position => entryText position ++ " has no code".toText
  | entryArityNotText position => entryText position ++ ": has_arg must be a string".toText

end SpecError

def Code.ofJson : Json → Except SpecError Code
  | .int value => .ok (.number value)
  | .text [c] => .ok (.char c)
  | .text text => .error (.codeNotOneCharacter text)
  | other => .error (.codeNeitherNumberNorText other)

def Descriptor.nameOfJson : Json → Except SpecError (Option Text)
  | .null => .ok none
  | .text name => .ok (some name)
  | other => .error (.nameNotText other)

def Arity.ofWord (word : Text) : Except SpecError Arity :=
  match ofWord? word with
  | some arity => .ok arity
  | none => .error (.unknownArity word)

inductive GivenArity where
  | chosen (arity : Arity)
  | other (value : Json)

def GivenArity.check : GivenArity → Except SpecError Arity
  | chosen arity => .ok arity
  | other value => .error (.arityNotChosen value)

structure Spec where
  code : Json
  name : Json := .null
  arity : GivenArity := .chosen .never

/-- The code is checked first, then the name, then the arity. -/
def Spec.check (spec : Spec) : Except SpecError Descriptor := do
  let code ← Code.ofJson spec.code
  let name ← Descriptor.nameOfJson spec.name
  let arity ← spec.arity.check
  return ⟨code, name, arity⟩

inductive Entry where
  | descriptor (value : Descriptor)
  | spec (value : Spec)
  | other (value : Json)

namespace Entry

def check : Entry → Except SpecError Descriptor
  | descriptor value => .ok value
  | spec value => value.check
  | other value => .error (.notADescriptor value)

/-- Checks a description at once; a value that is no descriptor stays to be judged when the table is built. -/
def settle : Entry → Except SpecError Entry
  | spec value => descriptor <$> value.check
  | entry => .ok entry

end Entry

end CommandLine
