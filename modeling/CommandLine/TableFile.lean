import CommandLine.Json.Reader
import CommandLine.Table
import CommandLine.Text.Utf8

/-!
Option tables in files: UTF-8 text that holds a JSON list with an object for each option. A name that is blank
in any way is no name; an arity that is left out is that of an option without argument.
-/
namespace CommandLine

inductive TableFileError where
  | notUtf8
  | notJson
  | beyond (limit : Json.Limit)
  | invalid (cause : SpecError)

namespace TableFile

def givenArity (position : Nat) (fields : List (Text × Json)) : Except SpecError Arity :=
  match Json.get? "has_arg".toText fields with
  | none => .ok .never
  | some (.text word) => Arity.ofWord word
  | some _ => .error (.entryArityNotText position)

def givenName (fields : List (Text × Json)) : Json :=
  match Json.get? "name".toText fields with
  | none => .null
  | some name => if name.isBlank then .null else name

/-- The presence of a code is checked first, then the arity, then the code and the name. -/
def readEntry (entry : Json × Nat) : Except SpecError Descriptor :=
  match entry.1 with
  | .object fields =>
    match Json.get? "code".toText fields with
    | none => .error (.entryWithoutCode entry.2)
    | some code => do
      let arity ← givenArity entry.2 fields
      Spec.check ⟨code, givenName fields, .chosen arity⟩
  | _ => .error (.entryNotAnObject entry.2)

def ofJson : Json → Except SpecError Table
  | .array items => Table.build readEntry items.zipIdx
  | _ => .error .tableNotAList

def ofText (nesting : Nat) (text : Scalars) : Except TableFileError Table :=
  match Json.read nesting text with
  | .error .malformed => .error .notJson
  | .error (.beyond limit) => .error (.beyond limit)
  | .ok value => (ofJson value).mapError .invalid

def ofOctets (nesting : Nat) (octets : Octets) : Except TableFileError Table :=
  match Scalars.ofUtf8? octets with
  | none => .error .notUtf8
  | some text => ofText nesting text

end TableFile

end CommandLine
