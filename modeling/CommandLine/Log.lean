import CommandLine.Scan

/-!
The log of a pass: a message for each option token, for the terminator and for the problem that ended it, each
with the place of the element that it is about. Operands and arguments are not logged.
-/
namespace CommandLine

def placed (index : Nat) (message : Text) : Text :=
  "argv[".toText ++ Text.ofNat index ++ "]: ".toText ++ message

def formList (records : List Record) : Text :=
  Json.bracketed '[' ']' (records.map fun record => Text.quoted record.form)

namespace Scan

def noteMessages (note : Note) : List Text :=
  match note.step with
  | .operand _ => []
  | .option token records => [placed note.index (token ++ " -> ".toText ++ formList records)]

def endingMessages : Ending → List Text
  | .exhausted => []
  | .terminated index _ => [placed index "end of options".toText]
  | .failed index _ problem => [placed index problem.message]

def log (scan : Scan) : List Text := scan.notes.flatMap noteMessages ++ endingMessages scan.ending

end Scan

end CommandLine
