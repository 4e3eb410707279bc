import CommandLine.Text.Printable

/-!
Text between quotes, for messages. Single quotes are used unless they occur and double quotes do not; the
quote in use and the backslash are escaped by a backslash, and what cannot be seen is written by its code.
-/
namespace CommandLine.Text

def quoteMark (text : Text) : CodePoint :=
  if .scalar '\'' ∈ text ∧ .scalar '"' ∉ text then '"' else '\''

def escapedCode (code : Nat) : Scalars :=
  if code < 0x100 then '\\' :: 'x' :: hex 2 code
  else if code < 0x10000 then '\\' :: 'u' :: hex 4 code
  else '\\' :: 'U' :: hex 8 code

def quotedChar (mark c : CodePoint) : Text :=
  if c = mark ∨ c = '\\' then ['\\', c]
  else if c = '\n' then ['\\', 'n']
  else if c = '\r' then ['\\', 'r']
  else if c = '\t' then ['\\', 't']
  else if isPrintable c then [c]
  else ofScalars (escapedCode c.number)

def quoted (text : Text) : Text :=
  quoteMark text :: text.flatMap (quotedChar (quoteMark text)) ++ [quoteMark text]

end CommandLine.Text
