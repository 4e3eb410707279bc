import CommandLine.Text.Digit
import CommandLine.Text.Quoted

namespace CommandLine.Tool

inductive Flag where
  | help
  | version
  | verbose
  | table
  | format
  | inOrder
  | output
  deriving DecidableEq, Repr

namespace Flag

def all : List Flag := [help, version, verbose, table, format, inOrder, output]

def spellings : Flag → List Text
  | help => ["-h".toText, "--help".toText]
  | version => ["--version".toText]
  | verbose => ["-v".toText, "--verbose".toText]
  | table => ["-t".toText, "--table".toText]
  | format => ["-f".toText, "--format".toText]
  | inOrder => ["--in-order".toText]
  | output => ["-o".toText, "--output".toText]

def takesValue : Flag → Bool
  | table | format | output => true
  | _ => false

def label (flag : Flag) : Text := Text.joined "/".toText flag.spellings

def spelled : List (Text × Flag) := all.flatMap fun flag => flag.spellings.map (·, flag)

def ofSpelling? (text : Text) : Option Flag := spelled.lookup text

end Flag

inductive UsageProblem where
  | ambiguous (element : Text) (spellings : List Text)
  | ignoredValue (flag : Flag) (value : Text)
  | missingValue (flag : Flag)
  | unknownFormat (value : Text)
  | tableMissing
  | unrecognized (elements : List Text)
  deriving DecidableEq, Repr

namespace UsageProblem

def about (flag : Flag) : Text := "argument ".toText ++ flag.label ++ ": ".toText

def message : UsageProblem → Text
  | ambiguous element spellings =>
    "ambiguous option: ".toText ++ element ++ " could match ".toText ++
      Text.joined ", ".toText spellings
  | ignoredValue flag value =>
    about flag ++ "ignored explicit argument ".toText ++ Text.quoted value
  | missingValue flag => about flag ++ "expected one argument".toText
  | unknownFormat value =>
    about .format ++ "invalid choice: ".toText ++ Text.quoted value ++
      " (choose from 'text', 'json')".toText
  | tableMissing => "the following arguments are required: ".toText ++ Flag.table.label
  | unrecognized elements => "unrecognized arguments: ".toText ++ Text.joined " ".toText elements

end UsageProblem

inductive Attached where
  | toLong (value : Text)
  | toShort (afterEquals : Bool) (text : Text)
  deriving DecidableEq, Repr

/-- What one element is. The separator makes operands of all that follows it. -/
inductive Word where
  | operand
  | separator
  | flag (flag : Flag) (attached : Option Attached)
  | unknown
  deriving DecidableEq, Repr

namespace Word

def splitAtEquals (text : Text) : Text × Option Text :=
  match text.dropWhile (· ≠ .scalar '=') with
  | [] => (text, none)
  | _ :: value => (text.takeWhile (· ≠ .scalar '='), some value)

def isLong (spelling : Text) : Bool := "--".toText.isPrefixOf spelling

/-- A minus sign and digits, with or without a decimal point; a line feed may end the element. -/
def looksNegative (element : Text) : Bool :=
  let body := element.drop 1
  let body := if body.getLast? = some (.scalar '\n') then body.dropLast else body
  let whole := body.takeWhile Text.isDecimalDigit
  match body.dropWhile Text.isDecimalDigit with
  | [] => whole ≠ []
  | .scalar '.' :: part => part ≠ [] && part.all Text.isDecimalDigit
  | _ => false

/-- The spellings that an element which is no full spelling may stand for, with what each makes of it. -/
def readings (element : Text) : List (Text × Word) :=
  if isLong element then
    let (name, value) := splitAtEquals element
    (Flag.spelled.filter fun entry => name.isPrefixOf entry.1).map fun entry =>
      (entry.1, .flag entry.2 (value.map .toLong))
  else
    (Flag.spelled.filter fun entry => entry.1 = element.take 2).map fun entry =>
      (entry.1, .flag entry.2 (some (.toShort false (element.drop 2))))

def ofUnspelled (element : Text) : Except UsageProblem Word :=
  match readings element with
  | [] => .ok (if looksNegative element || ' ' ∈ element then operand else unknown)
  | [(_, word)] => .ok word
  | several => .error (.ambiguous element (several.map Prod.fst))

def ofSplit (element : Text) : Except UsageProblem Word :=
  match splitAtEquals element with
  | (_, none) => ofUnspelled element
  | (name, some value) =>
    match Flag.ofSpelling? name with
    | some found => .ok (.flag found (some (if isLong name then .toLong value else .toShort true value)))
    | none => ofUnspelled element

def ofElement (element : Text) : Except UsageProblem Word :=
  if element.head? ≠ some (.scalar '-') then .ok operand
  else
    match Flag.ofSpelling? element with
    | some found => .ok (.flag found none)
    | none => if element.length = 1 then .ok operand else ofSplit element

def ofElements : List Text → Except UsageProblem (List (Text × Word))
  | [] => .ok []
  | element :: rest =>
    if element = "--".toText then .ok ((element, separator) :: rest.map (·, operand))
    else do
      let word ← ofElement element
      return (element, word) :: (← ofElements rest)

end Word

end CommandLine.Tool
