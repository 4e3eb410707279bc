import CommandLine.Token.Grammar

/-!
The shape of one element of a command line: the terminator, a long option with or without an attached value,
a cluster of short options, or an operand. Every text has exactly one shape.
-/
namespace CommandLine

structure LongToken where
  text : Text
  name : Text
  value : Option Text
  deriving DecidableEq, Repr

structure ShortToken where
  text : Text
  cluster : Text
  deriving DecidableEq, Repr

inductive Token where
  | terminator (text : Text)
  | long (option : LongToken)
  | short (option : ShortToken)
  | operand (text : Text)
  deriving DecidableEq, Repr

namespace Token

def text : Token → Text
  | terminator text => text
  | long option => option.text
  | short option => option.text
  | operand text => text

def isOption : Token → Bool
  | long _ => true
  | short _ => true
  | _ => false

/-- Any token read as a long option; one of another shape has the empty name and no value. -/
def asLong : Token → LongToken
  | long option => option
  | token => ⟨token.text, [], none⟩

def asShort : Token → ShortToken
  | short option => option
  | token => ⟨token.text, []⟩

def textOf (rule : Rule) (captures : List Capture) : Option Text :=
  (captures.find? (·.rule = rule)).map Capture.text

def ofCaptures (text : Text) (captures : List Capture) : Token :=
  match textOf .terminator captures, textOf .longName captures, textOf .shortCluster captures with
  | some _, _, _ => terminator text
  | _, some name, _ => long ⟨text, name, (textOf .assignment captures).map (·.drop 1)⟩
  | _, _, some cluster => short ⟨text, cluster.drop 1⟩
  | _, _, _ => operand text

end Token

def classify (text : Text) : Token :=
  match Token.Rule.token.pattern.apply text with
  | some found => Token.ofCaptures text found.captures
  | none => .operand text

end CommandLine
