import CommandLine.Token.Pattern

namespace CommandLine.Token

open Pattern

namespace Rule

def anything (atLeast : Nat) : Pattern := run .any atLeast

def finishBody : Pattern := notAhead (run .any 1)

def terminatorBody : Pattern := followedBy (literal ['-', '-']) (named .finish finishBody)

def longNameBody : Pattern := run (.except '=') 0

def assignmentBody : Pattern := followedBy (literal ['=']) (anything 0)

def nothingBody : Pattern := literal []

def longValueBody : Pattern := orElse (named .assignment assignmentBody) (named .nothing nothingBody)

def longOptionBody : Pattern :=
  followedBy (literal ['-', '-'])
    (followedBy (named .longName longNameBody) (named .longValue longValueBody))

def shortClusterBody : Pattern := followedBy (literal ['-']) (anything 1)

def operandBody : Pattern := anything 0

def tokenBody : Pattern :=
  orElse (named .terminator terminatorBody)
    (orElse (named .longOption longOptionBody)
      (orElse (named .shortCluster shortClusterBody) (named .operand operandBody)))

def body : Rule → Pattern
  | .token => tokenBody
  | .terminator => terminatorBody
  | .longOption => longOptionBody
  | .longName => longNameBody
  | .longValue => longValueBody
  | .assignment => assignmentBody
  | .nothing => nothingBody
  | .shortCluster => shortClusterBody
  | .operand => operandBody
  | .finish => finishBody

def pattern (rule : Rule) : Pattern := named rule rule.body

end Rule

inductive Reach where
  | upTo (size : Nat)
  | noMatch
  | incomplete
  deriving DecidableEq, Repr

def Rule.matchFront (rule : Rule) (text : Text) : Reach :=
  match rule.pattern.apply text with
  | some found => .upTo found.taken.length
  | none => .noMatch

/-- A match that leaves a rest is incomplete. -/
def Rule.matchWhole (rule : Rule) (text : Text) : Reach :=
  match rule.pattern.apply text with
  | some found => if found.rest = [] then .upTo found.taken.length else .incomplete
  | none => .noMatch

end CommandLine.Token
