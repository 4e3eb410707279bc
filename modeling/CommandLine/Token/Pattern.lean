import CommandLine.Text

/-!
Parsing expressions over text: literals, greedy runs, sequence, ordered choice and a look-ahead that consumes
nothing. A match takes a front part of the text and notes what each named part of the expression took.
-/
namespace CommandLine.Token

inductive Rule where
  | token
  | terminator
  | longOption
  | longName
  | longValue
  | assignment
  | nothing
  | shortCluster
  | operand
  | finish
  deriving DecidableEq, Repr

inductive CharClass where
  | any
  | except (c : CodePoint)
  deriving DecidableEq, Repr

def CharClass.admits : CharClass → CodePoint → Bool
  | any, _ => true
  | .except excluded, c => c ≠ excluded

inductive Pattern where
  | literal (text : Text)
  | run (admitted : CharClass) (atLeast : Nat)
  | followedBy (first second : Pattern)
  | orElse (first second : Pattern)
  | notAhead (body : Pattern)
  | named (rule : Rule) (body : Pattern)
  deriving DecidableEq, Repr

/-- A named part of the expression and the text that it took, outer parts before inner ones. -/
structure Capture where
  rule : Rule
  text : Text
  deriving DecidableEq, Repr

structure Match where
  taken : Text
  rest : Text
  captures : List Capture
  deriving DecidableEq, Repr

namespace Pattern

def apply : Pattern → Text → Option Match
  | literal expected, text =>
    if expected.isPrefixOf text then some ⟨expected, text.drop expected.length, []⟩ else none
  | run admitted atLeast, text =>
    let taken := text.takeWhile admitted.admits
    if atLeast ≤ taken.length then some ⟨taken, text.dropWhile admitted.admits, []⟩ else none
  | followedBy first second, text => do
    let front ← first.apply text
    let back ← second.apply front.rest
    return ⟨front.taken ++ back.taken, back.rest, front.captures ++ back.captures⟩
  | orElse first second, text => (first.apply text).orElse fun _ => second.apply text
  | notAhead body, text => if (body.apply text).isSome then none else some ⟨[], text, []⟩
  | named rule body, text => do
    let found ← body.apply text
    return { found with captures := ⟨rule, found.taken⟩ :: found.captures }

end Pattern

end CommandLine.Token
