import CommandLine.Resolution

/-!
One pass over a command line. The pass notes what it met and where; the records in either order, the diagnostic
and the log are all read off these notes.
-/
namespace CommandLine

inductive Step where
  | operand (text : Text)
  | option (token : Text) (records : List Record)
  deriving DecidableEq, Repr

structure Note where
  index : Nat
  step : Step
  deriving DecidableEq, Repr

/-- How the pass ended: with the last element, at a terminator before further operands, or at a problem. -/
inductive Ending where
  | exhausted
  | terminated (index : Nat) (tail : List Text)
  | failed (index : Nat) (token : Text) (problem : Problem)
  deriving DecidableEq, Repr

structure Scan where
  notes : List Note
  ending : Ending
  deriving DecidableEq, Repr

namespace Scan

def cons (note : Note) (scan : Scan) : Scan := { scan with notes := note :: scan.notes }

end Scan

namespace Table

def resolve (table : Table) (token : Token) (next : Option Text) : Except Problem Resolution :=
  match token with
  | .long option => table.resolveLong option next
  | .short option => table.resolveShort option next
  | _ => .ok ⟨[], false⟩

/-- Reads the elements from place `index` on. The first is passed over if the token before it took it. -/
def scan (table : Table) (taken : Bool) (index : Nat) : List Text → Scan
  | [] => ⟨[], .exhausted⟩
  | element :: rest =>
    if taken then scan table false (index + 1) rest
    else
      match classify element with
      | .terminator _ => ⟨[], .terminated index rest⟩
      | .operand text => (scan table false (index + 1) rest).cons ⟨index, .operand text⟩
      | token =>
        match table.resolve token rest.head? with
        | .error problem => ⟨[], .failed index token.text problem⟩
        | .ok resolution =>
          (scan table resolution.usesNext (index + 1) rest).cons
            ⟨index, .option token.text resolution.records⟩

end Table

namespace Step

def optionRecords : Step → List Record
  | operand _ => []
  | option _ records => records

def operandRecords : Step → List Record
  | operand text => [.operand text]
  | option _ _ => []

def records : Step → List Record
  | operand text => [.operand text]
  | option _ records => records

end Step

namespace Scan

def tail (scan : Scan) : List Record :=
  match scan.ending with
  | .terminated _ rest => rest.map .operand
  | _ => []

def inOrder (scan : Scan) : List Record := scan.notes.flatMap (·.step.records) ++ scan.tail

def optionsFirst (scan : Scan) : List Record :=
  scan.notes.flatMap (·.step.optionRecords) ++ scan.notes.flatMap (·.step.operandRecords) ++ scan.tail

def diagnostic? (scan : Scan) : Option Diagnostic :=
  match scan.ending with
  | .failed index token problem => some (.ofProblem problem token index)
  | _ => none

/-- A pass that met a problem gives its diagnostic and no records. -/
def outcome (scan : Scan) (reorder : Bool) : Except Diagnostic (List Record) :=
  match scan.diagnostic? with
  | some diagnostic => .error diagnostic
  | none => .ok (if reorder then scan.optionsFirst else scan.inOrder)

end Scan

/-- The elements that are read: those after the program name and before place `argc`, if one is given. -/
def admitted (argv : List Text) (argc : Option Int) : List Text :=
  match argc with
  | none => argv.drop 1
  | some bound => (argv.take bound.toNat).drop 1

namespace Table

def scanArguments (table : Table) (argv : List Text) (argc : Option Int) : Scan :=
  table.scan false 1 (admitted argv argc)

def decode (table : Table) (argv : List Text) (reorder : Bool) (argc : Option Int) :
    Except Diagnostic (List Record) :=
  (table.scanArguments argv argc).outcome reorder

end Table

end CommandLine
