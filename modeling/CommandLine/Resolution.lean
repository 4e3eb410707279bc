import CommandLine.Diagnostic
import CommandLine.Table
import CommandLine.Token

/-!
What one option token means in a table. A long name may be shortened to any unambiguous front part, and a full
name always wins. A cluster is read from left to right; its last option may take an argument. The element after
the token is read only by an option that requires an argument and has none attached.
-/
namespace CommandLine

structure LongMatch where
  option : Option Descriptor
  exact : Bool
  ambiguous : Bool
  deriving DecidableEq, Repr

/-- Two descriptors that an abbreviation may stand for without being ambiguous. -/
def Descriptor.agrees (a b : Descriptor) : Bool := a.code = b.code && a.arity = b.arity

namespace LongMatch

def weigh (found : LongMatch) (d : Descriptor) : LongMatch :=
  match found.option with
  | none => { found with option := some d }
  | some first => { found with ambiguous := found.ambiguous || !first.agrees d }

/-- One pass over the candidates for a name. A full name ends it, whatever was met before. -/
def search (name : Text) (found : LongMatch) : List Descriptor → LongMatch
  | [] => found
  | d :: rest =>
    if d.longName.length = name.length then ⟨some d, true, false⟩ else search name (found.weigh d) rest

end LongMatch

namespace Table

def candidates (table : Table) (name : Text) : List Descriptor :=
  table.named.filter fun d => name.isPrefixOf d.longName

def matchLong (table : Table) (name : Text) : LongMatch :=
  LongMatch.search name ⟨none, false, false⟩ (table.candidates name)

end Table

structure Resolution where
  records : List Record
  usesNext : Bool := false
  deriving DecidableEq, Repr

namespace Resolution

def consumed (r : Resolution) : Nat := if r.usesNext then 2 else 1

def cons (record : Record) (r : Resolution) : Resolution := { r with records := record :: r.records }

end Resolution

/-- What a token comes to: its records and the number of elements that they took, or what is wrong with it. -/
structure Verdict where
  records : List Record
  consumed : Nat
  diagnostic : Option Diagnostic
  deriving DecidableEq, Repr

/-- A token that cannot be read takes nothing. Its place is not known before the whole command line is read. -/
def Verdict.ofResult (token : Text) : Except Problem Resolution → Verdict
  | .ok resolution => ⟨resolution.records, resolution.consumed, none⟩
  | .error problem => ⟨[], 0, some (.ofProblem problem token (-1))⟩

/-- The next element as an argument: an empty one does not count. -/
def argument? (next : Option Text) : Option Text := next.filter fun text => text ≠ []

namespace Table

def resolveMatched (d : Descriptor) (value next : Option Text) : Except Problem Resolution :=
  match value, d.arity with
  | some _, .never => .error (.longAllowsNoArgument d)
  | some [], .required => .error (.longNeedsArgument d)
  | some text, _ => .ok ⟨[.long d text], false⟩
  | none, .required =>
    match argument? next with
    | some text => .ok ⟨[.long d text], true⟩
    | none => .error (.longNeedsArgument d)
  | none, _ => .ok ⟨[.long d []], false⟩

def resolveLong (table : Table) (token : LongToken) (next : Option Text) : Except Problem Resolution :=
  match table.matchLong token.name with
  | ⟨_, false, true⟩ => .error (.ambiguous token.text)
  | ⟨none, _, _⟩ => .error (.unrecognized token.text)
  | ⟨some d, _, _⟩ => resolveMatched d token.value next

def resolveCluster (table : Table) (next : Option Text) : Text → Except Problem Resolution
  | [] => .ok ⟨[], false⟩
  | c :: rest =>
    match table.findShort c with
    | none => .error (.invalidShort c)
    | some d =>
      if d.takesArgument ∧ rest ≠ [] then .ok ⟨[.short d c rest], false⟩
      else if d.arity = .required then
        match argument? next with
        | some text => .ok ⟨[.short d c text], true⟩
        | none => .error (.shortNeedsArgument c)
      else (resolveCluster table next rest).map (Resolution.cons (.short d c []))

def resolveShort (table : Table) (token : ShortToken) (next : Option Text) : Except Problem Resolution :=
  resolveCluster table next token.cluster

def longVerdict (table : Table) (token : LongToken) (next : Option Text) : Verdict :=
  .ofResult token.text (table.resolveLong token next)

def shortVerdict (table : Table) (token : ShortToken) (next : Option Text) : Verdict :=
  .ofResult token.text (table.resolveShort token next)

end Table

end CommandLine
