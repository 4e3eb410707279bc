import CommandLine.Scan

/-!
A finished decoding that callers query and may release. It holds records or a diagnostic, never both; releasing
drops both and keeps the state.
-/
namespace CommandLine

inductive SessionState where
  | scanning
  | succeeded
  | failed
  deriving DecidableEq, Repr

def SessionState.word : SessionState → Text
  | scanning => "scanning".toText
  | succeeded => "done-ok".toText
  | failed => "done-error".toText

structure Session where
  state : SessionState
  records : List Record
  diagnostic : Option Diagnostic
  deriving DecidableEq, Repr

namespace Session

def begun : Session := ⟨.scanning, [], none⟩

def finish (session : Session) : Except Diagnostic (List Record) → Session
  | .ok records => { session with state := .succeeded, records := records }
  | .error diagnostic => { session with state := .failed, records := [], diagnostic := some diagnostic }

def ofOutcome (outcome : Except Diagnostic (List Record)) : Session := begun.finish outcome

def start (table : Table) (argv : List Text) (reorder : Bool) (argc : Option Int) : Session :=
  ofOutcome (table.decode argv reorder argc)

def error? (session : Session) : Option Text := session.diagnostic.map Diagnostic.message

def count (session : Session) : Nat := session.records.length

/-- No position before the first one is valid. -/
def record? (session : Session) (position : Int) : Option Record :=
  if position < 0 then none else session.records[position.toNat]?

def codeAt (session : Session) (position : Int) : Code :=
  (session.record? position).elim (.number 0) Record.code

def argumentAt (session : Session) (position : Int) : Text :=
  (session.record? position).elim [] Record.argument

def formAt (session : Session) (position : Int) : Text :=
  (session.record? position).elim [] Record.form

def descriptorAt (session : Session) (position : Int) : Option Descriptor :=
  (session.record? position).map Record.descriptor

def isCodeUsed (session : Session) (code : Code) : Bool :=
  session.records.any fun record => record.code = code

def release (session : Session) : Session := { session with records := [], diagnostic := none }

def require (session : Session) : Except Diagnostic Unit :=
  match session.diagnostic with
  | some diagnostic => .error diagnostic
  | none => .ok ()

def shown (session : Session) : Text :=
  "ArgParser(state=".toText ++ session.state.word ++ ", records=".toText ++ Text.ofNat session.count ++
    ", error=".toText ++ Descriptor.shownName session.error? ++ ")".toText

end Session

end CommandLine
