import CommandLine.Session

namespace CommandLine.Session

inductive Operation where
  | codeAt (position : Int)
  | argumentAt (position : Int)
  | formAt (position : Int)
  | descriptorAt (position : Int)
  | isCodeUsed (code : Code)
  | count
  | records
  | walk
  | diagnostic
  | message
  | require
  | release
  | enter
  | leave
  | leaveInterrupted
  | describe
  | scopedCount
  /-- Enters a scope, requires success in it, and then is interrupted before leaving it. -/
  | scopedInterrupt
  /-- Walks over some records, releases the session, and walks on: the walk keeps the records it began with. -/
  | walkAcrossRelease (before : Nat)
  deriving DecidableEq, Repr

inductive Reply where
  | done
  | code (value : Code)
  | text (value : Text)
  | descriptor (value : Option Descriptor)
  | truth (value : Bool)
  | count (value : Nat)
  | records (values : List Record)
  | diagnostic (value : Option Diagnostic)
  | scope (count : Nat)
  | refused (diagnostic : Diagnostic)
  | interrupted
  | walked (before after : List Record)
  deriving DecidableEq, Repr

def requirement (session : Session) (otherwise : Reply) : Reply :=
  match session.require with
  | .ok () => otherwise
  | .error diagnostic => .refused diagnostic

def reply (session : Session) : Operation → Reply
  | .codeAt position => .code (session.codeAt position)
  | .argumentAt position => .text (session.argumentAt position)
  | .formAt position => .text (session.formAt position)
  | .descriptorAt position => .descriptor (session.descriptorAt position)
  | .isCodeUsed code => .truth (session.isCodeUsed code)
  | .count => .count session.count
  | .records => .records session.records
  | .walk => .records session.records
  | .diagnostic => .diagnostic session.diagnostic
  | .message => session.error?.elim .done .text
  | .require => session.requirement .done
  | .release => .done
  | .enter => .done
  | .leave => .done
  | .leaveInterrupted => .interrupted
  | .describe => .text session.shown
  | .scopedCount => .scope session.count
  | .scopedInterrupt => session.requirement .interrupted
  | .walkAcrossRelease before =>
    .walked (session.records.take before) (session.records.drop before)

/-- The session after an operation. A scope is left by a release, also when it is left by an error. -/
def after (session : Session) : Operation → Session
  | .release | .leave | .leaveInterrupted | .scopedCount | .scopedInterrupt | .walkAcrossRelease _ =>
    session.release
  | _ => session

def afterAll (session : Session) (operations : List Operation) : Session :=
  operations.foldl after session

end CommandLine.Session
