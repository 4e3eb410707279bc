import CommandLine.Json.Limit
import CommandLine.Text.Utf8
import CommandLine.Tool.Invocation
import CommandLine.Tool.Path

/-!
What the tool asks of the machine that it runs on. Opening a file, writing to it and closing it are steps of their own,
and each of them may fail, as may every write to the standard output.
-/
namespace CommandLine.Tool

inductive FileFault where
  | notFound
  | alreadyExists
  | notDirectory
  | isDirectory
  | nameTooLong
  | other (number : Nat) (reason : Text)
  deriving DecidableEq, Repr

namespace FileFault

def number : FileFault → Nat
  | notFound => 2
  | alreadyExists => 17
  | notDirectory => 20
  | isDirectory => 21
  | nameTooLong => 36
  | other number _ => number

def reason : FileFault → Text
  | notFound => "No such file or directory".toText
  | alreadyExists => "File exists".toText
  | notDirectory => "Not a directory".toText
  | isDirectory => "Is a directory".toText
  | nameTooLong => "File name too long".toText
  | other _ reason => reason

end FileFault

structure FileError where
  fault : FileFault
  path : Text
  deriving DecidableEq, Repr

def FileError.message (e : FileError) : Text :=
  "[Errno ".toText ++ Text.ofNat e.fault.number ++ "] ".toText ++ e.fault.reason ++ ": ".toText ++
    Text.quoted e.path

inductive Trouble where
  | file (e : FileError)
  | unencodable (e : Text.Unencodable)
  | limit (e : Json.Limit)
  | nulInPath
  | noPath
  | noHome
  | other (reason : Text)
  deriving DecidableEq, Repr

def Trouble.message : Trouble → Text
  | file e => e.message
  | unencodable e => e.message
  | limit e => e.message
  | nulInPath => "embedded null byte".toText
  | noPath => "expected str, bytes or os.PathLike object, not list".toText
  | noHome => "Could not determine home directory.".toText
  | other reason => reason

/-- A machine. A place is what it makes of a path to write to. The conventions for command lines and the number of
collections that may stand in each other in a table file are its own too. -/
structure System (m : Type → Type) (Place : Type) where
  convention : Convention
  nesting : Nat
  /-- The home directory of a user; the empty name is that of the user who runs the tool. -/
  home : Text → Except Trouble (Option Text)
  read : Text → m (Except Trouble Octets)
  resolve : Text → m (Except Trouble Place)
  makeDirectory : Place → m (Except Trouble Unit)
  /-- Opens a file, which is empty from then on. -/
  create : Place → m (Except Trouble Unit)
  append : Place → Text → m (Except Trouble Unit)
  close : Place → m (Except Trouble Unit)
  print : Text → m (Except Trouble Unit)

namespace System

variable {m : Type → Type} [Monad m] {Place : Type}

/-- A path that begins with the name of a user leads on from the home directory of that user. -/
def expand (system : System m Place) (path : Text) : Except Trouble Text :=
  match Path.user? path with
  | none => .ok (Path.tidy path)
  | some user =>
    match system.home user with
    | .error e => .error e
    | .ok none => .error .noHome
    | .ok (some directory) =>
      if (Path.homeOf directory).head? = some (.scalar '~') then .error .noHome
      else .ok (Path.below (Path.homeOf directory) path)

def openAt (system : System m Place) (path : Text) : m (Except Trouble Place) := do
  match ← system.resolve path with
  | .error e => return .error e
  | .ok place =>
    match ← system.makeDirectory place with
    | .error e => return .error e
    | .ok _ => return (← system.create place).map fun _ => place

end System

def writeAll {m : Type → Type} [Monad m] (write : Text → m (Except Trouble Unit)) :
    List Text → m (Text × Except Trouble Unit)
  | [] => return ([], .ok ())
  | piece :: rest => do
    match ← write piece with
    | .error e => return ([], .error e)
    | .ok () =>
      let (taken, ending) ← writeAll write rest
      return (piece ++ taken, ending)

end CommandLine.Tool
