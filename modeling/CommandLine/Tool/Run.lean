import CommandLine.Log
import CommandLine.Report.Plain
import CommandLine.Report.Structured
import CommandLine.TableFile
import CommandLine.Tool.Invocation
import CommandLine.Tool.System
import CommandLine.Tool.Usage

/-!
The tool: it reads a table from a file, decodes a vector against it and reports the result. It ends with 0 if
the vector fits the table, with 1 if it does not, and with 2 if the work could not be done.
-/
namespace CommandLine.Tool

inductive Level where
  | error
  | info
  | debug
  deriving DecidableEq, Repr

namespace Level

def label : Level → Text
  | error => "ERROR".toText
  | info => "INFO ".toText
  | debug => "DEBUG".toText

def verbosity : Level → Nat
  | error => 0
  | info => 1
  | debug => 2

end Level

inductive Message where
  | unreadable (path : Text) (e : FileError)
  | notJson (path : Text)
  | notUtf8 (path : Text)
  | invalidTable (path : Text) (e : SpecError)
  | loaded (size : Nat) (path : Text)
  | scanned (text : Text)
  | unforeseen (e : Trouble)

namespace Message

def level : Message → Level
  | loaded _ _ => .info
  | scanned _ => .debug
  | _ => .error

def source : Message → Text
  | scanned _ => programName ++ ".parser".toText
  | _ => programName

def text (detail : Text) : Message → Text
  | unreadable path e => "cannot read option table ".toText ++ path ++ ": ".toText ++ e.message
  | notJson path =>
    "option table ".toText ++ path ++ " is not valid JSON: ".toText ++ detail
  | notUtf8 path =>
    "option table ".toText ++ path ++ " is not valid UTF-8: ".toText ++ detail
  | invalidTable path e => "invalid option table ".toText ++ path ++ ": ".toText ++ e.message
  | loaded size path =>
    "Loaded ".toText ++ Text.ofNat size ++ " option(s) from ".toText ++ path
  | scanned text => text
  | unforeseen e => "Unhandled exception: ".toText ++ e.message

def ofTableFileError (path : Text) : TableFileError → Message
  | .notJson => notJson path
  | .notUtf8 => notUtf8 path
  | .beyond limit => unforeseen (.limit limit)
  | .invalid e => invalidTable path e

def isUnforeseen : Message → Bool
  | unforeseen _ => true
  | _ => false

end Message

/-- What the tool leaves to its surroundings: the time of day, the detail of a malformed text, and the lines
under an unforeseen error. -/
structure Wording where
  time : Text
  detail : Text
  trace : Text

inductive Line where
  | log (message : Message)
  | plain (text : Text)

def Line.render (wording : Wording) : Line → Text
  | plain text => text
  | log message =>
    wording.time ++ " [".toText ++ message.level.label ++ "] ".toText ++ message.source ++ ": ".toText ++
      message.text wording.detail ++ "\n".toText ++
      (if message.isUnforeseen then wording.trace else [])

structure Result where
  exit : Nat
  stdout : Text
  stderr : List Line

namespace Result

def refused (problem : UsageProblem) : Result :=
  ⟨2, [], [.plain (usageText ++ programName ++ ": error: ".toText ++ problem.message ++ "\n".toText)]⟩

def failed (stdout : Text) (messages : List Message) : Result := ⟨2, stdout, messages.map .log⟩

/-- The vector's own program name stands before the message of its diagnostic. -/
def complaint (argv : List Text) (d : Diagnostic) : Line :=
  .plain (argv.headD programName ++ ": ".toText ++ d.message ++ "\n".toText)

def finished (messages : List Message) (argv : List Text) (stdout : Text) :
    Except Diagnostic (List Record) → Result
  | .ok _ => ⟨0, stdout, messages.map .log⟩
  | .error d => ⟨1, stdout, messages.map .log ++ [complaint argv d]⟩

end Result

section Steps

variable {m : Type → Type} [Monad m] {Place : Type}

def loadTable (system : System m Place) (path : Text) : m (Except Message Table) := do
  match ← system.read path with
  | .error (.file e) => return .error (.unreadable path e)
  | .error e => return .error (.unforeseen e)
  | .ok octets => return (TableFile.ofOctets system.nesting octets).mapError (.ofTableFileError path)

def findTable (system : System m Place) : GivenPath → m (Except Message (Text × Table))
  | .dropped => return .error (.unforeseen .noPath)
  | .path text =>
    match system.expand text with
    | .error e => return .error (.unforeseen e)
    | .ok path => return (← loadTable system path).map (path, ·)

def emit (write : Text → m (Except Trouble Unit)) : Except Trouble (List Text) → m (Text × Except Trouble Unit)
  | .error e => return ([], .error e)
  | .ok pieces => writeAll write pieces

/-- What the standard output has taken of a report, and whether all of the report was taken where it should go. The file
is closed however writing to it ends. -/
def deliver (system : System m Place) (report : Except Trouble (List Text)) :
    Option GivenPath → m (Text × Except Trouble Unit)
  | none => emit system.print report
  | some .dropped => return ([], .error .noPath)
  | some (.path path) =>
    match system.expand path with
    | .error e => return ([], .error e)
    | .ok path => do
      match ← system.openAt path with
      | .error e => return ([], .error e)
      | .ok place =>
        let (_, ending) ← emit (system.append place) report
        match ← system.close place with
        | .error e => return ([], .error e)
        | .ok () => return ([], ending)

/-- A text of the tool about itself is lost if it cannot be shown. -/
def announce (system : System m Place) (text : Text) : m Result := do
  match ← system.print text with
  | .ok () => return ⟨0, text, []⟩
  | .error _ => return ⟨0, [], []⟩

end Steps

namespace Invocation

def admits (invocation : Invocation) (message : Message) : Bool :=
  message.level.verbosity ≤ invocation.verbosity

/-- The plain report is written for a vector that fits only; the structured one tells of problems too. -/
def report? (invocation : Invocation) (outcome : Except Diagnostic (List Record)) :
    Option (Except Trouble (List Text)) :=
  match invocation.format, outcome with
  | .structured, outcome => some (((Report.structured outcome).map fun text => [.ofScalars text]).mapError .limit)
  | .plain, .ok records => some (.ok (Report.plainPieces records))
  | .plain, .error _ => none

def destination? (invocation : Invocation) : Option GivenPath :=
  invocation.output.filter (· ≠ .path "-".toText)

def scanMessages (invocation : Invocation) (table : Table) (path : Text) : List Message :=
  (.loaded table.size path :: (table.scanArguments invocation.argv none).log.map .scanned).filter
    invocation.admits

variable {m : Type → Type} [Monad m] {Place : Type}

def decode (system : System m Place) (invocation : Invocation) (table : Table) (path : Text) : m Result := do
  let messages := invocation.scanMessages table path
  let outcome := table.decode invocation.argv (!invocation.inOrder) none
  match invocation.report? outcome with
  | none => return .finished messages invocation.argv [] outcome
  | some report =>
    match ← deliver system report invocation.destination? with
    | (shown, .ok ()) => return .finished messages invocation.argv shown outcome
    | (shown, .error e) => return .failed shown (messages ++ [.unforeseen e])

def perform (system : System m Place) (invocation : Invocation) : m Result := do
  match ← findTable system invocation.table with
  | .error message => return .failed [] [message]
  | .ok (path, table) => invocation.decode system table path

end Invocation

def run {m : Type → Type} [Monad m] {Place : Type} (system : System m Place) (arguments : List Text) : m Result :=
  match Invocation.ofArguments system.convention arguments with
  | .error .help => announce system helpText
  | .error .version => announce system versionText
  | .error (.refused problem) => return .refused problem
  | .ok invocation => invocation.perform system

end CommandLine.Tool
