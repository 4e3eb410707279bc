import CommandLine.Tool.Run
import Std.Time.Format

namespace CommandLine.Tool

/-- Halves are shown by their codes. -/
def stringOf (text : Text) : String :=
  String.ofList (text.flatMap fun
    | .scalar c => [c]
    | .half offset => Text.escapedCode (0xd800 + offset))

def faultOfCode (code : UInt32) (details : String) : FileFault :=
  match code.toNat with
  | 20 => .notDirectory
  | 21 => .isDirectory
  | 36 => .nameTooLong
  | number => .other number details.toText

def faultOfError : IO.Error → FileFault
  | .noFileOrDirectory _ _ _ => .notFound
  | .alreadyExists _ _ _ => .alreadyExists
  | .invalidArgument _ code details | .permissionDenied _ code details
  | .resourceExhausted _ code details | .inappropriateType _ code details
  | .noSuchThing _ code details | .otherError code details => faultOfCode code details
  | e => .other 5 (toString e).toText

def attempt {α : Type} (path : Text) (action : IO α) : IO (Except FileError α) := do
  match ← action.toBaseIO with
  | .ok result => return .ok result
  | .error e => return .error ⟨faultOfError e, path⟩

def nativePath (path : Text) : Except Trouble String :=
  match Text.scalars? path with
  | none => .error (.file ⟨.notFound, path⟩)
  | some scalars => if '\x00' ∈ scalars then .error .nulInPath else .ok (String.ofList scalars)

def absolute (names : List Text) : Text := .scalar '/' :: Text.joined "/".toText names.reverse

def follow (names : List Text) (name : Text) : List Text :=
  if name = Path.parent then names.drop 1 else name :: names

def namesOfPlace (path : String) : IO (List Text) := do
  return (Path.names ((← IO.currentDir) / path).toString.toText).foldl follow []

def isDirectory (path : String) : IO Bool := do
  ((← IO.currentDir) / path).isDir

def makeAll : List Text → IO (Except FileError Unit)
  | [] => return .ok ()
  | name :: above => do
    let path := absolute (name :: above)
    let make := attempt path (IO.FS.createDir (stringOf path))
    let made ← match ← make with
      | .error ⟨.notFound, _⟩ => do
        match ← makeAll above with
        | .ok () => make
        | .error e => pure (.error e)
      | result => pure result
    match made with
    | .ok () => return .ok ()
    | .error e => if ← isDirectory (stringOf path) then return .ok () else return .error e

def homeIn (users : String) (user : Text) : Option Text :=
  (users.splitOn "\n").findSome? fun line =>
    match line.splitOn ":" with
    | [name, _, _, _, _, directory, _] => if name.toText = user then some directory.toText else none
    | _ => none

def reachedBy (action : Text → IO (Except FileError Unit)) (names : List Text) : IO (Except Trouble Unit) := do
  return (← action (absolute names)).mapError .file

/-- Places are lists of names, the last one first. Of the thousand frames that a stack is held to, about ten are
in use when a table file is read. -/
def machine (home : Option String) (users : String) : System IO (List Text) where
  convention := .newer
  nesting := 990
  home user := .ok (if user = [] then home.map String.toText else homeIn users user)
  read path := do
    match nativePath path with
    | .error e => return .error e
    | .ok native =>
      return (← attempt path do return (← IO.FS.readBinFile native).toList).mapError .file
  resolve path := do
    match nativePath path with
    | .error e => return .error e
    | .ok native => return .ok (← namesOfPlace native)
  makeDirectory names := return (← makeAll (names.drop 1)).mapError .file
  create := reachedBy fun path => attempt path (IO.FS.writeBinFile (stringOf path) .empty)
  append names text := do
    match Text.encode text with
    | .error e => return .error (.unencodable e)
    | .ok octets =>
      reachedBy (fun path => attempt path do
        (← IO.FS.Handle.mk (stringOf path) .append).write octets.toByteArray) names
  close _ := return .ok ()
  print text := do
    match Text.encode text with
    | .error e => return .error (.unencodable e)
    | .ok octets =>
      let stdout ← IO.getStdout
      return (← attempt [] (stdout.write octets.toByteArray)).mapError .file

def currentWording : IO Wording := do
  let time ← Std.Time.PlainTime.now
  return ⟨(time.format "HH:mm:ss").toText, "malformed text".toText, []⟩

def knownUsers : IO String := do
  match ← (IO.FS.readFile "/etc/passwd").toBaseIO with
  | .ok users => return users
  | .error _ => return ""

end CommandLine.Tool

open CommandLine Tool in
def main (arguments : List String) : IO UInt32 := do
  let result ← run (machine (← IO.getEnv "HOME") (← knownUsers)) (arguments.map String.toText)
  let wording ← currentWording
  (← IO.getStderr).putStr (stringOf (result.stderr.flatMap (Line.render wording)))
  return result.exit.toUInt32
