import CommandLine.Tool.Flag

/-!
What the tool is asked to do. Its operands form the vector to decode; they must stand together.
-/
namespace CommandLine.Tool

inductive Format where
  | plain
  | structured
  deriving DecidableEq, Repr

def Format.ofWord? (text : Text) : Option Format :=
  if text = "text".toText then some .plain
  else if text = "json".toText then some .structured
  else none

/-- Two editions of the conventions for command lines. They differ in a value that is spelled like the separator, and in
short flags that share an element. -/
inductive Convention where
  | older
  | newer
  deriving DecidableEq, Repr

/-- The older edition drops a value that is spelled like the separator. -/
def Convention.drops (convention : Convention) (value : Text) : Bool := convention = .older ∧ value = "--".toText

inductive GivenPath where
  | path (text : Text)
  | dropped
  deriving DecidableEq, Repr

def GivenPath.ofValue (convention : Convention) (value : Text) : GivenPath :=
  if convention.drops value then dropped else path value

structure Settings where
  verbosity : Nat := 0
  table : Option GivenPath := none
  format : Format := .plain
  inOrder : Bool := false
  output : Option GivenPath := none
  deriving DecidableEq, Repr

inductive Stop where
  | help
  | version
  | refused (problem : UsageProblem)
  deriving DecidableEq, Repr

/-- A format whose value was dropped is the plain one. -/
def Settings.set (convention : Convention) (settings : Settings) (flag : Flag) (value : Text) : Except Stop Settings :=
  match flag with
  | .help => .error .help
  | .version => .error .version
  | .verbose => .ok { settings with verbosity := settings.verbosity + 1 }
  | .table => .ok { settings with table := some (.ofValue convention value) }
  | .format =>
    if convention.drops value then .ok { settings with format := .plain }
    else
      match Format.ofWord? value with
      | some format => .ok { settings with format := format }
      | none => .error (.refused (.unknownFormat value))
  | .inOrder => .ok { settings with inOrder := true }
  | .output => .ok { settings with output := some (.ofValue convention value) }

structure Cluster where
  flags : List (Flag × Text)
  awaiting : Option Flag := none
  unread : Option Text := none
  deriving DecidableEq, Repr

namespace Cluster

def cons (flag : Flag) (cluster : Cluster) : Cluster :=
  { cluster with flags := (flag, []) :: cluster.flags }

def bare (flag : Flag) : Cluster :=
  if flag.takesValue then ⟨[], some flag, none⟩ else ⟨[(flag, [])], none, none⟩

def ofValue (flag : Flag) (value : Text) : Except UsageProblem Cluster :=
  if flag.takesValue then .ok ⟨[(flag, value)], none, none⟩ else .error (.ignoredValue flag value)

def refuses (convention : Convention) (afterEquals : Bool) (c : CodePoint) : Bool :=
  convention = .newer && (afterEquals || c = '-')

/-- Text after a short flag is its value or, if it takes none, further short flags. In the newer edition an equals sign
stands before a value there too, and what begins with no short flag is left over. -/
def ofText (convention : Convention) (flag : Flag) (afterEquals : Bool) : Text → Except UsageProblem Cluster
  | [] => ofValue flag []
  | c :: rest =>
    if flag.takesValue then ofValue flag (c :: rest)
    else if refuses convention afterEquals c then .error (.ignoredValue flag (c :: rest))
    else
      match Flag.ofSpelling? ['-', c], rest with
      | none, rest =>
        match convention with
        | .older => .error (.ignoredValue flag (c :: rest))
        | .newer => .ok ⟨[(flag, [])], none, some ('-' :: c :: rest)⟩
      | some next, [] => .ok ((bare next).cons flag)
      | some next, d :: more =>
        if convention = .newer ∧ d = '=' then (ofText convention next true more).map (cons flag)
        else (ofText convention next false (d :: more)).map (cons flag)

def ofFlag (convention : Convention) (flag : Flag) : Option Attached → Except UsageProblem Cluster
  | none => .ok (bare flag)
  | some (.toLong value) => ofValue flag value
  | some (.toShort afterEquals text) => ofText convention flag afterEquals text

end Cluster

inductive Place where
  | betweenGroups
  | inArguments
  | inExtras
  deriving DecidableEq, Repr

structure Reading where
  settings : Settings := {}
  argv : Option (List Text) := none
  extras : List Text := []
  place : Place := .betweenGroups
  pending : Option (Cluster × Flag) := none
  deriving DecidableEq, Repr

namespace Reading

def extra (reading : Reading) (element : Text) : Reading :=
  { reading with extras := reading.extras ++ [element] }

def argument (reading : Reading) (element : Text) : Reading :=
  { reading with argv := some (reading.argv.getD [] ++ [element]), place := .inArguments }

/-- The first group of operands is the vector to decode; operands of later groups are left over. -/
def operand (reading : Reading) (element : Text) : Reading :=
  match reading.place, reading.argv with
  | .inArguments, _ => reading.argument element
  | .betweenGroups, none => reading.argument element
  | _, _ => { reading.extra element with place := .inExtras }

/-- The separator belongs to the group it stands in, and is dropped from the vector to decode. -/
def separator (reading : Reading) (element : Text) : Reading :=
  match reading.place, reading.argv with
  | .inArguments, _ => reading
  | .betweenGroups, none => { reading with argv := some [], place := .inArguments }
  | _, _ => { reading.extra element with place := .inExtras }

def setAll (convention : Convention) (reading : Reading) : List (Flag × Text) → Except Stop Reading
  | [] => .ok reading
  | (flag, value) :: rest =>
    match reading.settings.set convention flag value with
    | .ok settings => setAll convention { reading with settings := settings } rest
    | .error stop => .error stop

def flags (convention : Convention) (reading : Reading) (cluster : Cluster) : Except Stop Reading :=
  { reading with extras := reading.extras ++ cluster.unread.toList, place := .betweenGroups }.setAll convention
    cluster.flags

def cluster (convention : Convention) (reading : Reading) (cluster : Cluster) : Except Stop Reading :=
  match cluster.awaiting with
  | none => reading.flags convention cluster
  | some flag => .ok { reading with pending := some (cluster, flag) }

/-- Only an operand can be the value that a flag waits for. -/
def step (convention : Convention) (reading : Reading) (element : Text) (word : Word) : Except Stop Reading :=
  match reading.pending, word with
  | some (cluster, flag), .operand =>
    { reading with pending := none }.flags convention { cluster with flags := cluster.flags ++ [(flag, element)] }
  | some (_, flag), _ => .error (.refused (.missingValue flag))
  | none, .operand => .ok (reading.operand element)
  | none, .separator => .ok (reading.separator element)
  | none, .unknown => .ok { reading.extra element with place := .betweenGroups }
  | none, .flag flag attached =>
    match Cluster.ofFlag convention flag attached with
    | .ok cluster => reading.cluster convention cluster
    | .error problem => .error (.refused problem)

def readFrom (convention : Convention) (reading : Reading) : List (Text × Word) → Except Stop Reading
  | [] => .ok reading
  | (element, word) :: rest =>
    match reading.step convention element word with
    | .ok next => readFrom convention next rest
    | .error stop => .error stop

end Reading

structure Invocation where
  table : GivenPath
  verbosity : Nat
  format : Format
  inOrder : Bool
  output : Option GivenPath
  argv : List Text
  deriving DecidableEq, Repr

/-- A flag that still waits for its value is reported first, then a missing table, then what is left over. -/
def Reading.complete (reading : Reading) : Except Stop Invocation :=
  match reading.pending, reading.settings.table, reading.extras with
  | some (_, flag), _, _ => .error (.refused (.missingValue flag))
  | none, none, _ => .error (.refused .tableMissing)
  | none, some table, [] =>
    .ok ⟨table, reading.settings.verbosity, reading.settings.format, reading.settings.inOrder,
      reading.settings.output, reading.argv.getD []⟩
  | none, some _, extras => .error (.refused (.unrecognized extras))

def Invocation.ofArguments (convention : Convention) (arguments : List Text) : Except Stop Invocation :=
  match Word.ofElements arguments with
  | .error problem => .error (.refused problem)
  | .ok words =>
    match Reading.readFrom convention {} words with
    | .error stop => .error stop
    | .ok reading => reading.complete

end CommandLine.Tool
