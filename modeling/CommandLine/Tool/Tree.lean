import CommandLine.Tool.Path
import CommandLine.Tool.System

namespace CommandLine.Tool

inductive Node where
  | file (octets : Octets)
  | directory
  deriving DecidableEq

/-- A directory with all that is in it. The directories on the way to an entry need no entry of their own. -/
structure Tree where
  nodes : List (List Text × Node)
  deriving DecidableEq

namespace Tree

def node? (tree : Tree) (place : List Text) : Option Node :=
  if place = [] then some .directory
  else
    match tree.nodes.lookup place with
    | some node => some node
    | none => if tree.nodes.any fun entry => place.isPrefixOf entry.1 then some .directory else none

def put (place : List Text) (node : Node) : List (List Text × Node) → List (List Text × Node)
  | [] => [(place, node)]
  | entry :: rest =>
    if entry.1 = place then (place, node) :: rest else entry :: put place node rest

def nameFits (name : Text) : Bool := (Text.encodeName name).toOption.all (·.length ≤ 255)

def pathFits (path : Text) : Bool := (Text.encodeName path).toOption.all (·.length < 4096)

def checked (path : Text) : Except Trouble Text :=
  match Text.encodeName path with
  | .error e => .error (.unencodable e)
  | .ok _ => if .scalar '\x00' ∈ path then .error .nulInPath else .ok path

section Reading

/-- Of what lies outside the tree only the directories above it and the empty null device are known. -/
def outside (names : List Text) : Except FileFault Octets :=
  if names.all (· = Path.parent) then .error .isDirectory
  else if names = ["dev".toText, "null".toText] then .ok []
  else .error .notFound

def octetsAt (tree : Tree) (place : List Text) : Except FileFault Octets :=
  match tree.node? place with
  | none => .error .notFound
  | some .directory => .error .isDirectory
  | some (.file octets) => .ok octets

def follow (tree : Tree) (place : List Text) : List Text → Except FileFault Octets
  | [] => tree.octetsAt place
  | name :: rest =>
    match tree.node? place with
    | none => .error .notFound
    | some (.file _) => .error .notDirectory
    | some .directory =>
      if name = Path.parent then
        match place with
        | [] => if rest.all (· = Path.parent) then .error .isDirectory else .error .notFound
        | _ => follow tree place.dropLast rest
      else if nameFits name then follow tree (place ++ [name]) rest
      else .error .nameTooLong

def readOctets (tree : Tree) (path : Text) : Except FileFault Octets :=
  if !pathFits path then .error .nameTooLong
  else if Path.isAbsolute path then outside (Path.names path)
  else tree.follow [] (Path.names path)

def readFile (tree : Tree) (path : Text) : Except Trouble Octets := do
  let path ← checked path
  (tree.readOctets path).mapError fun fault => .file ⟨fault, path⟩

end Reading

section Writing

/-- A place to write to. What is written outside the tree leaves the tree as it is. -/
inductive Spot where
  | inside (place : List Text)
  | outside (path : Text)
  deriving DecidableEq, Repr

def spot (path : Text) : Except Trouble Spot := do
  let path ← checked path
  match Path.inside? path with
  | some place => return .inside place
  | none => return .outside path

def printed (home : Text) (place : List Text) : Text := Text.joined "/".toText (home :: place)

def entryFault? (tree : Tree) (place : List Text) : List Text → Option FileFault
  | [] => some .alreadyExists
  | name :: rest =>
    if !nameFits name then some .nameTooLong
    else
      match tree.node? (place ++ [name]), rest with
      | some .directory, rest => entryFault? tree (place ++ [name]) rest
      | some (.file _), [] => some .alreadyExists
      | some (.file _), _ => some .notDirectory
      | none, [] => none
      | none, _ => some .notFound

def makeFault? (home : Text) (tree : Tree) (place : List Text) : Option FileFault :=
  if pathFits (printed home place) then tree.entryFault? [] place else some .nameTooLong

def makeOne (home : Text) (place : List Text) (tree : Tree) : Except FileError Unit × Tree :=
  match tree.makeFault? home place with
  | none => (.ok (), ⟨put place .directory tree.nodes⟩)
  | some fault =>
    (if tree.node? place = some .directory then .ok () else .error ⟨fault, printed home place⟩, tree)

/-- The names are those of the place, last one first. Directories that were made before a fault stay. -/
def makeAll (home : Text) : List Text → Tree → Except FileError Unit × Tree
  | [], tree => (.ok (), tree)
  | name :: above, tree =>
    match tree.makeFault? home (name :: above).reverse with
    | some .notFound =>
      match makeAll home above tree with
      | (.ok (), made) => makeOne home (name :: above).reverse made
      | failed => failed
    | _ => makeOne home (name :: above).reverse tree

def createFault? (home : Text) (tree : Tree) (place : List Text) : Option FileFault :=
  if !(place.all nameFits && pathFits (printed home place)) then some .nameTooLong
  else if tree.node? place = some .directory then some .isDirectory
  else none

def createFile (home : Text) (tree : Tree) : Spot → Except Trouble Unit × Tree
  | .outside path =>
    (if Path.isAbsolute path ∧ Path.names path = [] then .error (.file ⟨.isDirectory, ['/']⟩) else .ok (), tree)
  | .inside place =>
    match tree.createFault? home place with
    | some fault => (.error (.file ⟨fault, printed home place⟩), tree)
    | none => (.ok (), ⟨put place (.file []) tree.nodes⟩)

def appendText (tree : Tree) (spot : Spot) (text : Text) : Except Trouble Unit × Tree :=
  match Text.encode text, spot with
  | .error e, _ => (.error (.unencodable e), tree)
  | .ok _, .outside _ => (.ok (), tree)
  | .ok octets, .inside place =>
    match tree.node? place with
    | some (.file held) => (.ok (), ⟨put place (.file (held ++ octets)) tree.nodes⟩)
    | _ => (.error (.other "I/O operation on closed file.".toText), tree)

end Writing

/-- The tree as the working directory of the tool; messages show its own path as `directory`. The standard output takes
what can be encoded. -/
def system (convention : Convention) (nesting : Nat) (home : Text → Except Trouble (Option Text)) (directory : Text) :
    System (StateM Tree) Spot where
  convention := convention
  nesting := nesting
  home := home
  read path := fun tree => (tree.readFile path, tree)
  resolve path := fun tree => (spot path, tree)
  makeDirectory
    | .outside _ => fun tree => (.ok (), tree)
    | .inside place => fun tree =>
      let (made, after) := makeAll directory place.dropLast.reverse tree
      (made.mapError .file, after)
  create spot := fun tree => tree.createFile directory spot
  append spot text := fun tree => tree.appendText spot text
  close _ := fun tree => (.ok (), tree)
  print text := fun tree => (((Text.encode text).mapError .unencodable).map fun _ => (), tree)

def newFiles (before after : Tree) : List (List Text × Octets) :=
  after.nodes.filterMap fun entry =>
    match entry.2 with
    | .file octets =>
      if before.nodes.lookup entry.1 = some (.file octets) then none else some (entry.1, octets)
    | .directory => none

end Tree

end CommandLine.Tool
