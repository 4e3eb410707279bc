import CommandLine.Text

namespace CommandLine.Tool.Path

def parent : Text := "..".toText

def pieces : Text → List Text
  | [] => [[]]
  | c :: rest =>
    if c = '/' then [] :: pieces rest
    else
      match pieces rest with
      | [] => [[c]]
      | piece :: more => (c :: piece) :: more

def names (path : Text) : List Text :=
  (pieces path).filter fun piece => piece ≠ [] && piece ≠ ".".toText

def isAbsolute (path : Text) : Bool := path.head? = some (.scalar '/')

/-- Two slashes at the start stay two; any other number of them becomes one. -/
def root (path : Text) : Text :=
  match (path.takeWhile (· = .scalar '/')).length with
  | 0 => []
  | 2 => ['/', '/']
  | _ => ['/']

def build (root : Text) (names : List Text) : Text :=
  match root ++ Text.joined "/".toText names with
  | [] => ['.']
  | path => path

/-- The path without names that mean nothing; a step to the parent directory is kept. -/
def tidy (path : Text) : Text := build (root path) (names path)

def user? (path : Text) : Option Text :=
  match root path, names path with
  | [], (.scalar '~' :: user) :: _ => some user
  | _, _ => none

def homeOf (directory : Text) : Text :=
  match (directory.reverse.dropWhile (· = .scalar '/')).reverse with
  | [] => ['/']
  | home => home

def below (home path : Text) : Text := build (root home) (names home ++ (names path).drop 1)

/-- The place that the names lead to from `place`, each step to the parent taking back one name; none if the
names lead above the start. -/
def resolveFrom (place : List Text) : List Text → Option (List Text)
  | [] => some place
  | name :: rest =>
    if name = parent then
      match place with
      | [] => none
      | _ => resolveFrom place.dropLast rest
    else resolveFrom (place ++ [name]) rest

def inside? (path : Text) : Option (List Text) :=
  if isAbsolute path then none else resolveFrom [] (names path)

end CommandLine.Tool.Path
