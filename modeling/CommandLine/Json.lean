import CommandLine.Text

namespace CommandLine

inductive Json where
  | null
  | bool (truth : Bool)
  | int (value : Int)
  | real (value : Float)
  | text (value : Text)
  | array (items : List Json)
  | object (fields : List (Text × Json))
  deriving Inhabited

namespace Json

/-- A repeated key keeps its first place and takes the last value. -/
def put (key : Text) (value : Json) : List (Text × Json) → List (Text × Json)
  | [] => [(key, value)]
  | (k, v) :: rest => if k = key then (key, value) :: rest else (k, v) :: put key value rest

def get? (key : Text) (fields : List (Text × Json)) : Option Json := fields.lookup key

/-- Null, false, zero, the empty text and the empty collections. -/
def isBlank : Json → Bool
  | null => true
  | bool truth => !truth
  | int value => value = 0
  | real value => value == 0.0
  | text value => value.isEmpty
  | array items => items.isEmpty
  | object fields => fields.isEmpty

end Json

end CommandLine
