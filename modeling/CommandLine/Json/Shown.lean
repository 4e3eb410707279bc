import CommandLine.Json
import CommandLine.Text.Quoted
import CommandLine.Decimal.Shortest

namespace CommandLine.Json

def bracketed (left right : CodePoint) (items : List Text) : Text :=
  left :: Text.joined ", ".toText items ++ [right]

mutual

def shown : Json → Text
  | null => "None".toText
  | bool true => "True".toText
  | bool false => "False".toText
  | int value => Text.ofInt value
  | real value => Text.ofScalars (Decimal.ofFloat value)
  | text value => Text.quoted value
  | array items => bracketed '[' ']' (shownItems items)
  | object fields => bracketed '\x7b' '\x7d' (shownFields fields)

def shownItems : List Json → List Text
  | [] => []
  | item :: rest => shown item :: shownItems rest

def shownFields : List (Text × Json) → List Text
  | [] => []
  | (key, value) :: rest => (Text.quoted key ++ ": ".toText ++ shown value) :: shownFields rest

end

end CommandLine.Json
