import CommandLine.Decimal.Shortest
import CommandLine.Json.Limit

namespace CommandLine.Json

def unitEscape (unit : Nat) : Scalars := '\\' :: 'u' :: Text.hex 4 unit

def unicodeEscape (c : Char) : Scalars :=
  if c.toNat < 0x10000 then unitEscape c.toNat
  else
    unitEscape (0xd800 + (c.toNat - 0x10000) / 0x400) ++ unitEscape (0xdc00 + (c.toNat - 0x10000) % 0x400)

def escapedChar : CodePoint → Scalars
  | .half offset => unitEscape (0xd800 + offset)
  | .scalar c =>
    if c = '"' ∨ c = '\\' then ['\\', c]
    else if c = '\n' then ['\\', 'n']
    else if c = '\r' then ['\\', 'r']
    else if c = '\t' then ['\\', 't']
    else if c = '\x0c' then ['\\', 'f']
    else if c = '\x08' then ['\\', 'b']
    else if 0x20 ≤ c.toNat ∧ c.toNat < 0x7f then [c]
    else unicodeEscape c

def inQuotes (text : Text) : Scalars := '"' :: text.flatMap escapedChar ++ ['"']

def realText (value : Float) : Scalars :=
  let text := Decimal.ofFloat value
  if text = "nan".toList then "NaN".toList
  else if text = "inf".toList then "Infinity".toList
  else if text = "-inf".toList then "-Infinity".toList
  else text

def newLine (depth : Nat) : Scalars := '\n' :: List.replicate (2 * depth) ' '

def layout (depth : Nat) (left right : Char) : List Scalars → Scalars
  | [] => [left, right]
  | items =>
    left :: newLine (depth + 1) ++ Text.joined (',' :: newLine (depth + 1)) items ++
      newLine depth ++ [right]

mutual

def render (depth : Nat) : Json → Scalars
  | null => "null".toList
  | bool true => "true".toList
  | bool false => "false".toList
  | int value => Scalars.ofInt value
  | real value => realText value
  | text value => inQuotes value
  | array items => layout depth '[' ']' (renderItems (depth + 1) items)
  | object fields => layout depth '\x7b' '\x7d' (renderFields (depth + 1) fields)

def renderItems (depth : Nat) : List Json → List Scalars
  | [] => []
  | item :: rest => render depth item :: renderItems depth rest

def renderFields (depth : Nat) : List (Text × Json) → List Scalars
  | [] => []
  | (key, value) :: rest =>
    (inQuotes key ++ ": ".toList ++ render depth value) :: renderFields depth rest

end

mutual

def writable : Json → Bool
  | int value => digitCount value ≤ Limit.maxDigits
  | array items => allWritable items
  | object fields => allFieldsWritable fields
  | _ => true

def allWritable : List Json → Bool
  | [] => true
  | item :: rest => writable item && allWritable rest

def allFieldsWritable : List (Text × Json) → Bool
  | [] => true
  | (_, value) :: rest => writable value && allFieldsWritable rest

end

def write (value : Json) : Except Limit Scalars :=
  if value.writable then .ok (render 0 value) else .error .integerWritten

end CommandLine.Json
