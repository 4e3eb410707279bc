import CommandLine.Json

namespace CommandLine.Json

inductive Collection where
  | array
  | object
  deriving DecidableEq, Repr

inductive Limit where
  | integerDigits (count : Nat)
  | openCollections (innermost : Collection)
  | integerWritten
  deriving DecidableEq, Repr

namespace Limit

def maxDigits : Nat := 4300

def aboutIntegers : Text :=
  "Exceeds the limit (".toText ++ Text.ofNat maxDigits ++ " digits) for integer string conversion".toText

def advice : Text := "; use sys.set_int_max_str_digits() to increase the limit".toText

def message : Limit → Text
  | integerDigits count => aboutIntegers ++ ": value has ".toText ++ Text.ofNat count ++ " digits".toText ++ advice
  | integerWritten => aboutIntegers ++ advice
  | openCollections .array =>
    "maximum recursion depth exceeded while decoding a JSON array from a unicode string".toText
  | openCollections .object =>
    "maximum recursion depth exceeded while decoding a JSON object from a unicode string".toText

end Limit

def digitCount (value : Int) : Nat := (Scalars.ofNat value.natAbs).length

end CommandLine.Json
