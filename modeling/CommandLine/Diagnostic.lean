import CommandLine.Record

namespace CommandLine

inductive Fault where
  | ambiguousOption
  | unrecognizedOption
  | unexpectedArgument
  | missingArgument
  | invalidShortOption
  deriving DecidableEq, Repr

namespace Fault

def all : List Fault :=
  [ambiguousOption, unrecognizedOption, unexpectedArgument, missingArgument, invalidShortOption]

def number : Fault → Nat
  | ambiguousOption => 1
  | unrecognizedOption => 2
  | unexpectedArgument => 3
  | missingArgument => 4
  | invalidShortOption => 5

def ofNumber? (n : Int) : Option Fault := all.find? fun fault => (fault.number : Int) = n

def label : Fault → Text
  | ambiguousOption => "AMBIGUOUS_OPTION".toText
  | unrecognizedOption => "UNRECOGNIZED_OPTION".toText
  | unexpectedArgument => "UNEXPECTED_ARGUMENT".toText
  | missingArgument => "MISSING_ARGUMENT".toText
  | invalidShortOption => "INVALID_SHORT_OPTION".toText

def code (fault : Fault) : Text := "AP-".toText ++ Text.padLeft ('0' : CodePoint) 4 (Text.ofNat fault.number)

def shown (fault : Fault) : Text :=
  "<ErrorKind.".toText ++ fault.label ++ ": ".toText ++ Text.ofNat fault.number ++ ">".toText

end Fault

inductive Problem where
  | ambiguous (token : Text)
  | unrecognized (token : Text)
  | longAllowsNoArgument (d : Descriptor)
  | longNeedsArgument (d : Descriptor)
  | invalidShort (c : CodePoint)
  | shortNeedsArgument (c : CodePoint)
  deriving DecidableEq, Repr

namespace Problem

def fault : Problem → Fault
  | ambiguous _ => .ambiguousOption
  | unrecognized _ => .unrecognizedOption
  | longAllowsNoArgument _ => .unexpectedArgument
  | longNeedsArgument _ => .missingArgument
  | invalidShort _ => .invalidShortOption
  | shortNeedsArgument _ => .missingArgument

def message : Problem → Text
  | ambiguous token => "option '".toText ++ token ++ "' is ambiguous".toText
  | unrecognized token => "unrecognized option '".toText ++ token ++ "'".toText
  | longAllowsNoArgument d =>
    "option '".toText ++ Record.longForm d ++ "' doesn't allow an argument".toText
  | longNeedsArgument d => "option '".toText ++ Record.longForm d ++ "' requires an argument".toText
  | invalidShort c => "invalid option -- ".toText ++ [c]
  | shortNeedsArgument c => "option requires an argument -- ".toText ++ [c]

end Problem

/-- The first error of a command line: the token it was found in and that token's place, -1 if it has none. -/
structure Diagnostic where
  fault : Fault
  message : Text
  token : Text := []
  index : Int := -1
  deriving DecidableEq, Repr

namespace Diagnostic

def ofProblem (problem : Problem) (token : Text) (index : Int) : Diagnostic :=
  ⟨problem.fault, problem.message, token, index⟩

def shown (d : Diagnostic) : Text :=
  "Diagnostic(kind=".toText ++ d.fault.shown ++ ", message=".toText ++ Text.quoted d.message ++
    ", token=".toText ++ Text.quoted d.token ++ ", index=".toText ++ Text.ofInt d.index ++ ")".toText

end Diagnostic

inductive ErrorClass where
  | any
  | malformedSpec
  | allocationFailure
  | usage
  | ambiguousOption
  | unrecognizedOption
  | unexpectedArgument
  | missingArgument
  | invalidShortOption
  deriving DecidableEq, Repr

namespace ErrorClass

def special : List ErrorClass :=
  [ambiguousOption, unrecognizedOption, unexpectedArgument, missingArgument, invalidShortOption]

def lineage : ErrorClass → List ErrorClass
  | any => [any]
  | malformedSpec => [malformedSpec, any]
  | allocationFailure => [allocationFailure, any]
  | usage => [usage, any]
  | c => [c, usage, any]

def fault? : ErrorClass → Option Fault
  | ambiguousOption => some .ambiguousOption
  | unrecognizedOption => some .unrecognizedOption
  | unexpectedArgument => some .unexpectedArgument
  | missingArgument => some .missingArgument
  | invalidShortOption => some .invalidShortOption
  | _ => none

def registry : List (Fault × ErrorClass) := special.filterMap fun c => c.fault?.map (·, c)

end ErrorClass

def Diagnostic.errorClass (d : Diagnostic) : ErrorClass := (ErrorClass.registry.lookup d.fault).getD .usage

end CommandLine
