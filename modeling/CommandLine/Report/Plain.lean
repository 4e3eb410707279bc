import CommandLine.Record

/-!
The plain report: a numbered line for each record, and a closing line with their number. The argument stands in
a column of its own; an option without argument leaves the column out, an operand never does.
-/
namespace CommandLine.Report

def label (r : Record) : Text := if r.isOperand then "(operand)".toText else r.form

def hasArgumentColumn (r : Record) : Bool := r.isOperand || r.argument ≠ []

def body (r : Record) : Text :=
  if hasArgumentColumn r then Text.padRight (' ' : CodePoint) 20 (label r) ++ .scalar ' ' :: r.argument else label r

def line (position : Nat) (r : Record) : Text :=
  Text.padLeft (' ' : CodePoint) 3 (Text.ofNat position) ++ "  ".toText ++ body r ++ "\n".toText

def linesFrom (position : Nat) : List Record → List Text
  | [] => []
  | r :: rest => line position r :: linesFrom (position + 1) rest

def summary (count : Nat) : Text :=
  "\n--- ".toText ++ Text.ofNat count ++ " record(s) ---\n".toText

def plainPieces (records : List Record) : List Text := linesFrom 0 records ++ [summary records.length]

def plain (records : List Record) : Text := (plainPieces records).flatten

end CommandLine.Report
