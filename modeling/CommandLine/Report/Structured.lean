import CommandLine.Diagnostic
import CommandLine.Json.Printer

namespace CommandLine.Report

def codeJson : Code → Json
  | .number value => .int value
  | .char value => .text [value]

def optionJson : Option Text → Json
  | some form => .text form
  | none => .null

def recordJson (r : Record) : Json :=
  .object [
    ("code".toText, codeJson r.code),
    ("option".toText, optionJson r.option?),
    ("argument".toText, .text r.argument),
    ("operand".toText, .bool r.isOperand)]

def diagnosticJson (d : Diagnostic) : Json :=
  .object [
    ("code".toText, .text d.fault.code),
    ("kind".toText, .text d.fault.label),
    ("message".toText, .text d.message),
    ("token".toText, .text d.token),
    ("index".toText, .int d.index)]

def reportJson (records : List Record) (error : Json) : Json :=
  .object [
    ("records".toText, .array (records.map recordJson)),
    ("error".toText, error)]

def outcomeJson : Except Diagnostic (List Record) → Json
  | .ok records => reportJson records .null
  | .error diagnostic => reportJson [] (diagnosticJson diagnostic)

def structured (outcome : Except Diagnostic (List Record)) : Except Json.Limit Scalars :=
  (outcomeJson outcome).write.map (· ++ ['\n'])

end CommandLine.Report
