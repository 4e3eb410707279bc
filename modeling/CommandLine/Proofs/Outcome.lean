import CommandLine.Session
import Mathlib.Data.List.Basic

namespace CommandLine

def readBound (argv : List Text) : Option Int → Nat
  | none => argv.length
  | some bound => (max 0 (min bound argv.length)).toNat

theorem admitted_eq (argv : List Text) (argc : Option Int) :
    admitted argv argc = (argv.take (readBound argv argc)).drop 1 := by
  cases argc with
  | none => simp [admitted, readBound]
  | some bound =>
      have same : (max 0 (min bound argv.length)).toNat = min bound.toNat argv.length := by omega
      rw [admitted, readBound, same, List.take_eq_take_min]

theorem admitted_none (program : Text) (elements : List Text) :
    admitted (program :: elements) none = elements := rfl

def sampleTable : Table := .ofList
  [⟨.char 'v', some "verbose".toText, .never⟩, ⟨.char 'o', some "output".toText, .required⟩,
    ⟨.char 'c', some "color".toText, .optional⟩]

def programName : Text := "prog".toText

def Scan.sorted (scan : Scan) (reorder : Bool) : List Record :=
  if reorder then scan.optionsFirst else scan.inOrder

namespace Session

variable {table : Table} {argv : List Text} {reorder : Bool} {argc : Option Int}

theorem start_eq : start table argv reorder argc =
    match (table.scanArguments argv argc).diagnostic? with
    | some diagnostic => ⟨.failed, [], some diagnostic⟩
    | none => ⟨.succeeded, (table.scanArguments argv argc).sorted reorder, none⟩ := by
  rw [start, Table.decode, Scan.outcome]
  cases (table.scanArguments argv argc).diagnostic? <;> rfl

theorem start_eq_succeeded_iff {records : List Record} :
    start table argv reorder argc = ⟨.succeeded, records, none⟩ ↔
      (table.scanArguments argv argc).diagnostic? = none ∧
        (table.scanArguments argv argc).sorted reorder = records := by
  rw [start_eq]
  cases (table.scanArguments argv argc).diagnostic? <;> simp

theorem start_eq_failed_iff {d : Diagnostic} :
    start table argv reorder argc = ⟨.failed, [], some d⟩ ↔
      (table.scanArguments argv argc).diagnostic? = some d := by
  rw [start_eq]
  cases (table.scanArguments argv argc).diagnostic? <;> simp

theorem start_state_iff :
    (start table argv reorder argc).state = .succeeded ↔
      (table.scanArguments argv argc).diagnostic? = none := by
  rw [start_eq]
  cases (table.scanArguments argv argc).diagnostic? <;> simp

theorem start_diagnostic :
    (start table argv reorder argc).diagnostic = (table.scanArguments argv argc).diagnostic? := by
  rw [start_eq]
  cases (table.scanArguments argv argc).diagnostic? <;> rfl

end Session

end CommandLine
