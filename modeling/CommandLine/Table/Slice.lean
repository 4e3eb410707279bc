import CommandLine.Table

namespace CommandLine

namespace Table

def at? (table : Table) (position : Int) : Option Descriptor :=
  let index := if position < 0 then position + table.size else position
  if index < 0 then none else table.entries[index.toNat]?

def firstPosition? (table : Table) (d : Descriptor) : Option Nat :=
  table.entries.findIdx? (· = d)

end Table

structure Slice where
  start : Option Int := none
  stop : Option Int := none
  step : Option Int := none
  deriving DecidableEq, Repr

namespace Slice

/-- A bound counted from the end if negative, and cut to the places that the direction allows. -/
def bound (size lowest highest : Int) (given : Option Int) (missing : Int) : Int :=
  match given with
  | none => missing
  | some position =>
    if position < 0 then max lowest (position + size) else min highest position

def ceilDiv (a b : Int) : Nat := (Int.fdiv (a + b - 1) b).toNat

def positions? (slice : Slice) (size : Nat) : Option (List Nat) :=
  let step := slice.step.getD 1
  if step = 0 then none
  else
    let lowest : Int := if step < 0 then -1 else 0
    let highest : Int := if step < 0 then size - 1 else size
    let first := bound size lowest highest slice.start (if step < 0 then highest else lowest)
    let last := bound size lowest highest slice.stop (if step < 0 then lowest else highest)
    let count := if step < 0 then ceilDiv (first - last) (-step) else ceilDiv (last - first) step
    some ((List.range count).map fun (k : Nat) => (first + k * step).toNat)

end Slice

def Table.slice? (table : Table) (slice : Slice) : Option (List Descriptor) :=
  (slice.positions? table.size).map fun positions =>
    positions.filterMap fun position => table.entries[position]?

end CommandLine
