import CommandLine.Spec

/-!
Option tables: the descriptors that a command line is read against, in order. A descriptor with code 0 ends a
table, and what follows it is not even looked at.
-/
namespace CommandLine

structure Table where
  entries : List Descriptor
  sentinelFree : ∀ d ∈ entries, d.isSentinel = false
  deriving DecidableEq

namespace Table

def ofList (descriptors : List Descriptor) : Table where
  entries := descriptors.takeWhile fun d => !d.isSentinel
  sentinelFree := by
    intro d member
    have kept := List.all_takeWhile (l := descriptors) (p := fun d : Descriptor => !d.isSentinel)
    simpa using List.all_eq_true.mp kept d member

def readUntilSentinel {α ε : Type} (read : α → Except ε Descriptor) : List α → Except ε (List Descriptor)
  | [] => .ok []
  | entry :: rest => do
    let d ← read entry
    if d.isSentinel then return [] else return d :: (← readUntilSentinel read rest)

def build {α ε : Type} (read : α → Except ε Descriptor) (entries : List α) : Except ε Table :=
  ofList <$> readUntilSentinel read entries

def ofEntries (entries : List Entry) : Except SpecError Table := build Entry.check entries

/-- The table followed by further entries. Descriptions among them are all checked before the table is built. -/
def extended (table : Table) (extra : List Entry) : Except SpecError Table := do
  let settled ← extra.mapM Entry.settle
  ofEntries (table.entries.map .descriptor ++ settled)

def size (table : Table) : Nat := table.entries.length

def findShort (table : Table) (c : CodePoint) : Option Descriptor :=
  table.entries.find? fun d => d.short? = some c

def named (table : Table) : List Descriptor :=
  table.entries.filter fun d => d.longName ≠ []

def shown (table : Table) : Text :=
  "OptionTable(".toText ++ Json.bracketed '[' ']' (table.entries.map Descriptor.shown) ++ ")".toText

end Table

end CommandLine
