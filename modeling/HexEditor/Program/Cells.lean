/-
The scratch memory of a program: words that are stored under indexes and loaded
again. A cell that was never stored cannot be loaded. The memory has a capacity that
at least doubles whenever a store lies past it, and a store that would take it past
the limit is refused; so whether a large index can be stored depends on what was
stored before it. A negative index counts from the end of the capacity.
-/

import HexEditor.Number.Numeral
import Std.Data.HashMap

namespace HexEditor

/-- The largest capacity that scratch memory grows to. -/
def cellLimit : Nat := 0x1000000

/-- Why an access to scratch memory failed. -/
inductive CellFailure where
  | unset (index : Int)
  /-- The memory would grow too large. -/
  | outOfRange (index : Int)
  /-- The index lies before the first cell. -/
  | beforeFirst
  | notWord
  deriving DecidableEq, Repr

def CellFailure.message : CellFailure → String
  | .unset index => "Read of unset scratch cell " ++ hexText index
  | .outOfRange index => "Scratch index " ++ hexText index ++ " out of range"
  | .beforeFirst => "scratch index before the first cell"
  | .notWord => "scratch value is not a word"

/-- Scratch memory: its capacity, and the words of the cells that were stored. -/
structure Cells where
  capacity : Nat
  stored : Std.HashMap Nat UInt64 := ∅

namespace Cells

/-- Scratch memory of a capacity, which cannot be negative, with nothing stored in it. -/
def ofCapacity? (capacity : Int) : Option Cells :=
  if capacity < 0 then none else some { capacity := capacity.toNat }

/-- The number of cells that were stored. -/
def size (cells : Cells) : Nat := cells.stored.size

def place? (cells : Cells) (index : Int) : Option Nat :=
  if 0 ≤ index then some index.toNat
  else if 0 ≤ index + cells.capacity then some (index + cells.capacity).toNat
  else none

/-- The capacity that holds an index, if it may grow that far. -/
def capacityFor? (cells : Cells) (index : Int) : Option Nat :=
  if index < cells.capacity then
    some cells.capacity
  else
    let needed := max (index.toNat + 1) (2 * cells.capacity)
    if needed ≤ cellLimit then some needed else none

/-- Stores a value; the memory grows for the index even if the value is then refused. -/
def store (cells : Cells) (index value : Int) : Except CellFailure Unit × Cells :=
  match cells.capacityFor? index with
  | none => (.error (.outOfRange index), cells)
  | some capacity =>
    let grown := { cells with capacity }
    match grown.place? index, word? value with
    | some place, some value => (.ok (), { grown with stored := grown.stored.insert place value })
    | none, _ => (.error .beforeFirst, grown)
    | _, none => (.error .notWord, grown)

/-- Loads the value that was stored last under an index. -/
def load (cells : Cells) (index : Int) : Except CellFailure UInt64 :=
  if index < cells.capacity then
    match cells.place? index with
    | none => .error .beforeFirst
    | some place =>
      match cells.stored[place]? with
      | some value => .ok value
      | none => .error (.unset index)
  else
    .error (.unset index)

end Cells

end HexEditor
