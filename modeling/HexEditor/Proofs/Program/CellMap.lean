/-
Scratch memory is a partial map. Whatever the capacity was at first, and whatever words were stored
and loaded since then, an index is loaded with the word that was stored under it last, or is unset;
a store that is refused changes nothing; and there are as many stored cells as different indexes.

Beside it stands a memory in two arrays, one of words and one that tells which of them were stored.
Both are copied into larger ones when the memory grows. It answers every access like the other
memory: growing moves no cell and loses none, and the zeros that it adds are never loaded. What both
hold under each index, together with their sizes, is what carries the induction on the accesses.
-/

import HexEditor.Proofs.Program.Cells
import HexEditor.Proofs.Table

namespace HexEditor

/-- An access to scratch memory by an index that counts from its start, with a word. -/
inductive CellAccess where
  | store (index : Nat) (value : UInt64)
  | load (index : Nat)
  deriving DecidableEq

def CellAccess.operation : CellAccess → CellOperation
  | store index value => .store index value.toNat
  | load index => .load index

namespace Cells

variable {cells : Cells} {index : Nat} {value : UInt64} {table : List (Nat × UInt64)}

/-- The memory behind some accesses. -/
def after (accesses : List CellAccess) (cells : Cells) : Cells :=
  applyAll (accesses.map CellAccess.operation) cells

/-- The words that are stored by some accesses with their indexes, without those that are refused. -/
def takenBy : List CellAccess → Cells → List (Nat × UInt64)
  | [], _ => []
  | .load _ :: rest, cells => takenBy rest cells
  | .store index value :: rest, cells =>
    match cells.store index value.toNat with
    | (.ok (), later) => (index, value) :: takenBy rest later
    | (.error _, later) => takenBy rest later

/-! ### The memory as a table -/

/-- The memory holds what a table of words tells under each index, and nothing else. -/
structure ToldBy (cells : Cells) (table : List (Nat × UInt64)) : Prop where
  inside : cells.Inside
  lookup : ∀ index : Nat, cells.stored[index]? = table.lookup index
  size : cells.size = table.length

theorem toldBy_empty (capacity : Nat) : ({ capacity } : Cells).ToldBy [] where
  inside := inside_empty capacity
  lookup _ := Std.HashMap.getElem?_empty
  size := Std.HashMap.size_empty

theorem ToldBy.mem_iff (told : cells.ToldBy table) (index : Nat) :
    index ∈ cells.stored ↔ index ∈ table.map Prod.fst := by
  rw [Std.HashMap.mem_iff_isSome_getElem?, told.lookup, List.lookup_isSome_iff, List.mem_map]
  exact exists_congr fun entry => and_congr_right fun _ => beq_iff_eq.trans eq_comm

/-- A word that is stored is set in the table. -/
theorem ToldBy.store (told : cells.ToldBy table) {capacity : Nat}
    (grown : cells.capacityFor? index = some capacity) (value : UInt64) :
    ToldBy ⟨capacity, cells.stored.insert index value⟩ (Table.set index value table) where
  inside := by
    have kept := told.inside.store index value.toNat
    rwa [store_of_capacity grown] at kept
  lookup other := by
    rw [Std.HashMap.getElem?_insert, Table.lookup_set, told.lookup, BEq.comm (a := index)]
  size := by
    have before : cells.stored.size = table.length := told.size
    rw [Cells.size, Std.HashMap.size_insert, before]
    split_ifs with known
    · have keys : (Table.set index value table).map Prod.fst = table.map Prod.fst :=
        Table.keys_set_of_mem ((told.mem_iff index).1 known)
      simpa using (congrArg List.length keys).symm
    · rw [Table.set_of_notMem (mt (told.mem_iff index).2 known), List.length_append]
      rfl

/-- After some accesses the memory is told by the words that were stored, set one after the
other. -/
theorem ToldBy.after (told : cells.ToldBy table) (accesses : List CellAccess) :
    (cells.after accesses).ToldBy (Table.setAll (cells.takenBy accesses) table) := by
  induction accesses generalizing cells table with
  | nil => exact told
  | cons access rest inductionHypothesis =>
    cases access with
    | load index => exact inductionHypothesis told
    | store index value =>
      show (Cells.after rest (cells.store index value.toNat).2).ToldBy _
      rw [takenBy]
      cases grown : cells.capacityFor? index with
      | none =>
        rw [store_of_full grown]
        exact inductionHypothesis told
      | some capacity =>
        rw [store_of_capacity grown]
        exact inductionHypothesis (told.store grown value)

theorem ToldBy.load_eq (told : cells.ToldBy table) (index : Nat) :
    cells.load index =
      match table.lookup index with
      | some value => .ok value
      | none => .error (.unset index) := by
  have found := told.inside.load_eq index
  rw [told.lookup] at found
  exact found

end Cells

/-! ### The memory in arrays -/

/-- Scratch memory in two arrays: the words of all cells, and whether they were stored. -/
structure CellArrays where
  words : Array UInt64
  written : Array Bool
  sameSize : written.size = words.size

namespace CellArrays

def ofCapacity (capacity : Nat) : CellArrays where
  words := Array.replicate capacity 0
  written := Array.replicate capacity false
  sameSize := by rw [Array.size_replicate, Array.size_replicate]

/-- Copies both arrays and puts cells behind them that were not stored. -/
def grow (arrays : CellArrays) (count : Nat) : CellArrays where
  words := arrays.words ++ Array.replicate count 0
  written := arrays.written ++ Array.replicate count false
  sameSize := by
    rw [Array.size_append, Array.size_append, arrays.sameSize, Array.size_replicate,
      Array.size_replicate]

def put (arrays : CellArrays) (index : Nat) (value : UInt64) : CellArrays where
  words := arrays.words.setIfInBounds index value
  written := arrays.written.setIfInBounds index true
  sameSize := by rw [Array.size_setIfInBounds, Array.size_setIfInBounds, arrays.sameSize]

def store (arrays : CellArrays) (index : Nat) (value : UInt64) :
    Except CellFailure Unit × CellArrays :=
  let capacity := arrays.words.size
  if index < capacity then
    (.ok (), arrays.put index value)
  else
    let needed := max (index + 1) (2 * capacity)
    if cellLimit < needed then (.error (.outOfRange index), arrays)
    else (.ok (), (arrays.grow (needed - capacity)).put index value)

/-- Whether a cell is there and was stored. -/
def isWritten (arrays : CellArrays) (index : Nat) : Bool :=
  arrays.written[index]?.getD false

/-- The word of a cell that is there and was stored. -/
def cell? (arrays : CellArrays) (index : Nat) : Option UInt64 :=
  if arrays.isWritten index then arrays.words[index]? else none

def load (arrays : CellArrays) (index : Nat) : Except CellFailure UInt64 :=
  match arrays.cell? index with
  | some value => .ok value
  | none => .error (.unset index)

/-- The number of cells that were stored. -/
def size (arrays : CellArrays) : Nat := arrays.written.count true

def apply (arrays : CellArrays) : CellAccess → CellArrays
  | .store index value => (arrays.store index value).2
  | .load _ => arrays

/-- The arrays behind some accesses. -/
def after (accesses : List CellAccess) (arrays : CellArrays) : CellArrays :=
  accesses.foldl apply arrays

variable {arrays : CellArrays} {index : Nat}

theorem lt_of_isWritten (written : arrays.isWritten index = true) : index < arrays.words.size := by
  by_contra outside
  rw [isWritten, Array.getElem?_eq_none (arrays.sameSize ▸ Nat.le_of_not_lt outside)] at written
  cases written

/-- In the cells that were stored there are words. -/
theorem isSome_cell? : (arrays.cell? index).isSome = arrays.isWritten index := by
  rw [cell?]
  split
  · next written =>
    rw [Array.getElem?_eq_getElem (lt_of_isWritten written), written]
    rfl
  · next unwritten => exact (Bool.eq_false_iff.2 unwritten).symm

/-! ### Growing and storing -/

theorem isWritten_grow (arrays : CellArrays) (index count : Nat) :
    (arrays.grow count).isWritten index = arrays.isWritten index := by
  rw [isWritten, isWritten, grow, Array.getElem?_append]
  split_ifs with inside
  · rfl
  · rw [Array.getElem?_eq_none (Nat.le_of_not_lt inside), Array.getElem?_replicate]
    split_ifs <;> rfl

/-- Growing neither moves nor loses a cell, and what it adds cannot be loaded. -/
theorem cell?_grow (arrays : CellArrays) (index count : Nat) :
    (arrays.grow count).cell? index = arrays.cell? index := by
  rw [cell?, cell?, isWritten_grow]
  split_ifs with written
  · exact Array.getElem?_append_left (lt_of_isWritten written)
  · rfl

theorem size_grow (arrays : CellArrays) (count : Nat) : (arrays.grow count).size = arrays.size := by
  rw [size, grow, Array.count_append, Array.count_replicate]
  rfl

theorem isWritten_put (inside : index < arrays.words.size) (value : UInt64) (other : Nat) :
    (arrays.put index value).isWritten other =
      if other = index then true else arrays.isWritten other := by
  have place : index < arrays.written.size := arrays.sameSize.symm ▸ inside
  rw [isWritten, isWritten, put, Array.getElem?_setIfInBounds, if_pos place]
  by_cases same : other = index
  · rw [if_pos same, if_pos same.symm]
    rfl
  · rw [if_neg same, if_neg (Ne.symm same)]

/-- Storing a word changes its cell and no other one. -/
theorem cell?_put (inside : index < arrays.words.size) (value : UInt64) (other : Nat) :
    (arrays.put index value).cell? other =
      if other = index then some value else arrays.cell? other := by
  rw [cell?, isWritten_put inside, put, Array.getElem?_setIfInBounds, if_pos inside, cell?]
  by_cases same : other = index
  · rw [if_pos same, if_pos same, if_pos same.symm]
    rfl
  · rw [if_neg same, if_neg same, if_neg (Ne.symm same)]

theorem size_put (inside : index < arrays.words.size) (value : UInt64) :
    (arrays.put index value).size =
      if arrays.isWritten index then arrays.size else arrays.size + 1 := by
  have place : index < arrays.written.size := arrays.sameSize.symm ▸ inside
  have here : arrays.isWritten index = arrays.written[index] := by
    rw [isWritten, Array.getElem?_eq_getElem place]
    rfl
  show (arrays.written.setIfInBounds index true).count true = _
  rw [Array.setIfInBounds_def, dif_pos place, Array.count_set, here, size]
  cases written : arrays.written[index] with
  | false => rfl
  | true =>
    have positive : 0 < arrays.written.count true :=
      Array.count_pos_iff.2 (written ▸ Array.getElem_mem place)
    exact Nat.sub_add_cancel positive

/-! ### Both memories -/

/-- The arrays have the cells of a memory. -/
structure Holds (arrays : CellArrays) (cells : Cells) : Prop where
  capacity : arrays.words.size = cells.capacity
  cell : ∀ index, arrays.cell? index = cells.stored[index]?
  size : arrays.size = cells.size

variable {cells : Cells}

theorem holds_ofCapacity (capacity : Nat) : (ofCapacity capacity).Holds { capacity } where
  capacity := Array.size_replicate
  cell index := by
    have unwritten : (ofCapacity capacity).isWritten index = false := by
      rw [isWritten, ofCapacity, Array.getElem?_replicate]
      split_ifs <;> rfl
    rw [cell?, unwritten, Std.HashMap.getElem?_empty]
    rfl
  size := by
    show (Array.replicate capacity false).count true = (∅ : Std.HashMap Nat UInt64).size
    rw [Array.count_replicate, Std.HashMap.size_empty]
    rfl

/-- Arrays that have grown have the cells of a memory that has grown as far. -/
theorem Holds.grow (holds : arrays.Holds cells) {capacity : Nat}
    (larger : cells.capacity ≤ capacity) :
    (arrays.grow (capacity - arrays.words.size)).Holds ⟨capacity, cells.stored⟩ where
  capacity := by
    rw [CellArrays.grow, Array.size_append, Array.size_replicate, holds.capacity,
      Nat.add_sub_cancel' larger]
  cell index := by rw [cell?_grow, holds.cell]
  size := by rw [size_grow, holds.size]; rfl

theorem Holds.put (holds : arrays.Holds cells) (inside : index < cells.capacity) (value : UInt64) :
    (arrays.put index value).Holds ⟨cells.capacity, cells.stored.insert index value⟩ where
  capacity := by rw [CellArrays.put, Array.size_setIfInBounds, holds.capacity]
  cell other := by
    rw [cell?_put (holds.capacity ▸ inside), holds.cell, Std.HashMap.getElem?_insert]
    by_cases same : other = index
    · rw [if_pos same, if_pos (beq_iff_eq.2 same.symm)]
    · rw [if_neg same, if_neg (mt beq_iff_eq.1 (Ne.symm same))]
  size := by
    have known : arrays.isWritten index = true ↔ index ∈ cells.stored := by
      rw [← isSome_cell?, holds.cell, Std.HashMap.mem_iff_isSome_getElem?]
    rw [size_put (holds.capacity ▸ inside), holds.size, Cells.size, Cells.size,
      Std.HashMap.size_insert]
    exact if_congr known rfl rfl

/-- A word is stored in both or refused by both. -/
theorem Holds.store (holds : arrays.Holds cells) (index : Nat) (value : UInt64) :
    (arrays.store index value).1 = (cells.store index value.toNat).1 ∧
      (arrays.store index value).2.Holds (cells.store index value.toNat).2 := by
  by_cases inside : index < cells.capacity
  · have grown : cells.capacityFor? index = some cells.capacity := if_pos (Int.ofNat_lt.2 inside)
    rw [Cells.store_of_capacity grown, CellArrays.store, holds.capacity, if_pos inside]
    exact ⟨rfl, holds.put inside value⟩
  have past : ¬ ((index : Int) < cells.capacity) := mt Int.ofNat_lt.1 inside
  rw [CellArrays.store, holds.capacity, if_neg inside]
  by_cases room : max (index + 1) (2 * cells.capacity) ≤ cellLimit
  · have grown : cells.capacityFor? index = some (max (index + 1) (2 * cells.capacity)) :=
      (if_neg past).trans (if_pos room)
    have larger : cells.capacity ≤ max (index + 1) (2 * cells.capacity) := by omega
    have holdsGrown := holds.grow larger
    rw [holds.capacity] at holdsGrown
    rw [Cells.store_of_capacity grown, if_neg (Nat.not_lt.2 room)]
    exact ⟨rfl, holdsGrown.put (Nat.le_max_left _ _) value⟩
  · have full : cells.capacityFor? index = none := (if_neg past).trans (if_neg room)
    rw [Cells.store_of_full full, if_pos (Nat.lt_of_not_le room)]
    exact ⟨rfl, holds⟩

theorem Holds.after (holds : arrays.Holds cells) (accesses : List CellAccess) :
    (arrays.after accesses).Holds (cells.after accesses) := by
  induction accesses generalizing arrays cells with
  | nil => exact holds
  | cons access rest inductionHypothesis =>
    cases access with
    | store index value => exact inductionHypothesis (holds.store index value).2
    | load index => exact inductionHypothesis holds

/-- A cell is loaded from both or is unset in both. -/
theorem Holds.load (holds : arrays.Holds cells) (inside : cells.Inside) (index : Nat) :
    arrays.load index = cells.load index := by
  have found := inside.load_eq index
  rw [← holds.cell] at found
  exact found.symm

end CellArrays

/-- Whatever words were stored and loaded before, in memory of any capacity, an index is loaded with
the word that was stored under it last, and is unset if none was. A store is taken, or it is refused
and the memory is what it was. The cells that were stored are as many as the different indexes that
were taken. Two arrays that are copied into larger ones whenever an index lies behind them give the
same answers and have as many cells that were stored. -/
theorem Cells.loads_last_stored (capacity : Nat) (accesses : List CellAccess) :
    let cells := Cells.after accesses { capacity }
    let taken := Cells.takenBy accesses { capacity }
    let arrays := CellArrays.after accesses (.ofCapacity capacity)
    (∀ index : Nat, cells.load index =
      match taken.reverse.lookup index with
      | some value => .ok value
      | none => .error (.unset index)) ∧
    (∀ (index : Nat) (value : UInt64),
      (cells.store index value.toNat).1 = .ok () ∨
        cells.store index value.toNat = (.error (.outOfRange index), cells)) ∧
    cells.size = (taken.map Prod.fst).dedup.length ∧
    (∀ index : Nat, arrays.load index = cells.load index) ∧
    (∀ (index : Nat) (value : UInt64),
      (arrays.store index value).1 = (cells.store index value.toNat).1) ∧
    arrays.size = cells.size := by
  extract_lets cells taken arrays
  have told : cells.ToldBy (Table.setAll taken []) := (toldBy_empty capacity).after accesses
  have holds : arrays.Holds cells := (CellArrays.holds_ofCapacity capacity).after accesses
  refine ⟨fun index => ?_, fun index value => ?_, told.size.trans Table.length_setAll,
    holds.load told.inside, fun index value => (holds.store index value).1, holds.size⟩
  · rw [told.load_eq, Table.lookup_setAll, List.lookup_nil, Option.or_none]
  · rcases cells.store_cases index value with ⟨_, -, stored⟩ | refused
    · exact .inl (by rw [stored])
    · exact .inr refused

end HexEditor
