/-
Which cells scratch memory has. It grows for an index that lies past its capacity, and then it
at least doubles; what is limited is the capacity that it grows to. So every index below the
limit can be stored as long as the capacity is at most half of the limit. Once it is more the
memory does not grow any more, and it takes the indexes below its capacity and no others, however
small they are. What was stored before decides which of the two it is, and so does the order of
stores; but stores under distinct indexes that are all taken leave the same cells in any order.
-/

import HexEditor.Program.Cells
import HexEditor.Proofs.Number.Word
import Mathlib.Tactic.ByContra
import Mathlib.Tactic.SplitIfs

namespace HexEditor

namespace Cells

/-- Every cell that was stored is in the memory. -/
def Inside (cells : Cells) : Prop := ∀ place, place ∈ cells.stored → place < cells.capacity

/-- The memory is within its limit, and every cell that was stored is in the memory. -/
structure Bounded (cells : Cells) : Prop where
  capacity_le : cells.capacity ≤ cellLimit
  place_lt : ∀ place, place ∈ cells.stored → place < cells.capacity

variable {cells : Cells} {index : Nat} {value : UInt64}

theorem inside_empty (capacity : Nat) : ({ capacity } : Cells).Inside := by
  intro place stored
  simp at stored

theorem bounded_empty {capacity : Nat} (within : capacity ≤ cellLimit) :
    ({ capacity } : Cells).Bounded where
  capacity_le := within
  place_lt := inside_empty capacity

theorem bounded_new : ({ capacity := 16 } : Cells).Bounded := bounded_empty (by decide)

/-! ### Growing -/

/-- Memory that grows for an index holds that index and everything that it held. -/
theorem capacityFor?_spec {index : Int} {capacity : Nat}
    (found : cells.capacityFor? index = some capacity) :
    index < capacity ∧ cells.capacity ≤ capacity ∧
      (cells.capacity ≤ cellLimit → capacity ≤ cellLimit) := by
  simp only [capacityFor?] at found
  split_ifs at found with inside room
  · cases found
    omega
  · cases found
    omega

/-- The memory behind a store has grown for the index, unless it would have become too large. -/
theorem capacity_store (cells : Cells) (index value : Int) :
    (cells.store index value).2.capacity = (cells.capacityFor? index).getD cells.capacity := by
  rw [store]
  cases cells.capacityFor? index with
  | none => rfl
  | some capacity =>
    dsimp only
    split <;> rfl

/-- Whether a word can be stored under an index: the memory has the index, or it can double and the
index is below the limit. -/
def Admits (cells : Cells) (index : Nat) : Prop :=
  index < cells.capacity ∨ index < cellLimit ∧ 2 * cells.capacity ≤ cellLimit

theorem capacityFor?_of_admits (admits : cells.Admits index) :
    ∃ capacity, cells.capacityFor? index = some capacity := by
  simp only [capacityFor?, Int.toNat_natCast]
  rcases admits with inside | ⟨below, half⟩
  · exact ⟨_, if_pos (Int.ofNat_lt.2 inside)⟩
  · split_ifs with inside room
    · exact ⟨_, rfl⟩
    · exact ⟨_, rfl⟩
    · omega

theorem capacityFor?_of_not_admits (refused : ¬ cells.Admits index) :
    cells.capacityFor? index = none := by
  simp only [Admits, not_or, not_and] at refused
  simp only [capacityFor?, Int.toNat_natCast]
  rw [if_neg (by omega), if_neg (by omega)]

/-- A word is stored under an index in memory that has grown for it. -/
theorem store_of_capacity {capacity : Nat} (grown : cells.capacityFor? index = some capacity) :
    cells.store index value.toNat = (.ok (), ⟨capacity, cells.stored.insert index value⟩) := by
  have place : Cells.place? ⟨capacity, cells.stored⟩ index = some index := by
    simp [place?]
  simp only [store, grown, place, word?_toNat]

theorem store_of_full (full : cells.capacityFor? index = none) :
    cells.store index value.toNat = (.error (.outOfRange index), cells) := by
  simp only [store, full]

/-- A word is stored under an index, or the memory would grow too large for it. -/
theorem store_cases (cells : Cells) (index : Nat) (value : UInt64) :
    (∃ capacity, cells.capacityFor? index = some capacity ∧
        cells.store index value.toNat =
          (.ok (), ⟨capacity, cells.stored.insert index value⟩)) ∨
      cells.store index value.toNat = (.error (.outOfRange index), cells) := by
  cases grown : cells.capacityFor? index with
  | none => exact .inr (store_of_full grown)
  | some capacity => exact .inl ⟨capacity, rfl, store_of_capacity grown⟩

/-- A word is stored where the memory admits the index, and only there. -/
theorem store_eq_ok_iff : (cells.store index value.toNat).1 = .ok () ↔ cells.Admits index := by
  rcases cells.store_cases index value with ⟨capacity, grown, stored⟩ | refused
  · refine iff_of_true (by rw [stored]) ?_
    by_contra refused
    rw [capacityFor?_of_not_admits refused] at grown
    cases grown
  · refine iff_of_false (by rw [refused]; exact nofun) fun admits => ?_
    obtain ⟨capacity, grown⟩ := capacityFor?_of_admits admits
    rw [store_of_capacity grown] at refused
    cases refused

/-- A place that an index stands for in memory that grew for it is in that memory. -/
theorem place_lt_of_place? {index : Int} {place : Nat} (inside : index < cells.capacity)
    (found : cells.place? index = some place) : place < cells.capacity := by
  unfold place? at found
  split_ifs at found
  · cases found
    omega
  · cases found
    omega

/-- Whatever is stored, it is stored in the memory. -/
theorem Inside.store (held : cells.Inside) (index value : Int) :
    (cells.store index value).2.Inside := by
  rw [Cells.store]
  cases grown : cells.capacityFor? index with
  | none => exact held
  | some capacity =>
    obtain ⟨inside, larger, -⟩ := capacityFor?_spec grown
    have heldGrown : Inside { cells with capacity } :=
      fun place member => Nat.lt_of_lt_of_le (held place member) larger
    dsimp only
    split
    · next place word found read =>
      intro other member
      rcases Std.HashMap.mem_insert.1 member with same | before
      · rw [← eq_of_beq same]
        exact @place_lt_of_place? { cells with capacity } _ _ inside found
      · exact heldGrown other before
    · exact heldGrown
    · exact heldGrown

/-- Whatever is stored, the memory stays within its limit. -/
theorem Bounded.store (bounded : cells.Bounded) (index value : Int) :
    (cells.store index value).2.Bounded := by
  refine ⟨?_, Inside.store bounded.place_lt index value⟩
  rw [capacity_store]
  cases grown : cells.capacityFor? index with
  | none => exact bounded.capacity_le
  | some capacity => exact (capacityFor?_spec grown).2.2 bounded.capacity_le

/-- Memory of at most half of the limit stays so if the index is at most a quarter of it. -/
theorem half_store {index : Int} (value : Int) (half : 2 * cells.capacity ≤ cellLimit)
    (small : 4 * index ≤ cellLimit) : 2 * (cells.store index value).2.capacity ≤ cellLimit := by
  rw [capacity_store]
  cases grown : cells.capacityFor? index with
  | none => exact half
  | some capacity =>
    simp only [capacityFor?] at grown
    rw [cellLimit] at half small grown ⊢
    rw [Option.getD_some]
    split_ifs at grown
    · cases grown
      exact half
    · cases grown
      omega

/-- Memory of more than half of the limit does not grow. -/
theorem capacity_store_of_large (large : cellLimit < 2 * cells.capacity) (index value : Int) :
    (cells.store index value).2.capacity = cells.capacity := by
  rw [capacity_store]
  cases grown : cells.capacityFor? index with
  | none => rfl
  | some capacity =>
    simp only [capacityFor?] at grown
    split_ifs at grown
    · exact (Option.some.inj grown).symm
    · omega

/-! ### Loading -/

/-- A cell holds what was stored in it, or it was never stored. -/
theorem Inside.load_eq (held : cells.Inside) (index : Nat) :
    cells.load index =
      match cells.stored[index]? with
      | some value => .ok value
      | none => .error (.unset index) := by
  simp only [load, place?, Int.natCast_nonneg, if_true, Int.toNat_natCast]
  split_ifs with inside
  · rfl
  · have absent : index ∉ cells.stored := fun member =>
      inside (Int.ofNat_lt.2 (held index member))
    rw [Std.HashMap.getElem?_eq_none absent]

/-- A cell is loaded, or it was never stored. -/
theorem load_cases (cells : Cells) (index : Nat) :
    (∃ value, cells.load index = .ok value) ∨ cells.load index = .error (.unset index) := by
  simp only [load, place?, Int.natCast_nonneg, if_true, Int.toNat_natCast]
  split
  · cases cells.stored[index]? with
    | none => exact .inr rfl
    | some value => exact .inl ⟨value, rfl⟩
  · exact .inr rfl

/-- A store that is taken changes the cell of its index and no other one. -/
theorem load_store (held : cells.Inside) {later : Cells}
    (taken : cells.store index value.toNat = (.ok (), later)) (other : Nat) :
    later.load other = if other = index then .ok value else cells.load other := by
  have heldLater : later.Inside := by
    have kept := held.store index value.toNat
    rwa [taken] at kept
  rw [heldLater.load_eq, held.load_eq]
  rcases cells.store_cases index value with ⟨capacity, -, stored⟩ | refused
  · rw [stored] at taken
    cases taken
    rw [Std.HashMap.getElem?_insert]
    by_cases same : index = other
    · rw [if_pos (beq_iff_eq.2 same), if_pos same.symm]
    · rw [if_neg (fun equal => same (beq_iff_eq.1 equal)), if_neg (Ne.symm same)]
  · rw [refused] at taken
    cases taken

/-! ### Stores in any order -/

/-- Stores words one after the other, up to the first one that is refused. -/
def storeAll : List (Nat × UInt64) → Cells → Except CellFailure Cells
  | [], cells => .ok cells
  | (index, value) :: rest, cells =>
    match cells.store index value.toNat with
    | (.ok (), later) => storeAll rest later
    | (.error failure, _) => .error failure

/-- Behind stores under distinct indexes each of their cells holds its word, and all others hold
what they held. -/
theorem load_storeAll {stores : List (Nat × UInt64)} {later : Cells} (held : cells.Inside)
    (distinct : (stores.map Prod.fst).Nodup) (taken : storeAll stores cells = .ok later) :
    later.load index = .ok value ↔ (index, value) ∈ stores ∨
      index ∉ stores.map Prod.fst ∧ cells.load index = .ok value := by
  induction stores generalizing cells with
  | nil =>
    cases taken
    simp
  | cons first rest inductionHypothesis =>
    obtain ⟨firstIndex, firstValue⟩ := first
    rw [List.map_cons, List.nodup_cons] at distinct
    rw [storeAll] at taken
    split at taken
    · next between stored =>
      have heldBetween : between.Inside := by
        have kept := held.store firstIndex firstValue.toNat
        rwa [stored] at kept
      rw [inductionHypothesis heldBetween distinct.2 taken, load_store held stored,
        List.mem_cons, List.map_cons, List.mem_cons, Prod.mk.injEq]
      by_cases same : index = firstIndex
      · subst same
        have none : (index, value) ∉ rest := fun member =>
          distinct.1 (List.mem_map.2 ⟨_, member, rfl⟩)
        simp [none, distinct.1, eq_comm]
      · simp [same]
    · cases taken

/-- Stores under distinct indexes leave the same cells in any order in which they are taken. -/
theorem load_eq_of_perm {first second : List (Nat × UInt64)} {firstLater secondLater : Cells}
    (bounded : cells.Bounded) (perm : first.Perm second) (distinct : (first.map Prod.fst).Nodup)
    (firstTaken : storeAll first cells = .ok firstLater)
    (secondTaken : storeAll second cells = .ok secondLater) (index : Nat) :
    firstLater.load index = secondLater.load index := by
  have distinctSecond : (second.map Prod.fst).Nodup := (perm.map Prod.fst).nodup_iff.1 distinct
  have same (value : UInt64) :
      firstLater.load index = .ok value ↔ secondLater.load index = .ok value := by
    rw [load_storeAll bounded.place_lt distinct firstTaken,
      load_storeAll bounded.place_lt distinctSecond secondTaken, perm.mem_iff,
      (perm.map Prod.fst).mem_iff]
  rcases firstLater.load_cases index with ⟨value, loaded⟩ | unset
  · rw [loaded, (same value).1 loaded]
  · rcases secondLater.load_cases index with ⟨value, loaded⟩ | unsetToo
    · rw [loaded, (same value).2 loaded]
    · rw [unset, unsetToo]

end Cells

/-! ### Runs -/

/-- An operation on scratch memory. -/
inductive CellOperation where
  | store (index value : Int)
  | load (index : Int)
  deriving DecidableEq

/-- The memory behind an operation, whether it succeeds or not. -/
def CellOperation.apply (cells : Cells) : CellOperation → Cells
  | store index value => (cells.store index value).2
  | load _ => cells

namespace Cells

variable {cells : Cells}

def applyAll (operations : List CellOperation) (cells : Cells) : Cells :=
  operations.foldl CellOperation.apply cells

/-- What every store in a run keeps is kept by the run. -/
theorem holds_applyAll (holds : Cells → Prop) {operations : List CellOperation}
    (keeps : ∀ index value : Int, .store index value ∈ operations →
      ∀ before, holds before → holds (before.store index value).2) (here : holds cells) :
    holds (applyAll operations cells) := by
  induction operations generalizing cells with
  | nil => exact here
  | cons operation rest inductionHypothesis =>
    have behind := fun index value member => keeps index value (List.mem_cons_of_mem _ member)
    refine inductionHypothesis behind ?_
    cases operation with
    | store index value => exact keeps index value List.mem_cons_self cells here
    | load index => exact here

/-- What scratch memory takes depends on what was done with it before, but only through its
capacity. It takes a word under an index that it has, or that is below the limit while its capacity
is at most half of the limit; any other store is refused and changes nothing. So all indexes below
the limit are taken if the memory was small at first and no index was more than a quarter of the
limit. But memory that has come to more than half of the limit has its capacity for ever, and takes
only the indexes below it. Stores under distinct indexes leave the same cells in any order in which
all are taken. -/
theorem taken_by_capacity {capacity : Nat} (within : capacity ≤ cellLimit)
    (history : List CellOperation) :
    let cells := applyAll history { capacity }
    (∀ (index : Nat) (value : UInt64),
      ((cells.store index value.toNat).1 = .ok () ↔
        index < cells.capacity ∨ index < cellLimit ∧ 2 * cells.capacity ≤ cellLimit) ∧
      ((cells.store index value.toNat).1 ≠ .ok () →
        cells.store index value.toNat = (.error (.outOfRange index), cells))) ∧
    (2 * capacity ≤ cellLimit →
      (∀ index value : Int, .store index value ∈ history → 4 * index ≤ cellLimit) →
      ∀ (index : Nat) (value : UInt64),
        (cells.store index value.toNat).1 = .ok () ↔ index < cellLimit) ∧
    (cellLimit < 2 * cells.capacity →
      ∀ (more : List CellOperation) (index : Nat) (value : UInt64),
        ((applyAll more cells).store index value.toNat).1 = .ok () ↔ index < cells.capacity) ∧
    ∀ first second firstLater secondLater, first.Perm second → (first.map Prod.fst).Nodup →
      storeAll first cells = .ok firstLater → storeAll second cells = .ok secondLater →
      ∀ index : Nat, firstLater.load index = secondLater.load index := by
  extract_lets cells
  have bounded : cells.Bounded :=
    holds_applyAll Bounded (fun index value _ before kept => kept.store index value)
      (bounded_empty within)
  refine ⟨fun index value => ⟨store_eq_ok_iff, fun failed => ?_⟩, fun half small index value => ?_,
    fun large more index value => ?_, fun first second firstLater secondLater perm distinct => ?_⟩
  · rcases cells.store_cases index value with ⟨_, -, stored⟩ | refused
    · exact absurd (by rw [stored]) failed
    · exact refused
  · have halfNow : 2 * cells.capacity ≤ cellLimit :=
      holds_applyAll (fun cells => 2 * cells.capacity ≤ cellLimit)
        (fun index value member _ kept => half_store value kept (small index value member)) half
    rw [store_eq_ok_iff, Admits]
    have limit := bounded.capacity_le
    omega
  · have same : (applyAll more cells).capacity = cells.capacity :=
      holds_applyAll (fun other => other.capacity = cells.capacity)
        (fun index value _ before kept =>
          (capacity_store_of_large (kept ▸ large) index value).trans kept) rfl
    rw [store_eq_ok_iff, Admits, same]
    omega
  · exact load_eq_of_perm bounded perm distinct

/-- Memory that was stored to in the middle is more than half as large as it may become, and takes
the index in the middle but not the next one. -/
theorem taken_by_capacity_middle :
    16 ≤ cellLimit ∧
      let cells := applyAll [.store 0x800000 1, .load 0x800001] { capacity := 16 }
      cellLimit < 2 * cells.capacity ∧ (cells.store 0x800000 (2 : UInt64).toNat).1 = .ok () ∧
        cells.store 0x800001 (2 : UInt64).toNat = (.error (.outOfRange 0x800001), cells) := by
  have within : 16 ≤ cellLimit := by decide
  obtain ⟨taken, -, settled, -⟩ :=
    taken_by_capacity within [.store 0x800000 1, .load 0x800001]
  have large : cellLimit <
      2 * (applyAll [.store 0x800000 1, .load 0x800001] { capacity := 16 }).capacity := by decide
  refine ⟨within, large, (settled large [] 0x800000 2).2 (by decide), ?_⟩
  refine (taken 0x800001 2).2 fun stored => ?_
  exact absurd ((settled large [] 0x800001 2).1 stored) (by decide)

/-- Two words can be stored in the order in which the larger index comes first. The other way round
the second one is refused, though its index is below the limit. -/
theorem storeAll_order :
    0x800001 < cellLimit ∧
      (∃ later, storeAll [(0x800001, 1), (0x800000, 2)] { capacity := 16 } = .ok later) ∧
      storeAll [(0x800000, 2), (0x800001, 1)] { capacity := 16 } =
        .error (.outOfRange 0x800001) :=
  ⟨by decide, ⟨_, rfl⟩, rfl⟩

end Cells

end HexEditor
