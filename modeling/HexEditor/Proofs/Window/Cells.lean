/-
Which cells of the screen belong to which offset. From an offset to its cells goes a formula: its
row is counted from the base, and its columns are told from its place in a row of the file. From a
cell back to the offset goes a search for the byte that has a digit in the column. The two are
inverse to each other on the whole screen, whatever part of the file it shows, because the base is
the start of a row: the place of an offset in a row of the file is then its place in a row of the
screen.
-/

import HexEditor.Window.Pointing
import Mathlib.Tactic.SplitIfs

namespace HexEditor

/-! ### Columns -/

/-- The digits of a byte stand in front of those of the bytes behind it. -/
theorem byteColumn_lt {first second : Int} (before : first < second) :
    byteColumn first + 1 < byteColumn second := by
  rw [byteColumn, byteColumn]
  split_ifs <;> omega

/-- The digits of all bytes of a row stand in the grid. -/
theorem byteColumn_bounds {byte : Int} (first : 0 ≤ byte) (last : byte < 16) :
    0 ≤ byteColumn byte ∧ byteColumn byte + 1 < gridWidth := by
  rw [byteColumn, gridWidth]
  split_ifs <;> omega

/-- The byte that is found under a column is the one that has a digit there; there is no other. -/
theorem byteAtColumn?_eq_some_iff {column : Int} {byte : Nat} :
    byteAtColumn? column = some byte ↔
      byte < 16 ∧ (column = byteColumn byte ∨ column = byteColumn byte + 1) := by
  have sound : ∀ {found : Nat}, byteAtColumn? column = some found →
      found < 16 ∧ (column = byteColumn found ∨ column = byteColumn found + 1) := by
    intro found search
    have covers := List.find?_some search
    rw [Bool.and_eq_true, decide_eq_true_iff, decide_eq_true_iff] at covers
    exact ⟨List.mem_range.1 (List.mem_of_find?_eq_some search), by omega⟩
  refine ⟨sound, fun ⟨inRow, covers⟩ => ?_⟩
  cases search : byteAtColumn? column with
  | none =>
    have apart := List.find?_eq_none.1 search byte (List.mem_range.2 inRow)
    rw [Bool.and_eq_true, decide_eq_true_iff, decide_eq_true_iff] at apart
    omega
  | some found =>
    obtain ⟨-, coversToo⟩ := sound search
    rcases Nat.lt_trichotomy found byte with before | same | behind
    · have order := byteColumn_lt (Int.ofNat_lt.2 before)
      omega
    · rw [same]
    · have order := byteColumn_lt (Int.ofNat_lt.2 behind)
      omega

namespace Window

/-- The byte under a column has its character there, or one of its digits. -/
theorem byteAt?_eq_some_iff {column byte : Int} :
    byteAt? column = some byte ↔ (0 ≤ byte ∧ byte < 16) ∧
      (column = charColumn + byte ∨ column = gridColumn + byteColumn byte ∨
        column = gridColumn + byteColumn byte + 1) := by
  have apart : gridColumn + gridWidth ≤ charColumn := by decide
  rw [byteAt?]
  split_ifs with digits characters
  · rw [Option.map_eq_some_iff]
    constructor
    · rintro ⟨index, found, rfl⟩
      have spec := byteAtColumn?_eq_some_iff.1 found
      omega
    · rintro ⟨⟨first, last⟩, place⟩
      obtain ⟨index, rfl⟩ := Int.eq_ofNat_of_zero_le first
      exact ⟨index, byteAtColumn?_eq_some_iff.2 ⟨by omega, by omega⟩, rfl⟩
  · rw [Option.some_inj]
    constructor
    · rintro rfl
      omega
    · rintro ⟨⟨first, last⟩, place⟩
      have bounds := byteColumn_bounds first last
      omega
  · refine ⟨nofun, fun ⟨⟨first, last⟩, place⟩ => ?_⟩
    have bounds := byteColumn_bounds first last
    omega

variable {window : Window} {column row offset : Int}

/-! ### What is on the screen -/

/-- An offset is on the screen. -/
def Shows (window : Window) (offset : Int) : Prop :=
  window.base ≤ offset ∧ offset < window.endOffset

/-- What is on the screen is in the file and on a row of the window. -/
theorem shows_iff (window : Window) (offset : Int) :
    window.Shows offset ↔ window.base ≤ offset ∧ offset < window.fileLength ∧
      offset < window.base + window.pageSize := by
  rw [Shows, endOffset]
  omega

theorem cursorVisible_iff : window.cursorVisible = true ↔ window.Shows window.cursor := by
  rw [cursorVisible, Bool.and_eq_true, decide_eq_true_iff, decide_eq_true_iff, Shows]

/-- The offset under a cell is that of a byte of the row, if the file goes so far. -/
theorem offsetAt_eq_some_iff :
    window.offsetAt column row = some offset ↔ (0 ≤ row ∧ row < window.visibleRows) ∧
      ∃ byte, byteAt? column = some byte ∧ offset = window.base + row * 16 + byte ∧
        offset < window.fileLength := by
  rw [offsetAt]
  split_ifs with onScreen
  · rw [and_iff_right onScreen]
    cases byteAt? column with
    | none => exact ⟨nofun, nofun⟩
    | some byte =>
      dsimp only
      split_ifs with inFile
      · constructor
        · rintro ⟨rfl⟩
          exact ⟨byte, rfl, rfl, inFile⟩
        · rintro ⟨_, ⟨rfl⟩, rfl, -⟩
          rfl
      · refine ⟨nofun, ?_⟩
        rintro ⟨_, ⟨rfl⟩, rfl, short⟩
        exact absurd short inFile
  · exact ⟨nofun, fun ⟨shown, _⟩ => absurd shown onScreen⟩

/-! ### The cells of an offset -/

/-- A cell belongs to an offset: it is the place of its character or of its first digit, or it is to
the right of that. -/
def IsCell (window : Window) (offset column row : Int) : Prop :=
  window.positionIn offset "char" = .ok (some (column, row)) ∨
    window.positionIn offset "hex" = .ok (some (column, row)) ∨
    window.positionIn offset "hex" = .ok (some (column - 1, row))

theorem positionIn_hex (window : Window) (offset : Int) :
    window.positionIn offset "hex" = .ok (window.positionOf offset .digits) :=
  rfl

theorem positionIn_char (window : Window) (offset : Int) :
    window.positionIn offset "char" = .ok (window.positionOf offset .characters) :=
  rfl

theorem positionOf_of_shows (shown : window.Shows offset) (field : RowField) :
    window.positionOf offset field =
      let row := (offset - window.base) / 16
      match field with
      | .digits => some (gridColumn + byteColumn (offset % 16), row)
      | .characters => some (charColumn + offset % 16, row)
      | .address => some (0, row) :=
  if_pos shown

theorem positionOf_of_hidden (hidden : ¬ window.Shows offset) (field : RowField) :
    window.positionOf offset field = none :=
  if_neg hidden

theorem isCell_iff :
    window.IsCell offset column row ↔ window.Shows offset ∧ row = (offset - window.base) / 16 ∧
      (column = charColumn + offset % 16 ∨ column = gridColumn + byteColumn (offset % 16) ∨
        column = gridColumn + byteColumn (offset % 16) + 1) := by
  by_cases shown : window.Shows offset
  · simp only [IsCell, positionIn_hex, positionIn_char, positionOf_of_shows shown, shown,
      Except.ok.injEq, Option.some.injEq, Prod.mk.injEq, true_and]
    omega
  · simp only [IsCell, positionIn_hex, positionIn_char, positionOf_of_hidden shown, shown,
      Except.ok.injEq, reduceCtorEq, or_self, false_and]

/-- On a screen that begins with a row of the file, the offset under a cell is the one that the cell
belongs to. -/
theorem offsetAt_iff_isCell (aligned : 16 ∣ window.base) :
    window.offsetAt column row = some offset ↔ window.IsCell offset column row := by
  rw [offsetAt_eq_some_iff, isCell_iff, shows_iff, pageSize]
  constructor
  · rintro ⟨onScreen, byte, under, rfl, inFile⟩
    obtain ⟨inRow, place⟩ := byteAt?_eq_some_iff.1 under
    have byte_eq : (window.base + row * 16 + byte) % 16 = byte := by omega
    rw [byte_eq]
    exact ⟨by omega, by omega, place⟩
  · rintro ⟨shown, rfl, place⟩
    exact ⟨by omega, offset % 16, byteAt?_eq_some_iff.2 ⟨by omega, place⟩, by omega, by omega⟩

/-- Cells and offsets are told from one another both ways. Just the offsets on the screen have a
place in the two fields, the offset under a cell is the one that has its character or one of its
digits there, and no cell belongs to two offsets. -/
theorem cells_and_offsets (aligned : 16 ∣ window.base) :
    (∀ offset, ∀ field ∈ ["hex", "char"],
      (window.Shows offset → ∃ place, window.positionIn offset field = .ok (some place)) ∧
        (¬ window.Shows offset → window.positionIn offset field = .ok none)) ∧
      (∀ column row offset,
        window.offsetAt column row = some offset ↔ window.IsCell offset column row) ∧
      (∀ column row offset, window.IsCell offset column row → window.Shows offset) ∧
      ∀ column row first second, window.IsCell first column row →
        window.IsCell second column row → first = second := by
  refine ⟨fun offset field member => ?_, fun _ _ _ => offsetAt_iff_isCell aligned,
    fun _ _ _ cell => (isCell_iff.1 cell).1, fun column row first second here there => ?_⟩
  · simp only [List.mem_cons, List.not_mem_nil, or_false] at member
    rcases member with rfl | rfl <;>
      exact ⟨fun shown => ⟨_, congrArg Except.ok (positionOf_of_shows shown _)⟩,
        fun hidden => congrArg Except.ok (positionOf_of_hidden hidden _)⟩
  · rw [← offsetAt_iff_isCell aligned] at here there
    exact Option.some.inj (here.symm.trans there)

/-- The last byte of a file that ends within a row, and what would be the byte behind it. -/
theorem cells_and_offsets_lastByte :
    let window : Window := { fileLength := 100, height := 5, base := 64 }
    (16 : Int) ∣ window.base ∧ window.offsetAt 29 2 = some 99 ∧ window.IsCell 99 29 2 ∧
      window.positionIn 100 "hex" = .ok none := by
  intro window
  have aligned : (16 : Int) ∣ window.base := by decide
  obtain ⟨places, cells, -, -⟩ := cells_and_offsets aligned
  have found : window.offsetAt 29 2 = some 99 := by decide
  exact ⟨aligned, found, (cells 29 2 99).1 found,
    (places 100 "hex" List.mem_cons_self).2 fun shown => absurd shown.2 (by decide)⟩

end Window

end HexEditor
