/-
Where the window stands on its file. However the window is moved, its base is the start
of a row and its cursor is in the file; and as long as the screen has room for a row,
the window ends no further than the last row of the file and shows the cursor. A screen
that is too low for a row shows nothing, so the cursor is out of sight there; the next
height with room for a row brings it back. Neither the base nor the cursor can be kept
in place alone: that a move of the window leaves the cursor on the screen depends on
where rows begin, and on where the last one ends.
-/

import HexEditor.Proofs.Window
import HexEditor.Proofs.Window.Cells

namespace HexEditor.Window

/-! ### Rows -/

theorem rowStartOf_spec (offset : Int) :
    16 ∣ rowStartOf offset ∧ rowStartOf offset ≤ offset ∧ offset < rowStartOf offset + 16 := by
  rw [rowStartOf]
  omega

theorem rowEndOf_spec (offset : Int) :
    16 ∣ rowEndOf offset ∧ offset ≤ rowEndOf offset ∧ rowEndOf offset < offset + 16 := by
  have spec := rowStartOf_spec (offset + 15)
  rw [rowEndOf]
  omega

/-- What is brought into a range lies in it, and is unchanged if it was there. -/
theorem clamp_spec {low high : Int} (value : Int) (ordered : low ≤ high) :
    low ≤ clamp value low high ∧ clamp value low high ≤ high ∧
      (low ≤ value → value ≤ high → clamp value low high = value) := by
  rw [clamp]
  split_ifs <;> omega

/-- A page is made of whole rows. -/
theorem pageSize_spec (window : Window) :
    16 ∣ window.pageSize ∧ 0 ≤ window.pageSize ∧ (3 ≤ window.height ↔ 16 ≤ window.pageSize) ∧
      (window.visibleRows = 0 ↔ window.pageSize = 0) := by
  rw [pageSize, visibleRows]
  omega

/-- The last offset is the one before the end, or the start of an empty file. -/
theorem lastOffset_spec (window : Window) :
    0 ≤ window.lastOffset ∧ (0 < window.fileLength → window.lastOffset = window.fileLength - 1) ∧
      (window.fileLength ≤ 0 → window.lastOffset = 0) := by
  rw [lastOffset]
  omega

/-- At the tail a window reaches the end of the file, and unless it is at the start it ends with the
row in which the file ends. -/
theorem tailBase_spec (window : Window) :
    16 ∣ window.tailBase ∧ 0 ≤ window.tailBase ∧
      window.fileLength ≤ window.tailBase + window.pageSize ∧
      (window.tailBase = 0 ∨ window.tailBase + window.pageSize < window.fileLength + 16) := by
  have page := window.pageSize_spec
  have rows := rowEndOf_spec window.fileLength
  rw [tailBase]
  omega

/-- A base that is the start of a row lies in front of the tail just as far as its window ends in
front of the end of the file. -/
theorem min_tailBase (window : Window) {base : Int} (aligned : 16 ∣ base) (natural : 0 ≤ base) :
    (window.fileLength ≤ base + window.pageSize → min base window.tailBase = window.tailBase) ∧
      (base + window.pageSize ≤ window.fileLength → min base window.tailBase = base) := by
  have page := window.pageSize_spec
  have tail := window.tailBase_spec
  omega

/-! ### The invariant -/

/-- The base is the start of a row, the cursor is in the file, and a window that has room for a row
ends no further than the last row. -/
structure Inside (window : Window) : Prop where
  length_nonneg : 0 ≤ window.fileLength
  base_aligned : 16 ∣ window.base
  base_nonneg : 0 ≤ window.base
  cursor_nonneg : 0 ≤ window.cursor
  cursor_le : window.cursor ≤ window.lastOffset
  base_le : 3 ≤ window.height → window.base ≤ window.tailBase

/-- Besides, a window that has room for a row shows the cursor. -/
structure WellPlaced (window : Window) : Prop extends Inside window where
  visible : 3 ≤ window.height → 0 < window.fileLength →
    window.base ≤ window.cursor ∧ window.cursor < window.endOffset

variable {window : Window}

/-- A window is well placed at a base and with a cursor that meet the conditions; what is typed does
not matter. -/
theorem Inside.placeAt (inside : window.Inside) {base cursor nibble : Int} (aligned : 16 ∣ base)
    (first : 0 ≤ base) (start : 0 ≤ cursor) (inFile : cursor ≤ window.lastOffset)
    (ends : 3 ≤ window.height → base ≤ window.tailBase)
    (shows : 3 ≤ window.height → 0 < window.fileLength →
      base ≤ cursor ∧ cursor < base + window.pageSize) :
    WellPlaced { window with base, cursor, nibble } := by
  refine ⟨⟨inside.length_nonneg, aligned, first, start, inFile, ends⟩, fun room some => ?_⟩
  obtain ⟨above, below⟩ := shows room some
  have last := (window.lastOffset_spec).2.1 some
  refine ⟨above, ?_⟩
  show cursor < min window.fileLength (base + window.pageSize)
  omega

/-- What is on the screen is on a row of the window and in the file. -/
theorem WellPlaced.shown (placed : window.WellPlaced) (room : 3 ≤ window.height)
    (some : 0 < window.fileLength) :
    window.base ≤ window.cursor ∧ window.cursor < window.base + window.pageSize ∧
      window.cursor < window.fileLength := by
  obtain ⟨above, below⟩ := placed.visible room some
  rw [endOffset] at below
  omega

/-! ### Jumps -/

/-- Revealing the cursor makes a window well placed of which the cursor is in the file. -/
theorem Inside.reveal (inside : window.Inside) (recenter : Bool) :
    (window.reveal recenter).WellPlaced := by
  have page := window.pageSize_spec
  have row := rowStartOf_spec window.cursor
  have tail := window.tailBase_spec
  have last := window.lastOffset_spec
  have half := rowStartOf_spec (window.pageSize / 2)
  have ⟨_, _, _, start, inFile, ends⟩ := inside
  dsimp only [Window.reveal]
  split_ifs with recentered visible behindTail above below
  · -- the cursor is on the screen already
    rw [cursorVisible, Bool.and_eq_true, decide_eq_true_iff, decide_eq_true_iff] at visible
    exact ⟨inside, fun _ _ => visible⟩
  · -- centred, the window would end behind the file, so it goes to the tail
    exact inside.placeAt tail.1 tail.2.1 start inFile (fun _ => Int.le_refl _) (by omega)
  · exact inside.placeAt (by omega) (Int.le_max_left _ _) start inFile (by omega) (by omega)
  · -- the cursor comes to the first row
    exact inside.placeAt row.1 (by omega) start inFile (by omega) (by omega)
  · -- the cursor comes to the last row
    rw [endOffset] at below
    exact inside.placeAt (by omega) (Int.le_max_left _ _) start inFile (by omega) (by omega)
  · rw [endOffset] at below
    exact ⟨inside, fun _ _ => ⟨by omega, by rw [endOffset]; omega⟩⟩

/-- The window with its cursor at an offset, or at the nearest one that there is. -/
def aimedAt (window : Window) (target : Int) : Window :=
  { window with cursor := max 0 (min target window.lastOffset), nibble := 0 }

theorem Inside.aimedAt (inside : window.Inside) (target : Int) :
    (window.aimedAt target).Inside := by
  have last := window.lastOffset_spec
  exact ⟨inside.length_nonneg, inside.base_aligned, inside.base_nonneg, Int.le_max_left _ _,
    (by omega : max 0 (min target window.lastOffset) ≤ window.lastOffset), inside.base_le⟩

/-- A jump aims the cursor and brings it onto the screen. -/
theorem goto_eq (window : Window) (target : Int) (recenter : Bool) :
    window.goto target recenter = (window.aimedAt target).reveal recenter := by
  have last := window.lastOffset_spec
  have cursor : clamp target 0 window.lastOffset = max 0 (min target window.lastOffset) := by
    rw [clamp]
    split_ifs <;> omega
  rw [goto, cursor]
  rfl

/-- The cursor goes to its target, or to the end of the file that is nearer. -/
theorem cursor_goto (window : Window) (target : Int) (recenter : Bool) :
    (window.goto target recenter).cursor = max 0 (min target window.lastOffset) := by
  have kept (aimed : Window) : (aimed.reveal recenter).cursor = aimed.cursor := by
    dsimp only [reveal]
    split_ifs <;> rfl
  rw [goto_eq, kept]
  rfl

theorem WellPlaced.goto (placed : window.WellPlaced) (target : Int) (recenter : Bool) :
    (window.goto target recenter).WellPlaced := by
  rw [goto_eq]
  exact (placed.aimedAt target).reveal recenter

/-- A new height and a new length of the file bring the base and the cursor back into the file. -/
theorem WellPlaced.resize (placed : window.WellPlaced) (height : Int) {fileLength : Option Int}
    (nonneg : ∀ length ∈ fileLength, 0 ≤ length) :
    (window.resize height fileLength).WellPlaced := by
  have long : 0 ≤ fileLength.getD window.fileLength := by
    cases fileLength with
    | none => exact placed.length_nonneg
    | some length => exact nonneg length rfl
  let resized : Window := { window with height, fileLength := fileLength.getD window.fileLength }
  have spec := clamp_spec window.cursor resized.lastOffset_spec.1
  have tail := resized.tailBase_spec
  have row := rowStartOf_spec window.base
  have first := placed.base_nonneg
  have inside : Inside { resized with
      cursor := clamp window.cursor 0 resized.lastOffset
      base := min (rowStartOf window.base) resized.tailBase } := by
    refine ⟨long, ?_, ?_, spec.1, spec.2.1, fun _ => Int.min_le_right _ _⟩
    · show 16 ∣ min (rowStartOf window.base) resized.tailBase
      omega
    · show 0 ≤ min (rowStartOf window.base) resized.tailBase
      omega
  exact inside.reveal false

/-! ### Moves by a byte or a row -/

/-- Where a window is does not depend on the digits that are typed. -/
theorem WellPlaced.withNibble (placed : window.WellPlaced) (nibble : Int) :
    WellPlaced { window with nibble } :=
  ⟨⟨placed.length_nonneg, placed.base_aligned, placed.base_nonneg, placed.cursor_nonneg,
    placed.cursor_le, placed.base_le⟩, placed.visible⟩

theorem WellPlaced.resetNibble (placed : window.WellPlaced) : window.resetNibble.WellPlaced :=
  placed.withNibble 0

theorem up_of_le (more : 16 ≤ window.cursor) :
    window.up = { window with
      base := if window.cursor < window.base + 16 then max 0 (window.base - 16) else window.base
      cursor := window.cursor - 16
      nibble := 0 } :=
  if_pos more

theorem WellPlaced.up (placed : window.WellPlaced) : window.up.WellPlaced := by
  replace placed := placed.resetNibble
  dsimp only [Window.up]
  generalize window.resetNibble = window at placed ⊢
  have ⟨⟨_, aligned, first, _, inFile, ends⟩, _⟩ := placed
  have shown := placed.shown
  split_ifs with more firstRow
  · -- the cursor leaves the first row, and the window follows by a row
    exact placed.placeAt (by omega) (Int.le_max_left _ _) (by omega) (by omega) (by omega)
      (by omega)
  · exact placed.placeAt aligned first (by omega) (by omega) ends (by omega)
  · exact placed

theorem WellPlaced.down (placed : window.WellPlaced) : window.down.WellPlaced := by
  replace placed := placed.resetNibble
  dsimp only [Window.down]
  generalize window.resetNibble = window at placed ⊢
  have page := window.pageSize_spec
  have tail := window.tailBase_spec
  have last := window.lastOffset_spec
  have ⟨⟨_, aligned, first, start, _, ends⟩, _⟩ := placed
  have shown := placed.shown
  split_ifs with more lastRow
  · -- the row behind the window is in the file, so the window can follow by a row
    rw [endOffset] at lastRow
    exact placed.placeAt (by omega) (by omega) (by omega) (by omega) (by omega) (by omega)
  · rw [endOffset] at lastRow
    exact placed.placeAt aligned first (by omega) (by omega) ends (by omega)
  · exact placed

theorem WellPlaced.right (placed : window.WellPlaced) : window.right.WellPlaced := by
  replace placed := placed.resetNibble
  dsimp only [Window.right]
  generalize window.resetNibble = window at placed ⊢
  have page := window.pageSize_spec
  have last := window.lastOffset_spec
  have ⟨⟨_, aligned, first, start, inFile, ends⟩, _⟩ := placed
  have shown := placed.shown
  split_ifs with more rowEnd
  · -- the first byte of the row is on the screen too
    have atStart : WellPlaced { window with cursor := window.cursor - 15 } :=
      placed.placeAt aligned first (by omega) (by omega) ends (by omega)
    exact atStart.down
  · exact placed.placeAt aligned first (by omega) (by omega) ends (by omega)
  · exact placed

theorem WellPlaced.left (placed : window.WellPlaced) : window.left.WellPlaced := by
  replace placed := placed.resetNibble
  dsimp only [Window.left]
  generalize window.resetNibble = window at placed ⊢
  have page := window.pageSize_spec
  have ⟨⟨_, aligned, first, start, inFile, ends⟩, _⟩ := placed
  have shown := placed.shown
  split_ifs with more rowStart
  · -- the last byte of the row may be behind the file, so moving up from there is looked at anew
    have above : 16 ≤ window.cursor + 15 := by omega
    rw [up_of_le above]
    dsimp only
    split_ifs with firstRow
    · exact placed.placeAt (by omega) (Int.le_max_left _ _) (by omega) (by omega) (by omega)
        (by omega)
    · exact placed.placeAt aligned first (by omega) (by omega) ends (by omega)
  · exact placed.placeAt aligned first (by omega) (by omega) ends (by omega)
  · exact placed

theorem WellPlaced.rowStart (placed : window.WellPlaced) : window.rowStart.WellPlaced := by
  have row := rowStartOf_spec window.cursor
  have ⟨⟨_, aligned, _, start, inFile, _⟩, _⟩ := placed
  have shown := placed.shown
  show WellPlaced { window with
    base := window.base
    cursor := rowStartOf window.cursor
    nibble := 0 }
  exact placed.placeAt aligned placed.base_nonneg (by omega) (by omega) placed.base_le (by omega)

theorem WellPlaced.rowEnd (placed : window.WellPlaced) : window.rowEnd.WellPlaced := by
  have row := rowStartOf_spec window.cursor
  have last := window.lastOffset_spec
  have page := window.pageSize_spec
  have aligned := placed.base_aligned
  have start := placed.cursor_nonneg
  have shown := placed.shown
  show WellPlaced { window with
    base := window.base
    cursor := min (rowStartOf window.cursor + 15) window.lastOffset
    nibble := 0 }
  exact placed.placeAt aligned placed.base_nonneg (by omega) (Int.min_le_right _ _) placed.base_le
    (by omega)

/-! ### Pages and the wheel -/

theorem WellPlaced.pageUp (placed : window.WellPlaced) : window.pageUp.WellPlaced := by
  have page := window.pageSize_spec
  have last := window.lastOffset_spec
  have ⟨⟨_, aligned, first, _, inFile, ends⟩, _⟩ := placed
  have shown := placed.shown
  exact placed.placeAt (by omega) (Int.le_max_left _ _) (Int.le_max_left _ _) (by omega) (by omega)
    (by omega)

theorem WellPlaced.pageDown (placed : window.WellPlaced) : window.pageDown.WellPlaced := by
  have page := window.pageSize_spec
  have tail := window.tailBase_spec
  have last := window.lastOffset_spec
  have ⟨⟨_, aligned, first, start, _, _⟩, _⟩ := placed
  have shown := placed.shown
  dsimp only [Window.pageDown]
  split_ifs with behindTail
  · exact placed.placeAt tail.1 tail.2.1 (by omega) (Int.min_le_right _ _) (fun _ => Int.le_refl _)
      (by omega)
  · exact placed.placeAt (by omega) (by omega) (by omega) (Int.min_le_right _ _) (by omega)
      (by omega)

theorem WellPlaced.scrollUp (placed : window.WellPlaced) {amount : Int} (nonneg : 0 ≤ amount)
    (rows : 16 ∣ amount) : (window.scrollUp amount).WellPlaced := by
  have page := window.pageSize_spec
  have last := window.lastOffset_spec
  have ⟨⟨_, aligned, first, start, inFile, ends⟩, _⟩ := placed
  have shown := placed.shown
  dsimp only [Window.scrollUp]
  split_ifs with noRow fallsOff
  · exact placed
  · -- the cursor was behind the new end, so it finds its place in the last row of the window
    replace fallsOff : min window.fileLength (max 0 (window.base - amount) + window.pageSize) ≤
      window.cursor := fallsOff
    have spec := clamp_spec (min window.fileLength (max 0 (window.base - amount) +
      window.pageSize) - 16 + window.cursor % 16) last.1
    show WellPlaced { window with
      base := max 0 (window.base - amount)
      cursor := clamp (min window.fileLength (max 0 (window.base - amount) + window.pageSize) - 16 +
        window.cursor % 16) 0 window.lastOffset }
    refine placed.placeAt (by omega) (Int.le_max_left _ _) spec.1 spec.2.1 (by omega) ?_
    intro room some
    rw [spec.2.2 (by omega) (by omega)]
    omega
  · replace fallsOff : ¬ min window.fileLength (max 0 (window.base - amount) + window.pageSize) ≤
      window.cursor := fallsOff
    exact placed.placeAt (by omega) (Int.le_max_left _ _) start inFile (by omega) (by omega)

theorem WellPlaced.scrollDown (placed : window.WellPlaced) {amount : Int} (nonneg : 0 ≤ amount)
    (rows : 16 ∣ amount) : (window.scrollDown amount).WellPlaced := by
  have page := window.pageSize_spec
  have tail := window.tailBase_spec
  have last := window.lastOffset_spec
  have ⟨⟨_, aligned, first, start, inFile, ends⟩, _⟩ := placed
  have shown := placed.shown
  dsimp only [Window.scrollDown]
  split_ifs with noMore toTail above above
  · exact placed
  · show WellPlaced { window with
      base := window.tailBase
      cursor := min (window.tailBase + window.cursor % 16) window.lastOffset }
    exact placed.placeAt tail.1 tail.2.1 (by omega) (Int.min_le_right _ _) (fun _ => Int.le_refl _)
      (by omega)
  · exact placed.placeAt tail.1 tail.2.1 start inFile (fun _ => Int.le_refl _) (by omega)
  · show WellPlaced { window with
      base := window.base + amount
      cursor := min (window.base + amount + window.cursor % 16) window.lastOffset }
    exact placed.placeAt (by omega) (by omega) (by omega) (Int.min_le_right _ _) (by omega)
      (by omega)
  · exact placed.placeAt (by omega) (by omega) start inFile (by omega) (by omega)

/-! ### Pointers -/

/-- The byte at a place on the screen is in the file and on a row of the window. -/
theorem offsetAt_bounds {column row offset : Int}
    (found : window.offsetAt column row = some offset) :
    window.base ≤ offset ∧ offset < window.base + window.pageSize ∧ offset < window.fileLength := by
  obtain ⟨onScreen, byte, under, rfl, inFile⟩ := offsetAt_eq_some_iff.1 found
  have inRow := (byteAt?_eq_some_iff.1 under).1
  rw [pageSize]
  omega

/-- A pointer scrolls by whole rows, or moves the cursor to a byte on the screen. -/
theorem WellPlaced.point (placed : window.WellPlaced) (report : PointerReport) :
    (window.point report).2.WellPlaced := by
  have last := window.lastOffset_spec
  have first := placed.base_nonneg
  rcases window.point_cases report with same | same | same | ⟨offset, found, same⟩ <;> rw [same]
  · exact placed
  · exact placed.scrollUp (by decide) (by decide)
  · exact placed.scrollDown (by decide) (by decide)
  · obtain ⟨above, below, inFile⟩ := offsetAt_bounds found
    exact placed.placeAt placed.base_aligned first (by omega) (by omega) placed.base_le
      fun _ _ => ⟨above, below⟩

/-! ### Runs -/

/-- A move of the window; scrolling goes by whole rows. -/
inductive Move where
  | up
  | down
  | left
  | right
  | rowStart
  | rowEnd
  | pageUp
  | pageDown
  | scrollUp (rows : Nat)
  | scrollDown (rows : Nat)
  | reveal (recenter : Bool)
  | goto (target : Int) (recenter : Bool)
  | resize (height : Int) (fileLength : Option Nat)
  | point (report : PointerReport)

namespace Move

/-- The window behind a move. -/
def apply : Move → Window → Window
  | up, window => window.up
  | down, window => window.down
  | left, window => window.left
  | right, window => window.right
  | rowStart, window => window.rowStart
  | rowEnd, window => window.rowEnd
  | pageUp, window => window.pageUp
  | pageDown, window => window.pageDown
  | scrollUp rows, window => window.scrollUp (16 * rows)
  | scrollDown rows, window => window.scrollDown (16 * rows)
  | reveal recenter, window => window.reveal recenter
  | goto target recenter, window => window.goto target recenter
  | resize height fileLength, window =>
    window.resize height (fileLength.map fun (length : Nat) => length)
  | point report, window => (window.point report).2

def applyAll (moves : List Move) (window : Window) : Window :=
  moves.foldl (fun window move => move.apply window) window

end Move

/-- A move leaves the length that the window takes the file to have and the height of the screen,
unless it is given new ones. -/
theorem Move.alike_apply (window : Window) {move : Move}
    (stays : ∀ height length, move ≠ .resize height length) :
    Alike window (move.apply window) := by
  cases move with
  | up => exact window.alike_up
  | down => exact window.alike_down
  | left => exact window.alike_left
  | right => exact window.alike_right
  | rowStart => exact ⟨rfl, rfl⟩
  | rowEnd => exact ⟨rfl, rfl⟩
  | pageUp => exact ⟨rfl, rfl⟩
  | pageDown => exact ⟨rfl, rfl⟩
  | scrollUp rows => exact window.alike_scrollUp _
  | scrollDown rows => exact window.alike_scrollDown _
  | reveal recenter => exact window.alike_reveal recenter
  | goto target recenter => exact window.alike_goto target recenter
  | resize height length => exact absurd rfl (stays height length)
  | point report => exact window.alike_point report

/-- Every move leaves a well placed window well placed. -/
theorem WellPlaced.apply (placed : window.WellPlaced) (move : Move) :
    (move.apply window).WellPlaced := by
  cases move with
  | up => exact placed.up
  | down => exact placed.down
  | left => exact placed.left
  | right => exact placed.right
  | rowStart => exact placed.rowStart
  | rowEnd => exact placed.rowEnd
  | pageUp => exact placed.pageUp
  | pageDown => exact placed.pageDown
  | scrollUp rows => exact placed.scrollUp (by omega) (Int.dvd_mul_right _ _)
  | scrollDown rows => exact placed.scrollDown (by omega) (Int.dvd_mul_right _ _)
  | reveal recenter => exact placed.toInside.reveal recenter
  | goto target recenter => exact placed.goto target recenter
  | resize height fileLength =>
    refine placed.resize height fun length given => ?_
    obtain ⟨natural, _, rfl⟩ := Option.map_eq_some_iff.1 given
    exact Int.natCast_nonneg natural
  | point report => exact placed.point report

theorem WellPlaced.applyAll (placed : window.WellPlaced) (moves : List Move) :
    (Move.applyAll moves window).WellPlaced := by
  induction moves generalizing window with
  | nil => exact placed
  | cons move rest inductionHypothesis => exact inductionHypothesis (placed.apply move)

/-- A window that has not been moved yet is at the start of its file. -/
theorem wellPlaced_new (fileLength : Nat) (height : Int) :
    WellPlaced { fileLength, height } := by
  have inside : Inside { fileLength, height } :=
    ⟨Int.natCast_nonneg _, Int.dvd_zero 16, Int.le_refl 0, Int.le_refl 0, Int.le_max_left _ _,
      fun _ => Int.le_max_left _ _⟩
  refine inside.placeAt inside.base_aligned (Int.le_refl 0) (Int.le_refl 0) inside.cursor_le
    inside.base_le fun room _ => ⟨Int.le_refl 0, ?_⟩
  have row := (pageSize_spec { fileLength, height }).2.2.1.1 room
  omega

/-- However a new window is moved, its base is the start of a row and its cursor is in the file, and
on a screen with room for a row it ends no further than the last row of the file and shows the
cursor. -/
theorem shows_cursor_of_moves (fileLength : Nat) (height : Int) (moves : List Move) :
    let window := Move.applyAll moves { fileLength, height }
    (0 ≤ window.base ∧ 16 ∣ window.base) ∧
      (0 ≤ window.cursor ∧ window.cursor ≤ window.lastOffset) ∧
      (3 ≤ window.height →
        window.base ≤ max 0 (rowEndOf window.fileLength - window.pageSize) ∧
          (0 < window.fileLength →
            window.base ≤ window.cursor ∧ window.cursor < window.endOffset)) := by
  have placed := (wellPlaced_new fileLength height).applyAll moves
  exact ⟨⟨placed.base_nonneg, placed.base_aligned⟩, ⟨placed.cursor_nonneg, placed.cursor_le⟩,
    fun room => ⟨placed.base_le room, placed.visible room⟩⟩

end HexEditor.Window
