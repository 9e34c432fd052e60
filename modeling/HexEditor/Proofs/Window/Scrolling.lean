/-
Where the window stands after pages and turns of the wheel. The window moves exactly as far as it
is asked to, but not in front of the start of the file and not behind the tail, where the last row
of the file is at the bottom of the screen. That it ends behind the file is told from its end, and
that is as good as telling it from the tail, since windows begin and end with whole rows. The wheel
leaves the cursor as long as it is on the screen, and a page takes it along.
-/

import HexEditor.Proofs.Window.Jumps

namespace HexEditor.Window

variable {window : Window} {amount : Int}

/-! ### The wheel -/

/-- The window at another base. The cursor stays if it is still on the screen. Otherwise it goes to
its column of a row, or to the last byte of the file if that row ends in front of it. -/
def scrolledTo (window : Window) (base row : Int) : Window :=
  let scrolled := { window with base }
  if scrolled.cursorVisible then scrolled
  else { scrolled with cursor := min (row + window.cursor % 16) window.lastOffset }

theorem scrolledTo_of_shows {base row : Int} (shown : Shows { window with base } window.cursor) :
    window.scrolledTo base row = { window with base } :=
  if_pos (cursorVisible_iff.2 shown)

theorem scrolledTo_of_hidden {base row : Int}
    (hidden : ¬ Shows { window with base } window.cursor) :
    window.scrolledTo base row =
      { window with base, cursor := min (row + window.cursor % 16) window.lastOffset } :=
  if_neg (mt cursorVisible_iff.1 hidden)

/-- A cursor that is in front of the end of the window can only be off the screen above it. -/
theorem firstRow_eq_scrolledTo (before : window.cursor < window.endOffset) :
    (if window.cursor < window.base then
        { window with cursor := min (window.base + window.cursor % 16) window.lastOffset }
      else window) = window.scrolledTo window.base window.base := by
  split_ifs with above
  · exact (scrolledTo_of_hidden fun shown => Int.not_lt.2 shown.1 above).symm
  · exact (scrolledTo_of_shows ⟨Int.not_lt.1 above, before⟩).symm

/-- A cursor behind the start of the window can only be off the screen below it. There are bytes
behind the window then, so its last row is a whole one. -/
theorem lastRow_eq_scrolledTo (room : 3 ≤ window.height) (first : 0 ≤ window.base)
    (behind : window.base ≤ window.cursor) (inFile : window.cursor < window.fileLength) :
    (if window.endOffset ≤ window.cursor then
        { window with
          cursor := clamp (window.endOffset - 16 + window.cursor % 16) 0 window.lastOffset }
      else window) =
      window.scrolledTo window.base (window.base + window.pageSize - 16) := by
  have page := window.pageSize_spec
  have last := window.lastOffset_spec
  split_ifs with below
  · rw [scrolledTo_of_hidden fun shown => Int.not_lt.2 below shown.2]
    have stop : window.endOffset = window.base + window.pageSize := by
      rw [endOffset] at below ⊢
      omega
    have column : clamp (window.endOffset - 16 + window.cursor % 16) 0 window.lastOffset =
        min (window.base + window.pageSize - 16 + window.cursor % 16) window.lastOffset := by
      rw [stop, clamp]
      split_ifs <;> omega
    rw [column]
  · exact (scrolledTo_of_shows ⟨behind, Int.not_le.1 below⟩).symm

theorem scrollDown_eq (placed : window.WellPlaced) (room : 3 ≤ window.height)
    (some : 0 < window.fileLength) (nonneg : 0 ≤ amount) (rows : 16 ∣ amount) :
    window.scrollDown amount = window.scrolledTo (min (window.base + amount) window.tailBase)
      (min (window.base + amount) window.tailBase) := by
  have page := window.pageSize_spec
  have first := placed.base_nonneg
  have aligned := placed.base_aligned
  have ends := placed.base_le room
  obtain ⟨above, below, inFile⟩ := placed.shown room some
  have ⟨toTail, within⟩ := min_tailBase window
    (by omega : 16 ∣ window.base + amount) (by omega)
  by_cases atTail : window.fileLength ≤ window.base + window.pageSize
  · -- the end of the file is on the screen, so the window is at the tail
    have stays : window.scrollDown amount = window := if_pos (.inr atTail)
    have base : min (window.base + amount) window.tailBase = window.base := by
      have tail := (min_tailBase window aligned first).1 atTail
      omega
    rw [base, stays]
    exact (scrolledTo_of_shows (placed.visible room some)).symm
  · have more : ¬ (window.visibleRows = 0 ∨ window.fileLength ≤ window.base + window.pageSize) := by
      omega
    have base : (if window.fileLength ≤ window.base + window.pageSize + amount then window.tailBase
        else window.base + amount) = min (window.base + amount) window.tailBase := by
      split_ifs with behindTail
      · exact (toTail (by omega)).symm
      · exact (within (by omega)).symm
    have before : window.cursor <
        endOffset { window with base := min (window.base + amount) window.tailBase } := by
      show window.cursor <
        min window.fileLength (min (window.base + amount) window.tailBase + window.pageSize)
      omega
    refine (if_neg more).trans ?_
    rw [base]
    exact firstRow_eq_scrolledTo before

theorem scrollUp_eq (placed : window.WellPlaced) (room : 3 ≤ window.height)
    (some : 0 < window.fileLength) (nonneg : 0 ≤ amount) :
    window.scrollUp amount = window.scrolledTo (max 0 (window.base - amount))
      (max 0 (window.base - amount) + window.pageSize - 16) := by
  have page := window.pageSize_spec
  have first := placed.base_nonneg
  obtain ⟨above, -, inFile⟩ := placed.shown room some
  have behind : max 0 (window.base - amount) ≤ window.cursor := by omega
  exact (if_neg (by omega : ¬ window.visibleRows = 0)).trans
    (lastRow_eq_scrolledTo room (Int.le_max_left _ _) behind inFile)

/-! ### Pages -/

theorem pageDown_eq (placed : window.WellPlaced) :
    window.pageDown = { window with
      base := min (window.base + window.pageSize) window.tailBase
      cursor := min (window.cursor + window.pageSize) window.lastOffset
      nibble := 0 } := by
  have page := window.pageSize_spec
  have first := placed.base_nonneg
  have aligned := placed.base_aligned
  have ⟨toTail, within⟩ := min_tailBase window
    (by omega : 16 ∣ window.base + window.pageSize) (by omega)
  dsimp only [pageDown]
  split_ifs with behindTail
  · rw [toTail behindTail]
    rfl
  · rw [within (by omega)]
    rfl

/-- The wheel and the pages move the window as far as they are asked to, between the start of the
file and the tail. A cursor that the wheel would leave off the screen comes to its column of the
first or of the last row that is shown then, and the cursor is on the screen behind all of them. -/
theorem scrolling_placement (placed : window.WellPlaced) (room : 3 ≤ window.height)
    (some : 0 < window.fileLength) (nonneg : 0 ≤ amount) (rows : 16 ∣ amount) :
    let tail := max 0 (rowEndOf window.fileLength - window.pageSize)
    let lower := min (window.base + amount) tail
    let upper := max 0 (window.base - amount)
    (window.scrollDown amount = window.scrolledTo lower lower ∧
        window.scrollUp amount = window.scrolledTo upper (upper + window.pageSize - 16)) ∧
      (window.pageDown = { window with
          base := min (window.base + window.pageSize) tail
          cursor := min (window.cursor + window.pageSize) window.lastOffset
          nibble := 0 } ∧
        window.pageUp = { window with
          base := max 0 (window.base - window.pageSize)
          cursor := max 0 (window.cursor - window.pageSize)
          nibble := 0 }) ∧
      ∀ moved ∈ [window.scrollDown amount, window.scrollUp amount, window.pageDown, window.pageUp],
        moved.Shows moved.cursor := by
  refine ⟨⟨scrollDown_eq placed room some nonneg rows, scrollUp_eq placed room some nonneg⟩,
    ⟨pageDown_eq placed, rfl⟩, fun moved member => ?_⟩
  simp only [List.mem_cons, List.not_mem_nil, or_false] at member
  rcases member with rfl | rfl | rfl | rfl
  · exact (placed.scrollDown nonneg rows).shows (window.alike_scrollDown amount) room some
  · exact (placed.scrollUp nonneg rows).shows (window.alike_scrollUp amount) room some
  · exact placed.pageDown.shows ⟨rfl, rfl⟩ room some
  · exact placed.pageUp.shows ⟨rfl, rfl⟩ room some

/-- The wheel is turned down from the second row of seven, of which three are on the screen. The
window stops at the tail, and the cursor comes to its column of the first row there. -/
theorem scrolling_placement_shortTail :
    let window := shortTail.goto 21 false
    window.WellPlaced ∧ 3 ≤ window.height ∧ 0 < window.fileLength ∧ (0 : Int) ≤ 256 ∧
      (16 : Int) ∣ 256 ∧ (window.scrollDown 256).base = 64 ∧ (window.scrollDown 256).cursor = 69 := by
  have placed : (shortTail.goto 21 false).WellPlaced := WellPlaced.goto (wellPlaced_new 100 5) 21 false
  obtain ⟨⟨down, -⟩, -⟩ := scrolling_placement placed (by decide) (by decide)
    (by decide : (0 : Int) ≤ 256) (by decide)
  refine ⟨placed, by decide, by decide, by decide, by decide, ?_, ?_⟩
  · rw [down]
    decide
  · rw [down]
    decide

end HexEditor.Window
