/-
Moves by a byte or a row. Each of them is a jump to the offset that it leads to, one that moves the
window no further than it must. It is carried out by looking at the neighbouring rows only, which
is enough because the cursor is on the screen beforehand; so the window moves by a row at most. A
move to the next row goes through an end of the row it leaves, which is on the screen too, but need
not be in the file.
-/

import HexEditor.Proofs.Window.Jumps

namespace HexEditor.Window

variable {window : Window}

/-! ### Jumps to a neighbouring row -/

/-- The window with its cursor at an offset. If that is off the screen the window follows by a
row. -/
def followTo (window : Window) (offset : Int) : Window :=
  { window with
    base :=
      if offset < window.base then window.base - 16
      else if window.endOffset ≤ offset then window.base + 16
      else window.base
    cursor := offset
    nibble := 0 }

/-- A window has moved by a row, or not at all. -/
def ByRow (window moved : Window) : Prop :=
  moved.base = window.base ∨ moved.base = window.base - 16 ∨ moved.base = window.base + 16

theorem byRow_followTo (window : Window) (offset : Int) :
    window.ByRow (window.followTo offset) := by
  dsimp only [ByRow, followTo]
  split_ifs
  · exact .inr (.inl rfl)
  · exact .inr (.inr rfl)
  · exact .inl rfl

/-- A jump to a byte that is no further away than the next row moves the window by a row at most,
because the cursor was on the screen. -/
theorem goto_beside (placed : window.WellPlaced) (room : 3 ≤ window.height) {target : Int}
    (natural : 0 ≤ target) (inFile : target < window.fileLength)
    (behind : window.cursor - 16 ≤ target) (before : target ≤ window.cursor + 16) :
    window.goto target false = window.followTo target := by
  have row := rowStartOf_spec target
  have page := window.pageSize_spec
  have aligned := placed.base_aligned
  have inside := placed.toInside.aimedAt target
  obtain ⟨above, below, -⟩ := placed.shown room (by omega)
  have reached : max 0 (min target (window.fileLength - 1)) = target := by omega
  rw [goto_eq, followTo]
  rw [aimedAt_eq (by omega), reached] at inside ⊢
  let aimed : Window := { window with cursor := target, nibble := 0 }
  split_ifs with first last
  · have base : rowStartOf target = window.base - 16 := by omega
    rw [reveal_above aimed first, ← base]
  · have off : window.base + window.pageSize ≤ target := by
      rw [endOffset] at last
      omega
    have base : rowStartOf target + 16 - window.pageSize = window.base + 16 := by omega
    rw [reveal_below aimed inside off, ← base]
    rfl
  · exact reveal_of_shows aimed ⟨Int.not_lt.1 first, Int.not_le.1 last⟩ false

/-! ### Jumps that go nowhere -/

/-- A jump to where the cursor is forgets what is typed and changes nothing else. An empty file has
no byte to be shown, but its window cannot move. -/
theorem goto_cursor (placed : window.WellPlaced) (room : 3 ≤ window.height) :
    window.goto window.cursor false = window.resetNibble := by
  have natural := placed.cursor_nonneg
  have inFile := placed.cursor_le
  have reached : max 0 (min window.cursor window.lastOffset) = window.cursor := by omega
  rw [goto_eq, aimedAt, reached]
  by_cases some : 0 < window.fileLength
  · exact reveal_of_shows window.resetNibble (placed.visible room some) false
  · have page := window.pageSize_spec
    have tail := window.tailBase_spec
    have last := window.lastOffset_spec
    have first := placed.base_nonneg
    have ends := placed.base_le room
    have row := rowStartOf_spec window.cursor
    -- the tail of an empty file is its start, and the base is not behind the tail
    have atStart : max 0 (rowStartOf window.cursor + 16 - window.pageSize) = window.base := by omega
    have notAbove : ¬ window.cursor < window.base := by omega
    have hidden : window.endOffset ≤ window.cursor := by
      rw [endOffset]
      omega
    refine ((if_neg notAbove).trans (if_pos hidden)).trans ?_
    exact congrArg (fun base : Int => { window.resetNibble with base }) atStart

/-- A jump behind the last byte is one to the last byte. -/
theorem goto_of_lastOffset_le {target : Int} (beyond : window.lastOffset ≤ target)
    (recenter : Bool) : window.goto target recenter = window.goto window.lastOffset recenter := by
  rw [goto_eq, goto_eq, aimedAt, aimedAt, Int.min_eq_right beyond, Int.min_self]

/-- A jump in front of the first byte is one to the first byte. -/
theorem goto_of_nonpos {target : Int} (beyond : target ≤ 0) (recenter : Bool) :
    window.goto target recenter = window.goto 0 recenter := by
  have last := window.lastOffset_spec
  have reached : max 0 (min target window.lastOffset) = max 0 (min 0 window.lastOffset) := by omega
  rw [goto_eq, goto_eq, aimedAt, aimedAt, reached]

/-! ### Moves -/

theorem down_eq_followTo (window : Window) (behind : window.base ≤ window.cursor + 16)
    (more : window.cursor + 16 < window.fileLength) :
    window.down = window.followTo (window.cursor + 16) := by
  rw [followTo, if_neg (Int.not_lt.2 behind)]
  exact if_pos more

theorem up_eq_followTo (window : Window) (aligned : 16 ∣ window.base)
    (before : window.cursor - 16 < window.endOffset) (more : 16 ≤ window.cursor) :
    window.up = window.followTo (window.cursor - 16) := by
  rw [up_of_le more, followTo, if_neg (Int.not_le.2 before)]
  congr 1
  split_ifs <;> omega

theorem right_eq_followTo (placed : window.WellPlaced) (room : 3 ≤ window.height)
    (more : window.cursor + 1 < window.fileLength) :
    window.right = window.followTo (window.cursor + 1) := by
  have start := placed.cursor_nonneg
  have aligned := placed.base_aligned
  have page := window.pageSize_spec
  obtain ⟨above, below, -⟩ := placed.shown room (by omega)
  by_cases rowEnd : window.cursor % 16 = 15
  · -- from the start of the row it goes down
    let wrapped : Window := { window.resetNibble with cursor := window.cursor - 15 }
    have next : wrapped.cursor + 16 = window.cursor + 1 := by
      show window.cursor - 15 + 16 = window.cursor + 1
      omega
    have behind : window.base ≤ wrapped.cursor + 16 := by omega
    have down := down_eq_followTo wrapped behind (next ▸ more)
    rw [next] at down
    exact ((if_pos more).trans (if_pos rowEnd)).trans down
  · have before : window.cursor + 1 < window.endOffset := by
      rw [endOffset]
      omega
    rw [followTo, if_neg (by omega : ¬ window.cursor + 1 < window.base),
      if_neg (Int.not_le.2 before)]
    exact (if_pos more).trans (if_neg rowEnd)

theorem left_eq_followTo (placed : window.WellPlaced) (room : 3 ≤ window.height)
    (more : 0 < window.cursor) :
    window.left = window.followTo (window.cursor - 1) := by
  have aligned := placed.base_aligned
  have inFile := placed.cursor_le
  have last := window.lastOffset_spec
  obtain ⟨above, below⟩ := placed.visible room (by omega)
  have before : window.cursor - 1 < window.endOffset := by omega
  by_cases rowStart : window.cursor % 16 = 0
  · -- from the end of the row it goes up, and that may be behind the end of the file
    let wrapped : Window := { window.resetNibble with cursor := window.cursor + 15 }
    have next : wrapped.cursor - 16 = window.cursor - 1 := by
      show window.cursor + 15 - 16 = window.cursor - 1
      omega
    have up := up_eq_followTo wrapped aligned (next ▸ before)
      (by omega : 16 ≤ window.cursor + 15)
    rw [next] at up
    exact ((if_pos more).trans (if_pos rowStart)).trans up
  · rw [followTo, if_neg (by omega : ¬ window.cursor - 1 < window.base),
      if_neg (Int.not_le.2 before)]
    exact (if_pos more).trans (if_neg rowStart)

theorem right_eq_goto (placed : window.WellPlaced) (room : 3 ≤ window.height) :
    window.right = window.goto (window.cursor + 1) false ∧ window.ByRow window.right := by
  have start := placed.cursor_nonneg
  by_cases more : window.cursor + 1 < window.fileLength
  · rw [right_eq_followTo placed room more,
      goto_beside placed room (by omega) more (by omega) (by omega)]
    exact ⟨rfl, byRow_followTo _ _⟩
  · have stays : window.right = window.resetNibble := if_neg more
    have atLast : window.lastOffset = window.cursor := by
      have last := window.lastOffset_spec
      have inFile := placed.cursor_le
      omega
    rw [stays, goto_of_lastOffset_le (by omega), atLast, goto_cursor placed room]
    exact ⟨rfl, .inl rfl⟩

theorem left_eq_goto (placed : window.WellPlaced) (room : 3 ≤ window.height) :
    window.left = window.goto (window.cursor - 1) false ∧ window.ByRow window.left := by
  have last := window.lastOffset_spec
  have inFile := placed.cursor_le
  by_cases more : 0 < window.cursor
  · rw [left_eq_followTo placed room more,
      goto_beside placed room (by omega) (by omega) (by omega) (by omega)]
    exact ⟨rfl, byRow_followTo _ _⟩
  · have stays : window.left = window.resetNibble := if_neg more
    have atFirst : window.cursor = 0 := by
      have start := placed.cursor_nonneg
      omega
    rw [stays, goto_of_nonpos (by omega), ← atFirst, goto_cursor placed room]
    exact ⟨rfl, .inl rfl⟩

theorem down_eq_goto (placed : window.WellPlaced) (room : 3 ≤ window.height) :
    window.down = (if window.cursor + 16 < window.fileLength then
        window.goto (window.cursor + 16) false
      else { window with nibble := 0 }) ∧ window.ByRow window.down := by
  have start := placed.cursor_nonneg
  split_ifs with more
  · obtain ⟨above, -, -⟩ := placed.shown room (by omega)
    rw [down_eq_followTo window (by omega) more,
      goto_beside placed room (by omega) more (by omega) (Int.le_refl _)]
    exact ⟨rfl, byRow_followTo _ _⟩
  · have stays : window.down = window.resetNibble := if_neg more
    rw [stays]
    exact ⟨rfl, .inl rfl⟩

theorem up_eq_goto (placed : window.WellPlaced) (room : 3 ≤ window.height) :
    window.up = (if 16 ≤ window.cursor then window.goto (window.cursor - 16) false
      else { window with nibble := 0 }) ∧ window.ByRow window.up := by
  have last := window.lastOffset_spec
  have inFile := placed.cursor_le
  split_ifs with more
  · obtain ⟨-, below⟩ := placed.visible room (by omega)
    rw [up_eq_followTo window placed.base_aligned (by omega) more,
      goto_beside placed room (by omega) (by omega) (Int.le_refl _) (by omega)]
    exact ⟨rfl, byRow_followTo _ _⟩
  · have stays : window.up = window.resetNibble := if_neg more
    rw [stays]
    exact ⟨rfl, .inl rfl⟩

/-- The moves by a byte and by a row are jumps that move the window no further than they must. At
an end of the file a jump by a byte goes nowhere, and a move by a row that is not there is none.
The window moves by a row or not at all. -/
theorem lineMoves_eq_goto (placed : window.WellPlaced) (room : 3 ≤ window.height) :
    (window.right = window.goto (window.cursor + 1) false ∧
      window.left = window.goto (window.cursor - 1) false ∧
      window.down = (if window.cursor + 16 < window.fileLength then
          window.goto (window.cursor + 16) false
        else { window with nibble := 0 }) ∧
      window.up = (if 16 ≤ window.cursor then window.goto (window.cursor - 16) false
        else { window with nibble := 0 })) ∧
      ∀ moved ∈ [window.right, window.left, window.down, window.up], window.ByRow moved := by
  obtain ⟨right, rightByRow⟩ := right_eq_goto placed room
  obtain ⟨left, leftByRow⟩ := left_eq_goto placed room
  obtain ⟨down, downByRow⟩ := down_eq_goto placed room
  obtain ⟨up, upByRow⟩ := up_eq_goto placed room
  refine ⟨⟨right, left, down, up⟩, fun moved member => ?_⟩
  simp only [List.mem_cons, List.not_mem_nil, or_false] at member
  rcases member with rfl | rfl | rfl | rfl
  · exact rightByRow
  · exact leftByRow
  · exact downByRow
  · exact upByRow

/-- From the end of the last row on the screen to the right, the window follows by a row. -/
theorem lineMoves_eq_goto_shortTail :
    let window := shortTail.goto 47 false
    window.WellPlaced ∧ 3 ≤ window.height ∧ window.right = window.goto 48 false ∧
      window.base = 0 ∧ window.right.base = 16 ∧ window.right.cursor = 48 := by
  have placed : (shortTail.goto 47 false).WellPlaced :=
    WellPlaced.goto (wellPlaced_new 100 5) 47 false
  obtain ⟨⟨right, -⟩, -⟩ := lineMoves_eq_goto placed (by decide)
  exact ⟨placed, by decide, right, by decide, by decide, by decide⟩

end HexEditor.Window
