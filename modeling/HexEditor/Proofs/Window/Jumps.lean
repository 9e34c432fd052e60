/-
Where the window stands behind a jump. A jump to an offset that is on the screen leaves the
window where it is. Otherwise the window is centred on the row of the cursor, as far as the file
allows, or it moves just far enough: of all windows that show the cursor it becomes the one that
is nearest to where it was. In front of the window and behind it there is only one such window,
since the nearest row that shows the cursor is its own.
-/

import HexEditor.Proofs.Window.Placement

namespace HexEditor.Window

variable {window : Window}

/-! ### Windows that show an offset -/

/-- Of the windows that begin with a row of the file and show an offset, the one with this base is
the nearest: each other one is further away. -/
structure Nearest (window : Window) (offset base : Int) : Prop where
  base_nonneg : 0 ≤ base
  base_aligned : 16 ∣ base
  shows : Shows { window with base } offset
  nearer : ∀ other, 0 ≤ other → 16 ∣ other → Shows { window with base := other } offset →
    other ≠ base → (base - window.base).natAbs < (other - window.base).natAbs

/-- The cursor is on the screen behind every move that leaves the screen and the file as they
are. -/
theorem WellPlaced.shows {moved : Window} (placed : moved.WellPlaced) (alike : Alike window moved)
    (room : 3 ≤ window.height) (some : 0 < window.fileLength) : moved.Shows moved.cursor :=
  placed.visible (alike.height ▸ room) (alike.fileLength ▸ some)

/-- In front of a window, the nearest one that shows an offset begins with the row of the offset. -/
theorem nearest_above {offset : Int} (room : 3 ≤ window.height) (natural : 0 ≤ offset)
    (inFile : offset < window.fileLength) (above : offset < window.base) :
    window.Nearest offset (rowStartOf offset) := by
  have page := window.pageSize_spec
  have row := rowStartOf_spec offset
  refine ⟨by omega, row.1, (shows_iff _ _).2 ?_, fun other _ aligned shows differs => ?_⟩
  · show rowStartOf offset ≤ offset ∧ offset < window.fileLength ∧
      offset < rowStartOf offset + window.pageSize
    omega
  · have first : other ≤ offset := shows.1
    omega

/-- Behind a window, the nearest one that shows an offset ends with the row of the offset. -/
theorem nearest_below {offset : Int} (inside : window.Inside) (room : 3 ≤ window.height)
    (inFile : offset < window.fileLength) (below : window.base + window.pageSize ≤ offset) :
    window.Nearest offset (rowStartOf offset + 16 - window.pageSize) := by
  have page := window.pageSize_spec
  have row := rowStartOf_spec offset
  have first := inside.base_nonneg
  have aligned := inside.base_aligned
  refine ⟨by omega, by omega, (shows_iff _ _).2 ?_, fun other _ rows shows differs => ?_⟩
  · show rowStartOf offset + 16 - window.pageSize ≤ offset ∧ offset < window.fileLength ∧
      offset < rowStartOf offset + 16 - window.pageSize + window.pageSize
    omega
  · have last : offset < other + window.pageSize := ((shows_iff _ _).1 shows).2.2
    omega

/-! ### Bringing the cursor onto the screen -/

theorem reveal_of_shows (window : Window) (shown : window.Shows window.cursor) (recenter : Bool) :
    window.reveal recenter = window := by
  cases recenter with
  | true => exact if_pos (cursorVisible_iff.2 shown)
  | false => exact (if_neg (Int.not_lt.2 shown.1)).trans (if_neg (Int.not_le.2 shown.2))

/-- A centred window is kept between the start of the file and the tail. -/
theorem reveal_centred (window : Window) (hidden : ¬ window.Shows window.cursor) :
    window.reveal true = { window with
      base := max 0 (min (rowStartOf window.cursor - rowStartOf (window.pageSize / 2))
        window.tailBase) } := by
  have row := rowStartOf_spec window.cursor
  have half := rowStartOf_spec (window.pageSize / 2)
  have tail := window.tailBase_spec
  refine (if_neg (mt cursorVisible_iff.1 hidden)).trans ?_
  generalize centre_eq : rowStartOf window.cursor - rowStartOf (window.pageSize / 2) = centre
  have ⟨toTail, within⟩ := min_tailBase window (by omega : 16 ∣ max 0 centre)
    (Int.le_max_left _ _)
  have base : (if window.fileLength < max 0 centre + window.pageSize then window.tailBase
      else max 0 centre) = max 0 (min centre window.tailBase) := by
    split_ifs with behindTail
    · have atTail := toTail (Int.le_of_lt behindTail)
      omega
    · have between := within (Int.not_lt.1 behindTail)
      omega
  rw [← base, ← centre_eq]

theorem reveal_above (window : Window) (above : window.cursor < window.base) :
    window.reveal false = { window with base := rowStartOf window.cursor } :=
  if_pos above

/-- A cursor behind the window comes to the last row. The start of the file does not prevent that,
because there is a whole window in front of the cursor. -/
theorem reveal_below (window : Window) (inside : window.Inside)
    (below : window.base + window.pageSize ≤ window.cursor) :
    window.reveal false = { window with
      base := rowStartOf window.cursor + 16 - window.pageSize } := by
  have page := window.pageSize_spec
  have row := rowStartOf_spec window.cursor
  have first := inside.base_nonneg
  have notAbove : ¬ window.cursor < window.base := by omega
  have hidden : window.endOffset ≤ window.cursor := by
    rw [endOffset]
    omega
  have base : max 0 (rowStartOf window.cursor + 16 - window.pageSize) =
      rowStartOf window.cursor + 16 - window.pageSize :=
    Int.max_eq_right (by omega)
  rw [← base]
  exact (if_neg notAbove).trans (if_pos hidden)

/-! ### Jumps -/

theorem aimedAt_eq (some : 0 < window.fileLength) (target : Int) :
    window.aimedAt target =
      { window with cursor := max 0 (min target (window.fileLength - 1)), nibble := 0 } := by
  rw [aimedAt, window.lastOffset_spec.2.1 some]

/-- A jump brings the cursor to its target, or as near as the file goes, and shows it. The window
stays if it shows the cursor already. It is centred on the row of the cursor otherwise, between the
start of the file and the tail, or it becomes the nearest window that shows the cursor. -/
theorem goto_placement (placed : window.WellPlaced) (room : 3 ≤ window.height)
    (some : 0 < window.fileLength) (target : Int) (recenter : Bool) :
    let moved := window.goto target recenter
    moved = { window with
        base := moved.base
        cursor := max 0 (min target (window.fileLength - 1))
        nibble := 0 } ∧
      (window.Shows moved.cursor → moved.base = window.base) ∧
      (¬ window.Shows moved.cursor → recenter = true → moved.base =
        max 0 (min (rowStartOf moved.cursor - rowStartOf (window.pageSize / 2))
          (max 0 (rowEndOf window.fileLength - window.pageSize)))) ∧
      (¬ window.Shows moved.cursor → recenter = false →
        window.Nearest moved.cursor moved.base) ∧
      moved.Shows moved.cursor := by
  have shows := (placed.goto target recenter).shows (window.alike_goto target recenter) room some
  have inside := placed.toInside.aimedAt target
  rw [goto_eq] at shows ⊢
  rw [aimedAt_eq some] at shows inside ⊢
  -- only that the cursor is in the file matters from here on
  generalize reached : max 0 (min target (window.fileLength - 1)) = cursor at shows inside ⊢
  have natural : 0 ≤ cursor := by omega
  have inFile : cursor < window.fileLength := by omega
  let aimed : Window := { window with cursor, nibble := 0 }
  by_cases shown : window.Shows cursor
  · rw [reveal_of_shows aimed shown]
    exact ⟨rfl, fun _ => rfl, fun hidden => absurd shown hidden, fun hidden => absurd shown hidden,
      shown⟩
  · cases recenter with
    | true =>
      rw [reveal_centred aimed shown] at shows ⊢
      exact ⟨rfl, fun visible => absurd visible shown, fun _ _ => rfl, nofun, shows⟩
    | false =>
      by_cases above : cursor < window.base
      · rw [reveal_above aimed above] at shows ⊢
        exact ⟨rfl, fun visible => absurd visible shown, nofun,
          fun _ _ => nearest_above room natural inFile above, shows⟩
      · -- it is in the file, so it is off the screen only because the window ends in front of it
        have below : window.base + window.pageSize ≤ cursor := by
          rw [shows_iff] at shown
          omega
        rw [reveal_below aimed inside below] at shows ⊢
        exact ⟨rfl, fun visible => absurd visible shown, nofun,
          fun _ _ => nearest_below placed.toInside room inFile below, shows⟩

/-- Seven rows of which the last is short, three of them on the screen. -/
def shortTail : Window := { fileLength := 100, height := 5 }

/-- Behind the end a jump finds the last byte. Its row comes to the bottom of the screen either way,
since nothing follows it that could be shown below the middle. -/
theorem goto_placement_shortTail :
    shortTail.WellPlaced ∧ 3 ≤ shortTail.height ∧ 0 < shortTail.fileLength ∧
      ¬ shortTail.Shows 99 ∧ (shortTail.goto 1000 true).base = 64 ∧
      shortTail.Nearest 99 (shortTail.goto 1000 false).base := by
  have placed : shortTail.WellPlaced := wellPlaced_new 100 5
  have hidden : ¬ shortTail.Shows 99 := by
    rw [shows_iff]
    decide
  obtain ⟨-, -, centred, -, -⟩ := goto_placement placed (by decide) (by decide) 1000 true
  obtain ⟨-, -, -, nearest, -⟩ := goto_placement placed (by decide) (by decide) 1000 false
  exact ⟨placed, by decide, by decide, hidden, centred hidden rfl, nearest hidden rfl⟩

end HexEditor.Window
