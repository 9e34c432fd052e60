/-
What moves of the window leave alone. A move forgets a digit that is typed or leaves it
typed; none makes it appear. Moves by the keys forget it; the wheel and a new height of
the screen leave it, wherever they bring the cursor. The length that the window takes the
file to have, and the height of the screen, are changed only by giving it new ones.
-/

import HexEditor.Window.Pointing
import Mathlib.Tactic.SplitIfs

namespace HexEditor.Window

variable (window : Window)

/-! ### Moves that forget -/

theorem nibble_reveal (recenter : Bool) : (window.reveal recenter).nibble = window.nibble := by
  dsimp only [reveal]
  split_ifs <;> rfl

theorem nibble_goto (target : Int) (recenter : Bool) :
    (window.goto target recenter).nibble = 0 := by
  rw [goto, nibble_reveal]
  rfl

theorem nibble_up : window.up.nibble = 0 := by
  dsimp only [up]
  split_ifs <;> rfl

theorem nibble_down : window.down.nibble = 0 := by
  dsimp only [down]
  split_ifs <;> rfl

theorem nibble_right : window.right.nibble = 0 := by
  dsimp only [right]
  split_ifs
  · exact nibble_down _
  · rfl
  · rfl

theorem nibble_left : window.left.nibble = 0 := by
  dsimp only [left]
  split_ifs
  · exact nibble_up _
  · rfl
  · rfl

/-! ### Moves that leave it typed -/

theorem nibble_scrollUp (amount : Int) : (window.scrollUp amount).nibble = window.nibble := by
  dsimp only [scrollUp]
  split_ifs <;> rfl

theorem nibble_scrollDown (amount : Int) : (window.scrollDown amount).nibble = window.nibble := by
  dsimp only [scrollDown]
  split_ifs <;> rfl

theorem nibble_resize (height : Int) (fileLength : Option Int) :
    (window.resize height fileLength).nibble = window.nibble := by
  rw [resize, nibble_reveal]

/-- A pointer does nothing, turns the wheel, or moves the cursor to the byte that it is on. -/
theorem point_cases (report : PointerReport) :
    (window.point report).2 = window ∨ (window.point report).2 = window.scrollUp ∨
      (window.point report).2 = window.scrollDown ∨
      ∃ offset, window.offsetAt report.column report.row = some offset ∧
        (window.point report).2 = { window with cursor := offset, nibble := 0 } := by
  dsimp only [point]
  split_ifs
  · exact .inl rfl
  · exact .inr (.inl rfl)
  · exact .inr (.inr (.inl rfl))
  · exact .inl rfl
  · cases window.offsetAt report.column report.row with
    | none => exact .inl rfl
    | some offset => exact .inr (.inr (.inr ⟨offset, rfl, rfl⟩))
  · exact .inl rfl
  · cases window.offsetAt report.column report.row with
    | none => exact .inl rfl
    | some offset => exact .inr (.inr (.inr ⟨offset, rfl, rfl⟩))

theorem nibble_point (report : PointerReport) :
    (window.point report).2.nibble = window.nibble ∨ (window.point report).2.nibble = 0 := by
  rcases window.point_cases report with same | same | same | ⟨offset, _, same⟩
  · exact .inl (by rw [same])
  · exact .inl (by rw [same, nibble_scrollUp])
  · exact .inl (by rw [same, nibble_scrollDown])
  · exact .inr (by rw [same])

/-! ### The length of the file and the height of the screen -/

/-- A window on a file of the same length and on a screen of the same height. -/
structure Alike (before after : Window) : Prop where
  fileLength : after.fileLength = before.fileLength
  height : after.height = before.height

theorem alike_reveal (recenter : Bool) : Alike window (window.reveal recenter) := by
  dsimp only [reveal]
  split_ifs <;> exact ⟨rfl, rfl⟩

theorem alike_goto (target : Int) (recenter : Bool) :
    Alike window (window.goto target recenter) := by
  rw [goto]
  exact ⟨(alike_reveal _ recenter).fileLength, (alike_reveal _ recenter).height⟩

theorem alike_up : Alike window window.up := by
  dsimp only [up]
  split_ifs <;> exact ⟨rfl, rfl⟩

theorem alike_down : Alike window window.down := by
  dsimp only [down]
  split_ifs <;> exact ⟨rfl, rfl⟩

theorem alike_right : Alike window window.right := by
  dsimp only [right]
  split_ifs
  · exact ⟨(alike_down _).fileLength, (alike_down _).height⟩
  · exact ⟨rfl, rfl⟩
  · exact ⟨rfl, rfl⟩

theorem alike_left : Alike window window.left := by
  dsimp only [left]
  split_ifs
  · exact ⟨(alike_up _).fileLength, (alike_up _).height⟩
  · exact ⟨rfl, rfl⟩
  · exact ⟨rfl, rfl⟩

theorem alike_scrollUp (amount : Int) : Alike window (window.scrollUp amount) := by
  dsimp only [scrollUp]
  split_ifs <;> exact ⟨rfl, rfl⟩

theorem alike_scrollDown (amount : Int) : Alike window (window.scrollDown amount) := by
  dsimp only [scrollDown]
  split_ifs <;> exact ⟨rfl, rfl⟩

theorem alike_point (report : PointerReport) : Alike window (window.point report).2 := by
  rcases window.point_cases report with same | same | same | ⟨offset, _, same⟩ <;> rw [same]
  · exact ⟨rfl, rfl⟩
  · exact window.alike_scrollUp _
  · exact window.alike_scrollDown _
  · exact ⟨rfl, rfl⟩

theorem fileLength_resize (height : Int) (length : Int) :
    (window.resize height (some length)).fileLength = length := by
  rw [resize, (alike_reveal _ _).fileLength]
  rfl

theorem height_resize (height : Int) (fileLength : Option Int) :
    (window.resize height fileLength).height = height := by
  rw [resize, (alike_reveal _ _).height]

end HexEditor.Window
