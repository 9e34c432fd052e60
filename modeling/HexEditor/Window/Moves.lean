/-
The window on the file. It shows a run of whole rows from its base on, and it holds
the cursor, which is an offset into the file. Every move is total: a target outside
the file is brought back into it, and the window follows the cursor. The last two
rows of the screen are kept for a separator and the status.
-/

import HexEditor.Storage.EditedFile
import HexEditor.Window.Grid

namespace HexEditor

/-- The window and the cursor. -/
structure Window where
  fileLength : Int
  height : Int
  /-- The offset of the first byte on the screen. -/
  base : Int := 0
  /-- The offset of the byte that the next key is for. -/
  cursor : Int := 0
  /-- The number of digits of that byte that are already typed. -/
  nibble : Int := 0
  deriving DecidableEq, Repr

namespace Window

def clamp (value low high : Int) : Int :=
  if value < low then low else if high < value then high else value

def rowStartOf (offset : Int) : Int := offset - offset % 16

/-- The start of the first row that begins at an offset or behind it. -/
def rowEndOf (offset : Int) : Int := rowStartOf (offset + 15)

/-! ### Geometry -/

def visibleRows (window : Window) : Int := max 0 (window.height - 2)

def pageSize (window : Window) : Int := window.visibleRows * 16

/-- The offset behind the last byte on the screen. -/
def endOffset (window : Window) : Int := min window.fileLength (window.base + window.pageSize)

/-- The last offset the cursor can be at, which is zero in an empty file. -/
def lastOffset (window : Window) : Int := max 0 (window.fileLength - 1)

def cursorVisible (window : Window) : Bool :=
  window.base ≤ window.cursor && window.cursor < window.endOffset

/-- The offsets at which the rows on the screen begin. -/
def rowOffsets (window : Window) : List Int :=
  (List.range ((window.endOffset - window.base + 15) / 16).toNat).map fun (row : Nat) =>
    window.base + 16 * row

/-- The base that shows the last row of the file at the bottom of the screen. -/
def tailBase (window : Window) : Int := max 0 (rowEndOf window.fileLength - window.pageSize)

/-- Forgets that a digit was typed. -/
def resetNibble (window : Window) : Window := { window with nibble := 0 }

/-! ### Moves by a byte or a row -/

/-- One row up, if there is one. -/
def up (window : Window) : Window :=
  let window := window.resetNibble
  if 16 ≤ window.cursor then
    { window with
      base := if window.cursor < window.base + 16 then max 0 (window.base - 16) else window.base
      cursor := window.cursor - 16 }
  else
    window

/-- One row down, if there is a byte. -/
def down (window : Window) : Window :=
  let window := window.resetNibble
  if window.cursor + 16 < window.fileLength then
    { window with
      base := if window.endOffset ≤ window.cursor + 16 then window.base + 16 else window.base
      cursor := window.cursor + 16 }
  else
    window

/-- One byte on, if there is one. -/
def right (window : Window) : Window :=
  let window := window.resetNibble
  if window.cursor + 1 < window.fileLength then
    if window.cursor % 16 = 15 then
      down { window with cursor := window.cursor - 15 }
    else
      { window with cursor := window.cursor + 1 }
  else
    window

/-- One byte back, if there is one. -/
def left (window : Window) : Window :=
  let window := window.resetNibble
  if 0 < window.cursor then
    if window.cursor % 16 = 0 then
      up { window with cursor := window.cursor + 15 }
    else
      { window with cursor := window.cursor - 1 }
  else
    window

/-- To the first byte of the row. -/
def rowStart (window : Window) : Window :=
  { window.resetNibble with cursor := rowStartOf window.cursor }

/-- To the last byte of the row that is in the file. -/
def rowEnd (window : Window) : Window :=
  { window.resetNibble with cursor := min (rowStartOf window.cursor + 15) window.lastOffset }

/-! ### Pages and the wheel -/

/-- One page up, together with the cursor. -/
def pageUp (window : Window) : Window :=
  { window.resetNibble with
    cursor := max 0 (window.cursor - window.pageSize)
    base := max 0 (window.base - window.pageSize) }

/-- One page down, together with the cursor, at most to the last page. -/
def pageDown (window : Window) : Window :=
  let base := window.base + window.pageSize
  { window.resetNibble with
    cursor := min (window.cursor + window.pageSize) window.lastOffset
    base := if window.fileLength ≤ base + window.pageSize then window.tailBase else base }

/-- Moves the window up; the cursor stays where it is as long as it is on the screen. -/
def scrollUp (window : Window) (amount : Int := 0x100) : Window :=
  if window.visibleRows = 0 then
    window
  else
    let window := { window with base := max 0 (window.base - amount) }
    if window.endOffset ≤ window.cursor then
      { window with
        cursor := clamp (window.endOffset - 16 + window.cursor % 16) 0 window.lastOffset }
    else
      window

/-- Moves the window down until the last row is on the screen; the cursor stays where it is as long
as it is on the screen. -/
def scrollDown (window : Window) (amount : Int := 0x100) : Window :=
  let stop := window.base + window.pageSize
  if window.visibleRows = 0 ∨ window.fileLength ≤ stop then
    window
  else
    let window := { window with
      base := if window.fileLength ≤ stop + amount then window.tailBase else window.base + amount }
    if window.cursor < window.base then
      { window with cursor := min (window.base + window.cursor % 16) window.lastOffset }
    else
      window

/-! ### Jumps -/

/-- Brings the cursor onto the screen if it is not there. With `recenter` its row comes to the
middle, but no further than the first and the last page; otherwise the window moves just far
enough. -/
def reveal (window : Window) (recenter : Bool) : Window :=
  let page := window.pageSize
  let row := rowStartOf window.cursor
  if recenter then
    if window.cursorVisible then
      window
    else
      let base := max 0 (row - rowStartOf (page / 2))
      { window with base := if window.fileLength < base + page then window.tailBase else base }
  else if window.cursor < window.base then
    { window with base := row }
  else if window.endOffset ≤ window.cursor then
    { window with base := max 0 (row + 16 - page) }
  else
    window

/-- To an offset, or to the nearest one there is. -/
def goto (window : Window) (target : Int) (recenter : Bool := true) : Window :=
  reveal { window.resetNibble with cursor := clamp target 0 window.lastOffset } recenter

/-- Takes on a new height, and a new length of the file if one is given. -/
def resize (window : Window) (height : Int) (fileLength : Option Int) : Window :=
  let window := { window with height, fileLength := fileLength.getD window.fileLength }
  let window := { window with
    cursor := clamp window.cursor 0 window.lastOffset
    base := min (rowStartOf window.base) window.tailBase }
  window.reveal false

end Window

end HexEditor
