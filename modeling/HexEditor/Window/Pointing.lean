/-
From offsets to places on the screen and back. An offset on the screen has a place in
each of the three fields of its row, and a place in one of the two fields of bytes
has an offset unless it is a gap or lies behind the end of the file. Pointer reports
are answered in these terms: the wheel scrolls, and the first button moves the cursor.
-/

import HexEditor.Text.Quoted
import HexEditor.Window.Moves

namespace HexEditor

/-- The fields of a row. -/
inductive RowField where
  | digits
  | characters
  | address
  deriving DecidableEq, Repr

def RowField.ofName? (name : String) : Option RowField :=
  if name = "hex" then some .digits
  else if name = "char" then some .characters
  else if name = "address" then some .address
  else none

/-- The reason why an offset has no place: there is no such field. -/
structure UnknownField where
  name : String

def UnknownField.message (failure : UnknownField) : String :=
  "Unknown field " ++ quoted failure.name

/-- A report of a pointer: a button, or a wheel that counts as one, was pressed or released at a
place on the screen. -/
structure PointerReport where
  button : Int
  column : Int
  row : Int
  pressed : Bool
  deriving DecidableEq, Repr

def wheelUp : Int := 64

/-- The button that stands for the wheel turning down. -/
def wheelDown : Int := 65

namespace Window

/-- The column and row of an offset in a field, if it is on the screen. -/
def positionOf (window : Window) (offset : Int) (field : RowField) : Option (Int × Int) :=
  if window.base ≤ offset ∧ offset < window.endOffset then
    let row := (offset - window.base) / 16
    match field with
    | .digits => some (gridColumn + byteColumn (offset % 16), row)
    | .characters => some (charColumn + offset % 16, row)
    | .address => some (0, row)
  else
    none

/-- The column and row of an offset in the field with a name; the name matters only for an offset
on the screen. -/
def positionIn (window : Window) (offset : Int) (name : String) :
    Except UnknownField (Option (Int × Int)) :=
  match RowField.ofName? name with
  | some field => .ok (window.positionOf offset field)
  | none => if (window.positionOf offset .address).isSome then .error ⟨name⟩ else .ok none

/-- The byte of its row that stands at a column, in either field of bytes. -/
def byteAt? (column : Int) : Option Int :=
  if gridColumn ≤ column ∧ column < gridColumn + gridWidth then
    (byteAtColumn? (column - gridColumn)).map fun (byte : Nat) => byte
  else if charColumn ≤ column ∧ column < charColumn + 16 then
    some (column - charColumn)
  else
    none

/-- The offset that is shown at a place on the screen. -/
def offsetAt (window : Window) (column row : Int) : Option Int :=
  if 0 ≤ row ∧ row < window.visibleRows then
    match byteAt? column with
    | some byte =>
      let offset := window.base + row * 16 + byte
      if offset < window.fileLength then some offset else none
    | none => none
  else
    none

/-- Answers a pointer report, and tells whether the view may have changed. A button that is held
while the pointer moves counts as pressed anew. -/
def point (window : Window) (report : PointerReport) : Bool × Window :=
  if !report.pressed then
    (false, window)
  else if report.button = wheelUp then
    (true, window.scrollUp)
  else if report.button = wheelDown then
    (true, window.scrollDown)
  else
    let held := 32 ≤ report.button ∧ report.button < wheelUp
    let button := if held then report.button - 32 else report.button
    if button ≠ 0 then
      (false, window)
    else
      match window.offsetAt report.column report.row with
      | some offset => (true, { window with cursor := offset, nibble := 0 })
      | none => (false, window)

end Window

end HexEditor
