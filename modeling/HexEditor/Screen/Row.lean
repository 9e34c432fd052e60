/-
A row of bytes on the screen: the address in base sixteen, the bytes as digits, and
the bytes as characters. A byte without a character of its own shows as a dot, and
the two blanks that matter, space and line break, have signs.
-/

import HexEditor.Number.Numeral
import HexEditor.Screen.Line
import HexEditor.Window.Grid

namespace HexEditor

/-- The character that shows a byte. -/
def byteGlyph (byte : UInt8) : Char :=
  if byte = 0x00 then ' '
  else if byte = 0x0A then '¶'
  else if byte = 0x20 then '␣'
  else if byte < 0x20 ∨ 0x7E < byte then '·'
  else Char.ofNat byte.toNat

def alignRight (width : Nat) (text : List Char) : List Char :=
  List.replicate (width - text.length) ' ' ++ text

def alignLeft (width : Nat) (text : List Char) : List Char :=
  text ++ List.replicate (width - text.length) ' '

/-- Puts the digits of bytes on a line, of which the first is the byte with a number in its row. -/
def putDigits (line : ScreenLine) (number : Nat) : List UInt8 → ScreenLine
  | [] => line
  | byte :: rest =>
    putDigits (line.put (gridColumn + byteColumn number) (byteHex byte)) (number + 1) rest

/-- The line of a row that begins at an offset, by the bytes that show their digits and those that
show their characters. -/
def rowLineOf (offset : Int) (digits characters : List UInt8) : ScreenLine :=
  let address := alignRight addressWidth (signedHexDigits offset).toList
  let line := (ScreenLine.put {} 0 address (some "address")).put addressWidth " │ ".toList
  (((putDigits line 0 digits).put (charColumn - 2) "│ ".toList).put charColumn
    (characters.map byteGlyph)).put lineWidth []

/-- The line of the bytes in a row that begins at an offset. -/
def rowLine (offset : Int) (bytes : List UInt8) : ScreenLine := rowLineOf offset bytes bytes

/-- The line of a row of which only the first `count` bytes are there, if it has as many. A negative
count leaves characters off the end, and shows no digits. -/
def rowLine? (offset : Int) (bytes : List UInt8) (count : Int) : Option ScreenLine :=
  if (bytes.length : Int) < count then none
  else if count < 0 then some (rowLineOf offset [] (bytes.take (bytes.length + count).toNat))
  else some (rowLine offset (bytes.take count.toNat))

end HexEditor
