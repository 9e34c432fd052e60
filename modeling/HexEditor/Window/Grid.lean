/-
Where things stand in a row of the screen. A row shows the address of its first
byte, the bytes as two digits each in four groups, and the bytes as characters:

    |address (16)   | │ |xx xx xx xx  xx xx xx xx   xx xx xx xx  xx xx xx xx │ |chars (16)|

The groups of the grid are set off by a column more, the two halves by two.
-/

namespace HexEditor

/-- The columns of the address. -/
def addressWidth : Nat := 16

/-- The first column of the grid of digits. -/
def gridColumn : Nat := 19

/-- The number of columns of the grid of digits. -/
def gridWidth : Nat := 52

/-- The first column of the characters. -/
def charColumn : Nat := 73

def lineWidth : Nat := charColumn + 16

/-- The column, from the start of the grid, of the first digit of a byte. -/
def byteColumn (byte : Int) : Int :=
  if 12 ≤ byte then byte * 3 + 4
  else if 8 ≤ byte then byte * 3 + 3
  else if 4 ≤ byte then byte * 3 + 1
  else byte * 3

/-- The byte whose digits cover a column of the grid, if it is not in a gap. -/
def byteAtColumn? (column : Int) : Option Nat :=
  (List.range 16).find? fun (byte : Nat) =>
    byteColumn byte ≤ column && column ≤ byteColumn byte + 1

end HexEditor
