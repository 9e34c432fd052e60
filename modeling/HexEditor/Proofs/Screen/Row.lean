/-
What is seen in a row of bytes. Every byte has two columns of its own for its digits and one
for its character, and nothing that is put on the row later covers them. All other columns
of the two fields of bytes are blank: the gaps between the groups, and what lies behind the
last byte. An address is not wider than its field, so that it does not show in the grid.
-/

import HexEditor.Proofs.Number.Numeral
import HexEditor.Proofs.Screen.Line
import HexEditor.Proofs.Window.Cells
import HexEditor.Screen.Row

namespace HexEditor

/-! ### Addresses -/

theorem length_hexDigits_le {value : Nat} (small : value ≤ wordLimit) :
    (hexDigits value).toList.length ≤ 16 := by
  have within : value < 16 ^ 16 := by
    rw [wordLimit] at small
    omega
  rw [hexDigits, String.toList_ofList, Radix.plainText]
  split_ifs
  · decide
  · rw [Radix.digitText, List.length_map, List.length_reverse, Radix.digits_eq]
    exact (Nat.digits_length_le_iff (by decide) value).2 within

/-- The address of a byte fits into its field. -/
theorem length_address_le {offset : Int} (natural : 0 ≤ offset) (small : offset ≤ wordLimit) :
    (alignRight addressWidth (signedHexDigits offset).toList).length ≤ addressWidth := by
  have digits : (signedHexDigits offset).toList.length ≤ 16 := by
    rw [signedHexDigits, if_neg (Int.not_lt.2 natural)]
    exact length_hexDigits_le (by omega)
  rw [alignRight, List.length_append, List.length_replicate, addressWidth]
  omega

/-! ### Columns of digits -/

/-- The column of the first digit of a byte. -/
def digitColumn (byte : Nat) : Nat := gridColumn + (byteColumn byte).toNat

/-- Whether a column is one of the two with the digits of a byte. -/
def IsDigitOf (byte place : Nat) : Prop := digitColumn byte ≤ place ∧ place ≤ digitColumn byte + 1

theorem digitColumn_eq (byte : Nat) : (digitColumn byte : Int) = gridColumn + byteColumn byte := by
  rw [digitColumn, byteColumn]
  split_ifs <;> omega

/-- The digits of a byte stand in front of those of the bytes behind it. -/
theorem digitColumn_lt {first second : Nat} (before : first < second) :
    digitColumn first + 1 < digitColumn second := by
  have order := byteColumn_lt (Int.ofNat_lt.2 before)
  have start := digitColumn_eq first
  have next := digitColumn_eq second
  omega

/-- The digits of all bytes of a row stand in the grid. -/
theorem digitColumn_bounds {byte : Nat} (inRow : byte < 16) :
    gridColumn ≤ digitColumn byte ∧ digitColumn byte + 1 < gridColumn + gridWidth := by
  have bounds := byteColumn_bounds (Int.natCast_nonneg byte) (Int.ofNat_lt.2 inRow)
  have start := digitColumn_eq byte
  omega

namespace ScreenLine

variable (line : ScreenLine) (bytes : List UInt8) (number place : Nat)

/-- Where no byte has its digits nothing changes. -/
theorem cell_putDigits_of_apart
    (apart : ∀ index < bytes.length, ¬ IsDigitOf (number + index) place) :
    (putDigits line number bytes).cell place = line.cell place := by
  induction bytes generalizing line number with
  | nil => rfl
  | cons byte rest inductionHypothesis =>
    have here := apart 0 (Nat.zero_lt_succ _)
    have behind : ∀ index < rest.length, ¬ IsDigitOf (number + 1 + index) place := by
      intro index inside
      have next := apart (index + 1) (Nat.succ_lt_succ inside)
      rwa [Nat.add_comm index 1, ← Nat.add_assoc] at next
    rw [putDigits, inductionHypothesis _ _ behind, ← digitColumn_eq, cell_put, if_neg]
    intro covered
    exact here ⟨covered.1, Nat.lt_succ_iff.1 covered.2⟩

/-- The digits of every byte are seen in its columns; those of the bytes behind it do not reach
there. -/
theorem cell_putDigits {index half : Nat} {byte : UInt8} (found : bytes[index]? = some byte)
    (digit : half < 2) :
    (putDigits line number bytes).cell (digitColumn (number + index) + half) =
      (byteHex byte)[half]?.getD ' ' := by
  induction bytes generalizing line number index with
  | nil => cases found
  | cons first rest inductionHypothesis =>
    rw [putDigits, ← digitColumn_eq]
    cases index with
    | zero =>
      cases found
      have apart : ∀ other < rest.length,
          ¬ IsDigitOf (number + 1 + other) (digitColumn number + half) := by
        rintro other - ⟨covers, -⟩
        have order : digitColumn number + 1 < digitColumn (number + 1 + other) :=
          digitColumn_lt (by omega)
        omega
      have within : digitColumn number ≤ digitColumn number + half ∧
          digitColumn number + half < digitColumn number + (byteHex byte).length :=
        ⟨Nat.le_add_right _ _, Nat.add_lt_add_left digit _⟩
      show (putDigits (line.put (digitColumn number : Nat) (byteHex byte)) (number + 1) rest).cell
        (digitColumn number + half) = _
      rw [cell_putDigits_of_apart _ _ _ _ apart, cell_put, if_pos within, Nat.add_sub_cancel_left]
    | succ index =>
      have next := inductionHypothesis (line.put (digitColumn number : Nat) (byteHex first))
        (number + 1) found
      rwa [Nat.add_assoc, Nat.add_comm 1] at next

end ScreenLine

/-! ### Rows -/

section Row

variable {offset : Int} {bytes : List UInt8} {place : Nat}

/-- In front of the characters a row shows its address, its digits, and what sets them off. -/
theorem cell_rowLine_of_lt (before : place < charColumn - 2) :
    (rowLine offset bytes).cell place =
      (putDigits ((ScreenLine.put {} 0 (alignRight addressWidth (signedHexDigits offset).toList)
        (some "address")).put addressWidth " │ ".toList) 0 bytes).cell place := by
  have separator : ((charColumn : Int) - 2) = (charColumn - 2 : Nat) := rfl
  have first : place < charColumn := by omega
  have last : place < lineWidth := by
    rw [lineWidth]
    omega
  rw [rowLine, rowLineOf, ScreenLine.cell_put_of_lt _ _ _ _ _ last,
    ScreenLine.cell_put_of_lt _ _ _ _ _ first, separator,
    ScreenLine.cell_put_of_lt _ _ _ _ _ before]

/-- The digits of a byte are seen in its columns. -/
theorem cell_rowLine_digit {index half : Nat} {byte : UInt8} (found : bytes[index]? = some byte)
    (inRow : index < 16) (digit : half < 2) :
    (rowLine offset bytes).cell (digitColumn index + half) = (byteHex byte)[half]?.getD ' ' := by
  have bounds := (digitColumn_bounds inRow).2
  rw [gridColumn, gridWidth] at bounds
  have before : digitColumn index + half < charColumn - 2 := by
    rw [charColumn]
    omega
  have shown := ScreenLine.cell_putDigits
    ((ScreenLine.put {} 0 (alignRight addressWidth (signedHexDigits offset).toList)
      (some "address")).put addressWidth " │ ".toList) bytes 0 found digit
  rw [Nat.zero_add] at shown
  rw [cell_rowLine_of_lt before]
  exact shown

/-- Behind the address and what sets it off nothing stands before the digits are put there. -/
theorem cell_address (natural : 0 ≤ offset) (small : offset ≤ wordLimit)
    (behind : gridColumn ≤ place) :
    ((ScreenLine.put {} 0 (alignRight addressWidth (signedHexDigits offset).toList)
      (some "address")).put addressWidth " │ ".toList).cell place = ' ' := by
  have narrow := length_address_le natural small
  have width : " │ ".toList.length = 3 := rfl
  have zero : (0 : Int) = (0 : Nat) := rfl
  rw [addressWidth] at narrow ⊢
  rw [gridColumn] at behind
  rw [ScreenLine.cell_put, if_neg (by omega), zero, ScreenLine.cell_put, if_neg (by omega)]
  rfl

/-- In the grid a row is blank where no digit is. -/
theorem cell_rowLine_gap (natural : 0 ≤ offset) (small : offset ≤ wordLimit)
    (behind : gridColumn ≤ place) (before : place < charColumn - 2)
    (apart : ∀ index < bytes.length, ¬ IsDigitOf index place) :
    (rowLine offset bytes).cell place = ' ' := by
  have others : ∀ index < bytes.length, ¬ IsDigitOf (0 + index) place := by
    simpa only [Nat.zero_add] using apart
  rw [cell_rowLine_of_lt before, ScreenLine.cell_putDigits_of_apart _ _ _ _ others]
  exact cell_address natural small behind

/-- The character of a byte is seen in its column. -/
theorem cell_rowLine_character {index : Nat} {byte : UInt8} (found : bytes[index]? = some byte)
    (inRow : index < 16) : (rowLine offset bytes).cell (charColumn + index) = byteGlyph byte := by
  obtain ⟨inside, -⟩ := List.getElem?_eq_some_iff.1 found
  have last : charColumn + index < lineWidth := Nat.add_lt_add_left inRow charColumn
  have within : charColumn ≤ charColumn + index ∧
      charColumn + index < charColumn + (bytes.map byteGlyph).length := by
    rw [List.length_map]
    omega
  rw [rowLine, rowLineOf, ScreenLine.cell_put_of_lt _ _ _ _ _ last, ScreenLine.cell_put,
    if_pos within, Nat.add_sub_cancel_left, List.getElem?_map, found]
  rfl

/-- Behind the last byte the characters are blank. -/
theorem cell_rowLine_behind (natural : 0 ≤ offset) (small : offset ≤ wordLimit)
    (short : bytes.length ≤ 16) (behind : charColumn + bytes.length ≤ place)
    (before : place < lineWidth) : (rowLine offset bytes).cell place = ' ' := by
  have separator : ((charColumn : Int) - 2) = (charColumn - 2 : Nat) := rfl
  have width : "│ ".toList.length = 2 := rfl
  have grid : gridColumn ≤ place := by
    rw [charColumn] at behind
    rw [gridColumn]
    omega
  have apart : ∀ index < bytes.length, ¬ IsDigitOf (0 + index) place := by
    rintro index inside ⟨-, covers⟩
    have bounds := (digitColumn_bounds (show 0 + index < 16 by omega)).2
    rw [gridColumn, gridWidth] at bounds
    rw [charColumn] at behind
    omega
  rw [rowLine, rowLineOf, ScreenLine.cell_put_of_lt _ _ _ _ _ before, ScreenLine.cell_put,
    if_neg (by rw [List.length_map]; omega), separator, ScreenLine.cell_put,
    if_neg (by rw [charColumn] at behind ⊢; omega),
    ScreenLine.cell_putDigits_of_apart _ _ _ _ apart]
  exact cell_address natural small grid

/-- A row reaches to the end of the field of characters. -/
theorem le_length_rowLine : lineWidth ≤ (rowLine offset bytes).text.length := by
  rw [rowLine, rowLineOf, ScreenLine.length_put]
  exact Nat.le_max_right _ _

theorem styled_putDigits (line : ScreenLine) (number : Nat) (name : String) :
    (putDigits line number bytes).styled name = line.styled name := by
  induction bytes generalizing line number with
  | nil => rfl
  | cons byte rest inductionHypothesis =>
    rw [putDigits, inductionHypothesis, ScreenLine.styled_put]

/-- A row has no span but the one of the address. -/
theorem styled_rowLine_of_ne {name : String} (other : "address" ≠ name) :
    (rowLine offset bytes).styled name = [] := by
  rw [rowLine, rowLineOf, ScreenLine.styled_put, ScreenLine.styled_put, ScreenLine.styled_put,
    styled_putDigits, ScreenLine.styled_put, ScreenLine.styled_put_of_ne _ _ _ _ other]
  rfl

end Row

end HexEditor
