/-
Bytes and the numbers they spell. A run of bytes spells a natural number in one
of two orders; a natural number below `2 ^ bits` may be read as a signed one in
two's complement; and every integer has exactly one 64-bit word congruent to it.
Everything that loads a number from a file goes through these three readings.
-/

namespace HexEditor

/-- The order in which the bytes of a number are stored. -/
inductive ByteOrder where
  /-- Least significant byte first. -/
  | little
  /-- Most significant byte first. -/
  | big
  deriving DecidableEq, Repr, Inhabited

/-! ### Reading and writing byte strings -/

/-- The number that bytes spell when the first one counts least. -/
def littleEndian : List UInt8 → Nat
  | [] => 0
  | byte :: rest => byte.toNat + 256 * littleEndian rest

def ByteOrder.value : ByteOrder → List UInt8 → Nat
  | .little, bytes => littleEndian bytes
  | .big, bytes => littleEndian bytes.reverse

/-- The lowest `width` bytes of a number, least significant first. -/
def littleEndianBytes : Nat → Nat → List UInt8
  | 0, _ => []
  | width + 1, value => UInt8.ofNat (value % 256) :: littleEndianBytes width (value / 256)

/-- A number is spelled with exactly as many bytes as asked for. -/
theorem length_littleEndianBytes (width value : Nat) :
    (littleEndianBytes width value).length = width := by
  induction width generalizing value with
  | zero => rfl
  | succ width inductionHypothesis => simp [littleEndianBytes, inductionHypothesis]

/-- Reading back what was spelled gives the number modulo the room it had. -/
theorem littleEndian_littleEndianBytes (width value : Nat) :
    littleEndian (littleEndianBytes width value) = value % Nat.pow 256 width := by
  induction width generalizing value with
  | zero => exact (Nat.mod_one value).symm
  | succ width inductionHypothesis =>
    have small : (UInt8.ofNat (value % 256)).toNat = value % 256 := Nat.mod_mod _ _
    have room : Nat.pow 256 (width + 1) = 256 * Nat.pow 256 width := Nat.mul_comm _ _
    rw [littleEndianBytes, littleEndian, small, inductionHypothesis, room, Nat.mod_mul]

/-! ### Words -/

def wordLimit : Nat := 0xFFFFFFFFFFFFFFFF

/-- A number that a word holds is what its word holds. -/
theorem toNat_ofNat_of_le {value : Nat} (small : value ≤ wordLimit) :
    (UInt64.ofNat value).toNat = value :=
  UInt64.toNat_ofNat_of_lt' (Nat.lt_of_le_of_lt small (by decide))

/-- The word congruent to an integer modulo `2 ^ 64`. -/
def word (value : Int) : UInt64 := UInt64.ofNat (value % 0x10000000000000000).toNat

def word? (value : Int) : Option UInt64 :=
  if 0 ≤ value ∧ value ≤ wordLimit then some (word value) else none

def byte? (value : Int) : Option UInt8 :=
  if 0 ≤ value ∧ value ≤ 0xFF then some (UInt8.ofNat value.toNat) else none

/-- The bit that makes a word negative when it is read as a signed number. -/
def signBit : UInt64 := 0x8000000000000000

/-- The signed reading of a number of `bits` bits in two's complement. -/
def twosComplement (bits value : Nat) : Int :=
  if Nat.pow 2 bits ≤ 2 * value then (value : Int) - Nat.pow 2 bits else value

/-- The number that a word stands for when it is read as a signed one. -/
def signedValue (value : UInt64) : Int := twosComplement 64 value.toNat

/-- The word that bytes spell, extended by their sign bit if they are read as signed. -/
def decodeInteger (order : ByteOrder) (signed : Bool) (bytes : List UInt8) : UInt64 :=
  let value := order.value bytes
  word (if signed then twosComplement (8 * bytes.length) value else value)

def wordBytes (value : UInt64) : List UInt8 := littleEndianBytes 8 value.toNat

theorem length_wordBytes (value : UInt64) : (wordBytes value).length = 8 :=
  length_littleEndianBytes 8 value.toNat

theorem littleEndian_wordBytes (value : UInt64) : littleEndian (wordBytes value) = value.toNat := by
  have room : Nat.pow 256 8 = 2 ^ 64 := by decide
  rw [wordBytes, littleEndian_littleEndianBytes, room, Nat.mod_eq_of_lt value.toNat_lt]

end HexEditor
