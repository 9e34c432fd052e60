/-
Binary fractions of 64 bits. A finite one is a sign, a natural number below `2 ^ 53`
and a power of two. The number and the exponent are spelled by two fields: below the
least exponent the number has no leading bit of its own, and everywhere else that bit
is left out of the field.
-/

namespace HexEditor

/-- The fields that spell a binary fraction. -/
structure BinaryFraction where
  negative : Bool
  /-- The field of the exponent, of eleven bits. -/
  biased : Nat
  /-- The field of the number, of 52 bits. -/
  field : Nat

namespace BinaryFraction

/-- The leading bit that is left out of the field. -/
def leadingBit : Nat := 0x10000000000000

def ofFloat (number : Float) : BinaryFraction :=
  let bits := number.toBits.toNat
  { negative := 0x8000000000000000 ≤ bits
    biased := bits / leadingBit % 0x800
    field := bits % leadingBit }

/-- Whether the fields spell no number but an infinity or the lack of a number. -/
def isSpecial (fraction : BinaryFraction) : Bool := fraction.biased == 0x7FF

/-- The natural number that is multiplied by a power of two. -/
def mantissa (fraction : BinaryFraction) : Nat :=
  if fraction.biased = 0 then fraction.field else leadingBit + fraction.field

/-- The exponent of the power of two. -/
def exponent (fraction : BinaryFraction) : Int :=
  (if fraction.biased = 0 then 1 else (fraction.biased : Int)) - 1075

/-- A finite number as a quotient whose divisor is a power of two. -/
def parts (fraction : BinaryFraction) : Int × Nat :=
  let magnitude := fraction.mantissa * Nat.pow 2 fraction.exponent.toNat
  (if fraction.negative then -magnitude else magnitude, Nat.pow 2 (-fraction.exponent).toNat)

end BinaryFraction

end HexEditor
