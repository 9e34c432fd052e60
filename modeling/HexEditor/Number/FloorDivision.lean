/-
Between integers and floating-point numbers. An integer is taken to the nearest number
if there is one; a number is cut off to an integer, or it is divided by another one and
the quotient rounded down. The remainder of a division is exact. What is left of the
dividend without it is a multiple of the divisor up to rounding, so the quotient of the
two is taken to the integer next to it. For numbers that fill their 53 bits this can
differ from the greatest integer under the true quotient.
-/

import HexEditor.Number.BinaryFraction

namespace HexEditor

/-- Why there is no integer. -/
inductive ConversionFailure where
  /-- There is no number either. -/
  | undefined
  | infinite
  | divisionByZero
  /-- An integer is too large for a floating-point number. -/
  | tooLarge
  deriving DecidableEq, Repr

def ConversionFailure.message : ConversionFailure → String
  | .undefined => "cannot convert float NaN to integer"
  | .infinite => "cannot convert float infinity to integer"
  | .divisionByZero => "float floor division by zero"
  | .tooLarge => "int too large to convert to float"

/-- The floating-point number nearest to an integer, on a tie the even one. -/
def nearestFloat (value : Int) : Except ConversionFailure Float :=
  let size := Float.ofScientific value.natAbs false 0
  if size.isInf then .error .tooLarge else .ok (if value < 0 then -size else size)

/-- The numerator and denominator of a number that has them. -/
def quotientOf (number : Float) : Except ConversionFailure (Int × Nat) :=
  if number.isNaN then .error .undefined
  else if number.isInf then .error .infinite
  else .ok (BinaryFraction.ofFloat number).parts

/-- A number without what follows its point. -/
def truncated (number : Float) : Except ConversionFailure Int :=
  (quotientOf number).map fun (numerator, denominator) => Int.tdiv numerator denominator

/-- The integer next to a number, the lower one of two. -/
def nearestInteger (number : Float) : Except ConversionFailure Int :=
  (quotientOf number).map fun (numerator, denominator) =>
    let below := Int.fdiv numerator denominator
    if (denominator : Int) < 2 * (numerator - below * denominator) then below + 1 else below

/-- What a division leaves, with the sign of the dividend. It is found among multiples of one power
of two, which both numbers are. -/
def divisionRest (dividend divisor : Float) : Float :=
  if divisor.isInf && dividend.isFinite then
    dividend
  else if dividend.isFinite && divisor.isFinite then
    let whole := BinaryFraction.ofFloat dividend
    let part := BinaryFraction.ofFloat divisor
    let least := min whole.exponent part.exponent
    let rest := whole.mantissa * Nat.pow 2 (whole.exponent - least).toNat %
      (part.mantissa * Nat.pow 2 (part.exponent - least).toNat)
    let size := (Float.ofNat rest).scaleB least
    if whole.negative then -size else size
  else
    0.0 / 0.0

def floorDivide (dividend divisor : Float) : Except ConversionFailure Int :=
  if divisor == 0.0 then
    .error .divisionByZero
  else
    let rest := divisionRest dividend divisor
    let quotient := (dividend - rest) / divisor
    let crosses := rest != 0.0 && (divisor < 0.0 : Bool) != (rest < 0.0 : Bool)
    nearestInteger (if crosses then quotient - 1.0 else quotient)

end HexEditor
