/-
The shortest decimal of a binary fraction: the fewest digits that read back as the
same number, and of those the nearest to it. All comparisons are between natural
numbers. The numbers that round to a finite nonzero one, which is `m * 2 ^ q`, lie
between the midpoints to its two neighbours, ends included if `m` is even. For
each count of digits only the two points of the decimal grid around the number can
lie there, so that those two are tried, with one digit more each time.
-/

import HexEditor.Number.BinaryFraction
import HexEditor.Number.Numeral

namespace HexEditor

/-- A positive number with the interval that rounds to it, all in units of `scale / divisor`. -/
structure RoundingInterval where
  low : Nat
  value : Nat
  high : Nat
  closed : Bool
  scale : Nat
  divisor : Nat

/-- The interval of a binary fraction; where the exponent steps, the neighbour below is nearer. -/
def RoundingInterval.ofFraction (fraction : BinaryFraction) : RoundingInterval :=
  let quarters := 4 * fraction.mantissa
  let exponent := fraction.exponent - 2
  let atStep := fraction.field = 0 && 1 < fraction.biased
  { low := if atStep then quarters - 1 else quarters - 2
    value := quarters
    high := quarters + 2
    closed := fraction.mantissa % 2 == 0
    scale := Nat.pow 2 exponent.toNat
    divisor := Nat.pow 2 (-exponent).toNat }

def tenPower (exponent : Int) : Nat × Nat :=
  (Nat.pow 10 exponent.toNat, Nat.pow 10 (-exponent).toNat)

/-- Whether `digits * 10 ^ exponent` rounds to the number. -/
def RoundingInterval.contains (interval : RoundingInterval) (digits : Nat) (exponent : Int) :
    Bool :=
  let (up, down) := tenPower exponent
  let point := digits * up * interval.divisor
  let low := interval.low * interval.scale * down
  let high := interval.high * interval.scale * down
  if interval.closed then low ≤ point && point ≤ high else low < point && point < high

/-- The number in units of `10 ^ exponent`, rounded down, and whether the point above is nearer, on
a tie if it is even. -/
def RoundingInterval.floorAt (interval : RoundingInterval) (exponent : Int) : Nat × Bool :=
  let (up, down) := tenPower exponent
  let numerator := interval.value * interval.scale * down
  let denominator := interval.divisor * up
  let digits := numerator / denominator
  let rest := 2 * (numerator % denominator)
  (digits, denominator < rest || (rest == denominator && digits % 2 == 1))

/-- The exponent of the first digit, searched among `fuel` ones from `exponent` down. -/
def RoundingInterval.leadingExponent (interval : RoundingInterval) : Nat → Int → Int
  | 0, exponent => exponent
  | fuel + 1, exponent =>
    if 0 < (interval.floorAt exponent).1 then exponent
    else interval.leadingExponent fuel (exponent - 1)

/-- The shortest digits and the exponent of the last one, with at least `count` digits and `fuel`
attempts. -/
def RoundingInterval.shortestFrom (interval : RoundingInterval) (leading : Int) :
    Nat → Nat → Nat × Int
  | 0, count =>
    let exponent := leading - count + 1
    let (digits, above) := interval.floorAt exponent
    (if above then digits + 1 else digits, exponent)
  | fuel + 1, count =>
    let exponent := leading - count + 1
    let (digits, above) := interval.floorAt exponent
    let first := if above then digits + 1 else digits
    let second := if above then digits else digits + 1
    if interval.contains first exponent then (first, exponent)
    else if interval.contains second exponent then (second, exponent)
    else interval.shortestFrom leading fuel (count + 1)

/-- Digits with the point behind `point` of them, in positional notation with at least one digit on
either side. -/
def positionalText (digits : List Char) (point : Int) : List Char :=
  if point ≤ 0 then
    '0' :: '.' :: (List.replicate (-point).toNat '0' ++ digits)
  else
    let whole := digits.take point.toNat
    let fraction := digits.drop point.toNat
    whole ++ List.replicate (point.toNat - whole.length) '0' ++
      '.' :: (if fraction.isEmpty then ['0'] else fraction)

/-- Digits with the point behind the first, and an exponent of two digits or more. -/
def exponentText (digits : List Char) (exponent : Int) : List Char :=
  let fraction := digits.drop 1
  let magnitude := Radix.ten.plainText exponent.natAbs
  digits.take 1 ++ (if fraction.isEmpty then [] else '.' :: fraction) ++ 'e' ::
    (if exponent < 0 then '-' else '+') ::
    ((if magnitude.length < 2 then ['0'] else []) ++ magnitude)

/-- Digits without the zeros at their end. -/
def trimZeros (digits : List Char) : List Char :=
  (digits.reverse.dropWhile (· == '0')).reverse

/-- The shortest decimal of a number, positional from `1e-4` up to `1e16`. -/
def shortestText (number : Float) : String :=
  let fraction := BinaryFraction.ofFloat number
  let sign := if fraction.negative then ['-'] else []
  if fraction.isSpecial then
    if fraction.field = 0 then String.ofList (sign ++ "inf".toList) else "nan"
  else if fraction.mantissa = 0 then
    String.ofList (sign ++ "0.0".toList)
  else
    let interval := RoundingInterval.ofFraction fraction
    let leading := interval.leadingExponent 640 309
    let (value, exponent) := interval.shortestFrom leading 17 1
    let all := Radix.ten.plainText value
    let digits := trimZeros all
    let point := exponent + all.length
    String.ofList (sign ++
      if point ≤ -4 || 16 < point then exponentText digits (point - 1)
      else positionalText digits point)

end HexEditor
