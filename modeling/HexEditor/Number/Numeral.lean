/-
How integers are shown. A number is written with the lower-case digits of its
base, behind the mark of that base: `0b`, `0o` and `0x` for two, eight and
sixteen, nothing for ten, and `0[N]` for any other base `N`. Zero has no mark.
Addresses in messages always have the mark of base sixteen, zero included.
-/

import HexEditor.Number.Word

namespace HexEditor

def largestBase : Nat := 36

/-- A base that numbers can be shown in. -/
structure Radix where
  value : Nat
  two_le : 2 ≤ value
  le_largest : value ≤ largestBase
  deriving DecidableEq

/-- The base that an integer is, if numbers can be shown in it. -/
def Radix.ofInt? (value : Int) : Option Radix :=
  if usable : 2 ≤ value.toNat ∧ value.toNat ≤ largestBase then
    some ⟨value.toNat, usable.1, usable.2⟩
  else
    none

def Radix.ten : Radix := ⟨10, by decide, by decide⟩

def Radix.sixteen : Radix := ⟨16, by decide, by decide⟩

/-! ### Digits -/

/-- The character of one digit: `0` to `9`, then `a` to `z`. -/
def digitChar (digit : Nat) : Char :=
  if digit < 10 then Char.ofNat ('0'.toNat + digit) else Char.ofNat ('a'.toNat + (digit - 10))

/-- The digits of a number, least significant first and none for zero. -/
def Radix.digits (base : Radix) (value : Nat) : List Nat :=
  if 0 < value then value % base.value :: base.digits (value / base.value) else []
termination_by value
decreasing_by exact Nat.div_lt_self (by assumption) base.two_le

/-- The digits of a number as text, most significant first and none for zero. -/
def Radix.digitText (base : Radix) (value : Nat) : List Char :=
  (base.digits value).reverse.map digitChar

/-- A natural number as text without a mark; zero is `0`. -/
def Radix.plainText (base : Radix) (value : Nat) : List Char :=
  if value = 0 then ['0'] else base.digitText value

/-- A natural number in base sixteen, without a mark. -/
def hexDigits (value : Nat) : String := String.ofList (Radix.sixteen.plainText value)

def decimalText (value : Int) : String :=
  let magnitude := String.ofList (Radix.ten.plainText value.natAbs)
  if value < 0 then "-" ++ magnitude else magnitude

/-- An integer in base sixteen without a mark, behind its sign. -/
def signedHexDigits (value : Int) : String :=
  if value < 0 then "-" ++ hexDigits value.natAbs else hexDigits value.natAbs

/-- An integer in base sixteen behind its sign and the mark `0x`, as messages show addresses. -/
def hexText (value : Int) : String :=
  (if value < 0 then "-0x" else "0x") ++ hexDigits value.natAbs

def byteHex (byte : UInt8) : List Char :=
  [digitChar (byte.toNat / 16), digitChar (byte.toNat % 16)]

/-! ### Displayed integers -/

def Radix.mark (base : Radix) : List Char :=
  if base.value = 2 then ['0', 'b']
  else if base.value = 8 then ['0', 'o']
  else if base.value = 10 then []
  else if base.value = 16 then ['0', 'x']
  else "0[".toList ++ Radix.ten.plainText base.value ++ [']']

/-- A displayed magnitude: zero bare, anything else behind the mark of its base. -/
def Radix.markedText (base : Radix) (value : Nat) : List Char :=
  if value = 0 then ['0'] else base.mark ++ base.digitText value

/-- A word as the editor displays it, read as a signed number on demand. -/
def Radix.display (base : Radix) (signed : Bool) (value : UInt64) : String :=
  if signed && value &&& signBit != 0 then
    String.ofList ('-' :: base.markedText (-value).toNat)
  else
    String.ofList (base.markedText value.toNat)

/-- The reason why an integer cannot be displayed: there is no such base. -/
structure UnusableBase where
  base : Int
  deriving DecidableEq, Repr

def UnusableBase.message (failure : UnusableBase) : String :=
  "Base must be within 2.." ++ decimalText largestBase ++ ", but is " ++ decimalText failure.base

/-- Displays an integer modulo `2 ^ 64` in a base. -/
def formatInteger (value : Int) (signed : Bool) (base : Int) : Except UnusableBase String :=
  match Radix.ofInt? base with
  | some radix => .ok (radix.display signed (word value))
  | none => .error ⟨base⟩

end HexEditor
