/-
Addresses as they are typed behind a jump command. The words `start`, `begin` and
`end` name the two ends of the file. A number is in base sixteen behind `0x`, in base
two behind `0b`, in base eight if it starts with a zero, and otherwise in base ten.
-/

import HexEditor.Number.Literal

namespace HexEditor

/-- Why a text is no address. -/
inductive AddressFailure where
  | invalidDigit (text : String)
  | tooLarge (text : String)
  deriving DecidableEq, Repr

def AddressFailure.message : AddressFailure → String
  | .invalidDigit text => text ++ ": invalid digit found in string"
  | .tooLarge text => text ++ ": number too large to fit in target type"

def splitAddress (text : List Char) : List Char × Nat :=
  match text with
  | '0' :: 'x' :: digits => (digits, 16)
  | '0' :: 'b' :: digits => (digits, 2)
  | '0' :: _ => (text, 8)
  | _ => (text, 10)

def parseAddress (text : String) : Except AddressFailure Nat :=
  if text = "end" then
    .ok wordLimit
  else if text = "start" ∨ text = "begin" then
    .ok 0
  else
    let (digits, base) := splitAddress text.toList
    if digits.isEmpty || !digits.all fun character => (digitValue? character).isSome then
      .error (.invalidDigit text)
    else
      match readInteger base (String.ofList digits) with
      | .error _ => .error (.invalidDigit text)
      | .ok value => if wordLimit < value.toNat then .error (.tooLarge text) else .ok value.toNat

end HexEditor
