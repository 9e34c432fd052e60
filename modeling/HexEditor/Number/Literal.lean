/-
Written integers. A literal is a sign, the mark of a base and digits, between
blanks. Single underscores may stand between digits and behind a mark, and decimal
digits of any script count as digits. Where the base is left open the mark decides
it, and a literal without a mark is decimal and starts with zero only if it is zero.
-/

import HexEditor.Text.Blank
import HexEditor.Text.DecimalDigit
import HexEditor.Text.Quoted

namespace HexEditor

/-- The longest literal, in digits, of a base that is not a power of two. -/
def literalDigitLimit : Nat := 4300

/-- Why a text is no integer. -/
inductive LiteralFailure where
  /-- It does not follow the grammar; the base is zero where it was left open. -/
  | malformed (base : Nat) (text : String)
  /-- It has more digits than are converted. -/
  | tooLong (digits : Nat)
  deriving DecidableEq, Repr

/-- The wording of a failure, which quotes the first two hundred characters of the text. -/
def LiteralFailure.message : LiteralFailure → String
  | .malformed base text =>
    "invalid literal for int() with base " ++ decimalText base ++ ": " ++
      String.ofList ((quoted text).toList.take 200)
  | .tooLong digits =>
    "Exceeds the limit (" ++ decimalText literalDigitLimit ++
      " digits) for integer string conversion: value has " ++ decimalText digits ++
      " digits; use sys.set_int_max_str_digits() to increase the limit"

/-! ### Characters of a literal -/

/-- The value of a letter or digit of ASCII as a digit of a base up to thirty-six. -/
def digitValue? (character : Char) : Option Nat :=
  if '0' ≤ character ∧ character ≤ '9' then some (character.toNat - '0'.toNat)
  else if 'a' ≤ character ∧ character ≤ 'z' then some (character.toNat - 'a'.toNat + 10)
  else if 'A' ≤ character ∧ character ≤ 'Z' then some (character.toNat - 'A'.toNat + 10)
  else none

def isAsciiDigit (character : Char) : Bool := '0' ≤ character && character ≤ '9'

def decimalValue (digits : List Char) : Nat :=
  digits.foldl (fun value digit => value * 10 + (digit.toNat - '0'.toNat)) 0

/-- A character of a literal in ASCII: blanks of other scripts become spaces and digits of other
scripts become digits. -/
def literalChar (character : Char) : Char :=
  if character.toNat < 0x80 then character
  else if isBlank character then ' '
  else
    match decimalDigit? character with
    | some digit => digitChar digit
    | none => '?'

def isLiteralBlank (character : Char) : Bool :=
  character == ' ' || (0x09 ≤ character.toNat && character.toNat ≤ 0x0D)

/-! ### The grammar -/

/-- Reads digits of a base with single underscores between them, and gives their value, their
number and the rest. `needed` says that a digit must follow, as it must at the start and behind an
underscore. -/
def readDigits (base value count : Nat) (needed : Bool) :
    List Char → Option (Nat × Nat × List Char)
  | [] => if needed then none else some (value, count, [])
  | character :: rest =>
    if character == '_' then
      if needed then none else readDigits base value count true rest
    else
      match digitValue? character with
      | some digit =>
        if digit < base then readDigits base (value * base + digit) (count + 1) false rest
        else if needed then none else some (value, count, character :: rest)
      | none => if needed then none else some (value, count, character :: rest)

/-- The base that a mark stands for. -/
def markedBase? (letter : Char) : Option Nat :=
  if letter == 'x' || letter == 'X' then some 16
  else if letter == 'o' || letter == 'O' then some 8
  else if letter == 'b' || letter == 'B' then some 2
  else none

/-- The base of unsigned digits, whether they must be zero, and what follows the mark. A base of
zero is left open. -/
def splitMark (base : Nat) (text : List Char) : Nat × Bool × List Char :=
  match text with
  | '0' :: letter :: rest =>
    match markedBase? letter with
    | some marked =>
      if base == 0 || base == marked then
        (marked, false, if rest.head? == some '_' then rest.drop 1 else rest)
      else
        (base, false, text)
    | none => if base == 0 then (10, true, text) else (base, false, text)
  | '0' :: _ => if base == 0 then (10, true, text) else (base, false, text)
  | _ => if base == 0 then (10, false, text) else (base, false, text)

/-- Whether digits of a base are converted however many there are. -/
def unlimitedBase (base : Nat) : Bool :=
  base == 2 || base == 4 || base == 8 || base == 16 || base == 32

/-- The natural number that digits, with or without a mark, spell up to the end of a literal. -/
def readMagnitude (base : Nat) (whole : String) (text : List Char) : Except LiteralFailure Nat :=
  let (radix, mustBeZero, digits) := splitMark base text
  match readDigits radix 0 0 true digits with
  | none => .error (.malformed base whole)
  | some (value, count, rest) =>
    if !unlimitedBase radix && literalDigitLimit < count then
      .error (.tooLong count)
    else if (mustBeZero && value != 0) || !rest.all isLiteralBlank then
      .error (.malformed base whole)
    else
      .ok value

/-- The integer that a text spells in a base, or in the base its mark decides if `base` is zero. -/
def readInteger (base : Nat) (text : String) : Except LiteralFailure Int :=
  match (text.toList.map literalChar).dropWhile isLiteralBlank with
  | '-' :: digits => (readMagnitude base text digits).map fun value => -(value : Int)
  | '+' :: digits => (readMagnitude base text digits).map fun value => (value : Int)
  | digits => (readMagnitude base text digits).map fun value => (value : Int)

end HexEditor
