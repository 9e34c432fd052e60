/-
Reading JSON. A document is one value between blanks. The reader works on the
characters that are left and hands back what it did not use; nested values are read
with a bound on the number of calls, and twice the length of the text is always enough,
since of two calls in a row one uses a character. Values can be nested only so deep. Of
two members with one name the last counts. `NaN` and `Infinity` are read as fractions,
and a surrogate escape without its partner reads as U+FFFD.
-/

import HexEditor.Json.Value
import HexEditor.Number.Literal

namespace HexEditor.Json

/-- Why a text is no document. -/
inductive Failure where
  | malformed
  /-- An integer in it has more digits than are converted. -/
  | tooLong (digits : Nat)
  | tooDeep
  deriving DecidableEq, Repr

def Failure.message : Failure → String
  | .malformed => "<json error>"
  | .tooLong digits => (LiteralFailure.tooLong digits).message
  | .tooDeep => "maximum recursion depth exceeded"

def nestingLimit : Nat := 990

def isSpace (character : Char) : Bool :=
  character == ' ' || character == '\t' || character == '\n' || character == '\r'

def skipSpace (text : List Char) : List Char := text.dropWhile isSpace

/-! ### Strings -/

/-- The number that four digits of base sixteen spell. -/
def unitOf? (first second third fourth : Char) : Option Nat :=
  match digitValue? first, digitValue? second, digitValue? third, digitValue? fourth with
  | some a, some b, some c, some d =>
    if a < 16 ∧ b < 16 ∧ c < 16 ∧ d < 16 then some (((a * 16 + b) * 16 + c) * 16 + d) else none
  | _, _, _, _ => none

/-- Whether a unit of UTF-16 opens a pair. -/
def isHighUnit (unit : Nat) : Bool := 0xD800 ≤ unit && unit < 0xDC00

/-- Whether a unit of UTF-16 closes a pair. -/
def isLowUnit (unit : Nat) : Bool := 0xDC00 ≤ unit && unit < 0xE000

/-- The character that stands for a surrogate without its partner. -/
def loneSurrogate : Char := Char.ofNat 0xFFFD

/-- The character that a single letter escapes. -/
def letterEscape? (letter : Char) : Option Char :=
  if letter == '"' || letter == '\\' || letter == '/' then some letter
  else if letter == 'b' then some '\x08'
  else if letter == 'f' then some '\x0c'
  else if letter == 'n' then some '\n'
  else if letter == 'r' then some '\r'
  else if letter == 't' then some '\t'
  else none

/-- The characters so far, last one first, once a unit that waited for its partner is given up. -/
def settled (high : Option Nat) (read : List Char) : List Char :=
  if high.isSome then loneSurrogate :: read else read

/-- Reads a string up to its closing quote; `high` is a unit that waits for its partner and `read`
holds the characters so far, last one first. -/
def readString (high : Option Nat) (read : List Char) : List Char → Option (List Char × List Char)
  | [] => none
  | '"' :: rest => some ((settled high read).reverse, rest)
  | '\\' :: 'u' :: first :: second :: third :: fourth :: rest =>
    match unitOf? first second third fourth, high with
    | none, _ => none
    | some unit, some opening =>
      if isLowUnit unit then
        let code := 0x10000 + (opening - 0xD800) * 0x400 + (unit - 0xDC00)
        readString none (Char.ofNat code :: read) rest
      else if isHighUnit unit then
        readString (some unit) (settled high read) rest
      else
        readString none (Char.ofNat unit :: settled high read) rest
    | some unit, none =>
      if isHighUnit unit then readString (some unit) read rest
      else if isLowUnit unit then readString none (loneSurrogate :: read) rest
      else readString none (Char.ofNat unit :: read) rest
  | '\\' :: letter :: rest =>
    match letterEscape? letter with
    | some character => readString none (character :: settled high read) rest
    | none => none
  | character :: rest =>
    if character.toNat < 0x20 || character == '\\' then none
    else readString none (character :: settled high read) rest

def stringAt (text : List Char) : Option (String × List Char) :=
  (readString none [] text).map fun (characters, rest) => (String.ofList characters, rest)

/-! ### Numbers -/

/-- The digits of a fraction behind its point, if there are any. -/
def fractionDigits : List Char → List Char × List Char
  | '.' :: rest =>
    let digits := rest.takeWhile isAsciiDigit
    if digits.isEmpty then ([], '.' :: rest) else (digits, rest.dropWhile isAsciiDigit)
  | text => ([], text)

def exponentOf (text : List Char) : Option Int × List Char :=
  match text with
  | letter :: rest =>
    if letter == 'e' || letter == 'E' then
      let (negative, digits) :=
        match rest with
        | '-' :: rest => (true, rest)
        | '+' :: rest => (false, rest)
        | _ => (false, rest)
      let read := digits.takeWhile isAsciiDigit
      if read.isEmpty then (none, text)
      else
        let value : Int := decimalValue read
        (some (if negative then -value else value), digits.dropWhile isAsciiDigit)
    else
      (none, text)
  | [] => (none, text)

/-- The fraction nearest to `mantissa * 10 ^ exponent`. -/
def fractionOf (mantissa : Nat) (exponent : Int) : Float :=
  if mantissa = 0 then 0.0
  else
    let leading := exponent + (Radix.ten.digits mantissa).length
    if 400 < leading then 1.0 / 0.0
    else if leading < -400 then 0.0
    else Float.ofScientific mantissa (exponent < 0) exponent.natAbs

/-- The number that begins with a digit, behind a sign that has been read. -/
def numberAt (negative : Bool) (text : List Char) : Except Failure (Json × List Char) :=
  let whole := match text with
    | '0' :: _ => ['0']
    | _ => text.takeWhile isAsciiDigit
  if whole.isEmpty then
    .error .malformed
  else
    let (fractional, rest) := fractionDigits (text.drop whole.length)
    let (exponent, rest) := exponentOf rest
    if fractional.isEmpty && exponent.isNone then
      if literalDigitLimit < whole.length then
        .error (.tooLong whole.length)
      else
        let value : Int := decimalValue whole
        .ok (.integer (if negative then -value else value), rest)
    else
      let value := fractionOf (decimalValue (whole ++ fractional))
        (exponent.getD 0 - fractional.length)
      .ok (.fraction (if negative then -value else value), rest)

/-! ### Values -/

/-- What is left behind a given beginning. -/
def after? : List Char → List Char → Option (List Char)
  | [], text => some text
  | expected :: rest, text =>
    match text with
    | character :: text => if character == expected then after? rest text else none
    | [] => none

def words : List (List Char × Json) :=
  [("null".toList, .null), ("true".toList, .bool true), ("false".toList, .bool false),
   ("NaN".toList, .fraction (0.0 / 0.0)), ("Infinity".toList, .fraction (1.0 / 0.0)),
   ("-Infinity".toList, .fraction (-1.0 / 0.0))]

def scalarAt (text : List Char) : Except Failure (Json × List Char) :=
  match words.findSome? fun (word, value) => (after? word text).map fun rest => (value, rest) with
  | some found => .ok found
  | none =>
    match text with
    | '-' :: rest => numberAt true rest
    | _ => numberAt false text

mutual

/-- Reads a value in which others can be nested as deep as `depth`. -/
def readValue (depth : Nat) : Nat → List Char → Except Failure (Json × List Char)
  | 0, _ => .error .malformed
  | fuel + 1, text =>
    match text with
    | '"' :: rest =>
      match stringAt rest with
      | some (value, rest) => .ok (.string value, rest)
      | none => .error .malformed
    | '[' :: rest =>
      if depth = 0 then
        .error .tooDeep
      else
        match skipSpace rest with
        | ']' :: rest => .ok (.array [], rest)
        | rest => readItems (depth - 1) fuel [] rest
    | '{' :: rest =>
      if depth = 0 then
        .error .tooDeep
      else
        match skipSpace rest with
        | '}' :: rest => .ok (.object [], rest)
        | rest => readMembers (depth - 1) fuel [] rest
    | _ => scalarAt text

/-- Reads the items of an array up to its end; `read` holds those before, last one first. -/
def readItems (depth : Nat) : Nat → List Json → List Char → Except Failure (Json × List Char)
  | 0, _, _ => .error .malformed
  | fuel + 1, read, text =>
    match readValue depth fuel text with
    | .error failure => .error failure
    | .ok (item, rest) =>
      match skipSpace rest with
      | ']' :: rest => .ok (.array (item :: read).reverse, rest)
      | ',' :: rest => readItems depth fuel (item :: read) (skipSpace rest)
      | _ => .error .malformed

/-- Reads the members of an object up to its end; `read` holds those before. -/
def readMembers (depth : Nat) :
    Nat → List (String × Json) → List Char → Except Failure (Json × List Char)
  | 0, _, _ => .error .malformed
  | fuel + 1, read, text =>
    match text with
    | '"' :: rest =>
      match stringAt rest with
      | none => .error .malformed
      | some (name, rest) =>
        match skipSpace rest with
        | ':' :: rest =>
          match readValue depth fuel (skipSpace rest) with
          | .error failure => .error failure
          | .ok (value, rest) =>
            let members := Table.set name value read
            match skipSpace rest with
            | '}' :: rest => .ok (.object members, rest)
            | ',' :: rest => readMembers depth fuel members (skipSpace rest)
            | _ => .error .malformed
        | _ => .error .malformed
    | _ => .error .malformed

end

def read (document : List Char) : Except Failure Json :=
  match readValue nestingLimit (2 * document.length + 2) (skipSpace document) with
  | .error failure => .error failure
  | .ok (value, rest) => if (skipSpace rest).isEmpty then .ok value else .error .malformed

end HexEditor.Json
