/-
Quoted text, as messages show names and values. The text stands between single
quotes, or between double ones if it holds single quotes and no double ones; the
quote in use and the backslash are escaped, and so is every character that leaves
no mark on the screen, by its usual letter or by its code point.
-/

import HexEditor.Number.Numeral

namespace HexEditor

/-- The ranges of the characters that leave no mark of their own: controls, format characters,
separators other than the space, and private use. -/
def unprintableRanges : List (Nat × Nat) :=
  [(0x0, 0x1F), (0x7F, 0xA0), (0xAD, 0xAD), (0x600, 0x605), (0x61C, 0x61C), (0x6DD, 0x6DD),
   (0x70F, 0x70F), (0x890, 0x891), (0x8E2, 0x8E2), (0x1680, 0x1680), (0x180E, 0x180E),
   (0x2000, 0x200F), (0x2028, 0x202F), (0x205F, 0x2064), (0x2066, 0x206F), (0x3000, 0x3000),
   (0xE000, 0xF8FF), (0xFEFF, 0xFEFF), (0xFFF9, 0xFFFB), (0x110BD, 0x110BD), (0x110CD, 0x110CD),
   (0x13430, 0x13438), (0x1BCA0, 0x1BCA3), (0x1D173, 0x1D17A), (0xE0001, 0xE0001),
   (0xE0020, 0xE007F), (0xF0000, 0xFFFFD), (0x100000, 0x10FFFD)]

/-- Whether a character leaves a mark on the screen, as the space does by its width. -/
def isPrintable (character : Char) : Bool :=
  !unprintableRanges.any fun (first, last) =>
    first ≤ character.toNat && character.toNat ≤ last

/-- The lowest `width` digits of a code point in base sixteen. -/
def hexDigitsOfWidth : Nat → Nat → List Char
  | 0, _ => []
  | width + 1, value => hexDigitsOfWidth width (value / 16) ++ [digitChar (value % 16)]

/-- A character by its code point, in the shortest of the three escapes that holds it. -/
def escapeByCode (character : Char) : List Char :=
  let code := character.toNat
  if code ≤ 0xFF then '\\' :: 'x' :: hexDigitsOfWidth 2 code
  else if code ≤ 0xFFFF then '\\' :: 'u' :: hexDigitsOfWidth 4 code
  else '\\' :: 'U' :: hexDigitsOfWidth 8 code

def quotedChar (quote character : Char) : List Char :=
  if character == quote || character == '\\' then ['\\', character]
  else if character == '\n' then ['\\', 'n']
  else if character == '\r' then ['\\', 'r']
  else if character == '\t' then ['\\', 't']
  else if isPrintable character then [character]
  else escapeByCode character

/-- The quote that needs the fewest escapes, the single one by preference. -/
def quoteFor (text : List Char) : Char :=
  if text.contains '\'' && !text.contains '"' then '"' else '\''

def quoted (text : String) : String :=
  let quote := quoteFor text.toList
  String.ofList (quote :: text.toList.flatMap (quotedChar quote) ++ [quote])

end HexEditor
