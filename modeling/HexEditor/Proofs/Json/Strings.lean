/-
Strings of JSON that are written and read back. A character is written as itself, by a
letter, by one unit of UTF-16 or by a pair of them. Each of these is read as the character
it was written for, whatever stands behind it, and a unit never waits for its partner in
vain, because no character is a surrogate.
-/

import HexEditor.Json.Reader
import HexEditor.Json.Writer

namespace HexEditor.Json

/-! ### Units -/

theorem digitValue?_digitChar {digit : Nat} (small : digit < 16) :
    digitValue? (digitChar digit) = some digit := by
  have all : ∀ digit < 16, digitValue? (digitChar digit) = some digit := by decide
  exact all digit small

/-- The four digits of a unit spell it. -/
theorem unitOf?_digits {unit : Nat} (small : unit < 0x10000) :
    unitOf? (digitChar (unit / 16 / 16 / 16 % 16)) (digitChar (unit / 16 / 16 % 16))
      (digitChar (unit / 16 % 16)) (digitChar (unit % 16)) = some unit := by
  have below (value : Nat) : value % 16 < 16 := Nat.mod_lt value (by decide)
  have spelled : ((unit / 16 / 16 / 16 % 16 * 16 + unit / 16 / 16 % 16) * 16 + unit / 16 % 16) * 16 +
      unit % 16 = unit := by omega
  rw [unitOf?, digitValue?_digitChar (below _), digitValue?_digitChar (below _),
    digitValue?_digitChar (below _), digitValue?_digitChar (below _)]
  dsimp only
  rw [if_pos ⟨below _, below _, below _, below _⟩, spelled]

variable {unit high low : Nat} (read rest : List Char)

/-- A unit that is no half of a pair is the character of its code. -/
theorem readString_unitEscape (small : unit < 0x10000) (notHigh : isHighUnit unit = false)
    (notLow : isLowUnit unit = false) :
    readString none read (unitEscape unit ++ rest) =
      readString none (Char.ofNat unit :: read) rest := by
  have step := readString.eq_5 read _ _ _ _ rest unit (unitOf?_digits small)
  simp only [notHigh, notLow, Bool.false_eq_true, if_false] at step
  exact step

/-- The two units of a pair are one character. -/
theorem readString_pair (isHigh : isHighUnit high = true) (isLow : isLowUnit low = true) :
    readString none read (unitEscape high ++ (unitEscape low ++ rest)) =
      readString none
        (Char.ofNat (0x10000 + (high - 0xD800) * 0x400 + (low - 0xDC00)) :: read) rest := by
  have highRange : 0xD800 ≤ high ∧ high < 0xDC00 := by simpa [isHighUnit] using isHigh
  have lowRange : 0xDC00 ≤ low ∧ low < 0xE000 := by simpa [isLowUnit] using isLow
  have first := readString.eq_5 read _ _ _ _ (unitEscape low ++ rest) high
    (unitOf?_digits (by omega))
  have second := readString.eq_4 read _ _ _ _ rest low high (unitOf?_digits (by omega))
  simp only [isHigh, isLow, if_true] at first second
  exact first.trans second

/-! ### Characters -/

/-- A character that stands for itself is read as itself. -/
theorem readString_plain {character : Char} (noQuote : character ≠ '"') (noEscape : character ≠ '\\')
    (visible : 0x20 ≤ character.toNat) :
    readString none read (character :: rest) = readString none (character :: read) rest := by
  rw [readString]
  · have allowed : ¬ ((decide (character.toNat < 0x20) || character == '\\') = true) := by
      simpa [noEscape] using visible
    rw [if_neg allowed]
    rfl
  · exact noQuote
  · intro _ _ _ _ _ same
    exact absurd same noEscape
  · intro _ _ same
    exact absurd same noEscape

/-- A character that is written by its one or two units is read as itself. -/
theorem readString_writtenUnits (character : Char) :
    readString none read ((if character.toNat < 0x10000 then unitEscape character.toNat
        else unitEscape (0xD800 + (character.toNat - 0x10000) / 0x400) ++
          unitEscape (0xDC00 + (character.toNat - 0x10000) % 0x400)) ++ rest) =
      readString none (character :: read) rest := by
  have valid : character.toNat < 0xD800 ∨ 0xDFFF < character.toNat ∧ character.toNat < 0x110000 :=
    character.valid
  have same : Char.ofNat character.toNat = character := Char.ofNat_toNat character
  by_cases small : character.toNat < 0x10000
  · have notHigh : isHighUnit character.toNat = false := by
      rw [isHighUnit, Bool.and_eq_false_iff, decide_eq_false_iff_not, decide_eq_false_iff_not]
      omega
    have notLow : isLowUnit character.toNat = false := by
      rw [isLowUnit, Bool.and_eq_false_iff, decide_eq_false_iff_not, decide_eq_false_iff_not]
      omega
    rw [if_pos small, readString_unitEscape read rest small notHigh notLow, same]
  · have isHigh : isHighUnit (0xD800 + (character.toNat - 0x10000) / 0x400) = true := by
      rw [isHighUnit, Bool.and_eq_true, decide_eq_true_iff, decide_eq_true_iff]
      omega
    have isLow : isLowUnit (0xDC00 + (character.toNat - 0x10000) % 0x400) = true := by
      rw [isLowUnit, Bool.and_eq_true, decide_eq_true_iff, decide_eq_true_iff]
      omega
    have code : 0x10000 + (0xD800 + (character.toNat - 0x10000) / 0x400 - 0xD800) * 0x400 +
        (0xDC00 + (character.toNat - 0x10000) % 0x400 - 0xDC00) = character.toNat := by omega
    rw [if_neg small, List.append_assoc, readString_pair read rest isHigh isLow, code, same]

/-- A character is read as it was written. -/
theorem readString_writtenChar (character : Char) :
    readString none read (writtenChar character ++ rest) =
      readString none (character :: read) rest := by
  rw [writtenChar]
  by_cases quote : character = '"'
  · subst quote
    rfl
  by_cases escape : character = '\\'
  · subst escape
    rfl
  rw [if_neg (by simp [quote, escape])]
  by_cases lineFeed : character = '\n'
  · subst lineFeed
    rfl
  by_cases carriageReturn : character = '\r'
  · subst carriageReturn
    rfl
  by_cases tab : character = '\t'
  · subst tab
    rfl
  by_cases backspace : character = '\x08'
  · subst backspace
    rfl
  by_cases formFeed : character = '\x0c'
  · subst formFeed
    rfl
  rw [if_neg (by simpa using lineFeed), if_neg (by simpa using carriageReturn),
    if_neg (by simpa using tab), if_neg (by simpa using backspace),
    if_neg (by simpa using formFeed)]
  by_cases plain : 0x20 ≤ character.toNat ∧ character.toNat < 0x7F
  · rw [if_pos (by simpa using plain)]
    exact readString_plain read rest quote escape plain.1
  · rw [if_neg (by simpa using plain)]
    exact readString_writtenUnits read rest character

/-! ### Strings -/

/-- A string is read as it was written, up to its closing quote. -/
theorem stringAt_written (text : String) :
    stringAt (text.toList.flatMap writtenChar ++ '"' :: rest) = some (text, rest) := by
  have whole : ∀ characters read : List Char,
      readString none read (characters.flatMap writtenChar ++ '"' :: rest) =
        some (read.reverse ++ characters, rest) := by
    intro characters
    induction characters with
    | nil =>
      intro read
      rw [List.append_nil]
      rfl
    | cons character characters inductionHypothesis =>
      intro read
      rw [List.flatMap_cons, List.append_assoc, readString_writtenChar, inductionHypothesis,
        List.reverse_cons, List.append_assoc, List.singleton_append]
  rw [stringAt, whole, Option.map_some, List.reverse_nil, List.nil_append]
  dsimp only
  rw [String.ofList_toList]

end HexEditor.Json
