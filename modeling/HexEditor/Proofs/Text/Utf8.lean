/-
Text that is written in UTF-8 is read back. The first byte of a character tells how many
follow and the first bits of its code, and every further byte adds six bits; the ranges
that the reader allows for the second byte are just those that the codes of characters
come to. So the bytes of a text are read as that text, and a supply that holds them hands
it out.
-/

import HexEditor.Text.Utf8

namespace HexEditor

/-! ### Single bytes -/

namespace Utf8State

variable {code : Nat}

theorem toNat_ofNat {byte : Nat} (small : byte < 256) : (UInt8.ofNat byte).toNat = byte :=
  UInt8.toNat_ofNat_of_lt' small

theorem step_one (small : code < 0x80) :
    Utf8State.between.step (UInt8.ofNat code) = .character (Char.ofNat code) := by
  rw [step, toNat_ofNat (by omega), utf8Lead, if_pos small]

theorem step_two (low : 0x80 ≤ code) (high : code < 0x800) :
    Utf8State.between.step (UInt8.ofNat (0xC0 + code / 64)) =
      .more (.inside 1 0x80 0xBF (code / 64)) := by
  rw [step, toNat_ofNat (by omega), utf8Lead, if_neg (by omega), if_neg (by omega),
    if_pos (by omega), Nat.add_sub_cancel_left]

/-- The smallest second byte of a character of three bytes, by the bits in its first one. -/
def lowOfThree (bits : Nat) : Nat := if bits = 0 then 0xA0 else 0x80

theorem step_three (high : code < 0x10000) :
    Utf8State.between.step (UInt8.ofNat (0xE0 + code / 4096)) =
      .more (.inside 2 (lowOfThree (code / 4096)) 0xBF (code / 4096)) := by
  rw [step, toNat_ofNat (by omega), utf8Lead, if_neg (by omega), if_neg (by omega),
    if_neg (by omega)]
  by_cases first : code / 4096 = 0
  · rw [first]
    rfl
  · have other : ¬ ((0xE0 + code / 4096 == 0xE0) = true) := by
      rw [beq_iff_eq]
      omega
    rw [if_neg other, if_pos (by omega), Nat.add_sub_cancel_left, lowOfThree, if_neg first]

/-- The smallest second byte of a character of four bytes, by the bits in its first one. -/
def lowOfFour (bits : Nat) : Nat := if bits = 0 then 0x90 else 0x80

/-- The largest second byte of a character of four bytes, by the bits in its first one. -/
def highOfFour (bits : Nat) : Nat := if bits = 4 then 0x8F else 0xBF

theorem step_four (high : code < 0x110000) :
    Utf8State.between.step (UInt8.ofNat (0xF0 + code / 262144)) =
      .more (.inside 3 (lowOfFour (code / 262144)) (highOfFour (code / 262144))
        (code / 262144)) := by
  have bits : code / 262144 = 0 ∨ code / 262144 = 1 ∨ code / 262144 = 2 ∨ code / 262144 = 3 ∨
      code / 262144 = 4 := by omega
  rcases bits with bits | bits | bits | bits | bits <;> rw [bits] <;> rfl

/-- A further byte adds six bits, unless that makes the beginning of a surrogate. -/
theorem step_further {missing low high value bits : Nat} (several : 2 ≤ missing) (small : bits < 64)
    (above : low ≤ 0x80 + bits) (below : 0x80 + bits ≤ high)
    (whole : missing ≠ 2 ∨ value * 64 + bits < 0x360 ∨ 0x380 ≤ value * 64 + bits) :
    (Utf8State.inside missing low high value).step (UInt8.ofNat (0x80 + bits)) =
      .more (.inside (missing - 1) 0x80 0xBF (value * 64 + bits)) := by
  have allowed : ¬ ((decide (0x80 + bits < low) || decide (high < 0x80 + bits)) = true) := by
    rw [Bool.or_eq_true, decide_eq_true_iff, decide_eq_true_iff]
    omega
  rw [step, toNat_ofNat (by omega), if_neg allowed, Nat.add_sub_cancel_left, if_neg (by omega),
    if_neg (by omega)]

theorem step_last (code : Nat) :
    (Utf8State.inside 1 0x80 0xBF (code / 64)).step (UInt8.ofNat (0x80 + code % 64)) =
      .character (Char.ofNat code) := by
  have allowed :
      ¬ ((decide (0x80 + code % 64 < 0x80) || decide (0xBF < 0x80 + code % 64)) = true) := by
    rw [Bool.or_eq_true, decide_eq_true_iff, decide_eq_true_iff]
    omega
  have parts : code / 64 * 64 + code % 64 = code := by omega
  rw [step, toNat_ofNat (by omega), if_neg allowed, Nat.add_sub_cancel_left,
    if_pos (Nat.le_refl 1), parts]

/-- Some bytes are taken one after the other from a state on, and the last one gives a character. -/
inductive Spells : Utf8State → List UInt8 → Char → Prop where
  | last {state : Utf8State} {byte : UInt8} {character : Char} :
      state.step byte = .character character → Spells state [byte] character
  | more {state next : Utf8State} {byte : UInt8} {rest : List UInt8} {character : Char} :
      state.step byte = .more next → Spells next rest character →
        Spells state (byte :: rest) character

/-- Nothing can follow the beginning of a surrogate. -/
theorem not_spells_surrogate {bytes : List UInt8} {character : Char} :
    ¬ Spells .surrogate bytes character := by
  intro spells
  cases spells with
  | last taken => cases taken
  | more taken => cases taken

/-- The bytes of a character spell it. -/
theorem spells_utf8Char (character : Char) : Spells .between (utf8Char character) character := by
  have valid : character.toNat < 0xD800 ∨ 0xDFFF < character.toNat ∧ character.toNat < 0x110000 :=
    character.valid
  have same : Char.ofNat character.toNat = character := Char.ofNat_toNat character
  dsimp only [utf8Char]
  generalize character.toNat = code at valid same ⊢
  subst same
  by_cases one : code < 0x80
  · rw [if_pos one]
    exact .last (step_one one)
  by_cases two : code < 0x800
  · rw [if_neg one, if_pos two]
    exact .more (step_two (Nat.not_lt.1 one) two) (.last (step_last code))
  by_cases three : code < 0x10000
  · rw [if_neg one, if_neg two, if_pos three]
    -- codes that two bytes spell have no bits in the first byte, and surrogates are no characters
    have low : lowOfThree (code / 4096) ≤ 0x80 + code / 64 % 64 := by
      unfold lowOfThree
      split <;> omega
    have collected : code / 4096 * 64 + code / 64 % 64 = code / 64 := by omega
    have further : (Utf8State.inside 2 (lowOfThree (code / 4096)) 0xBF (code / 4096)).step
        (UInt8.ofNat (0x80 + code / 64 % 64)) = .more (.inside 1 0x80 0xBF (code / 64)) := by
      rw [step_further (Nat.le_refl 2) (by omega) low (by omega) (by omega), collected]
    exact .more (step_three three) (.more further (.last (step_last code)))
  · rw [if_neg one, if_neg two, if_neg three]
    -- the range of the second byte depends on the first one only at both ends
    have low : lowOfFour (code / 262144) ≤ 0x80 + code / 4096 % 64 := by
      unfold lowOfFour
      split <;> omega
    have high : 0x80 + code / 4096 % 64 ≤ highOfFour (code / 262144) := by
      unfold highOfFour
      split <;> omega
    have upper : code / 262144 * 64 + code / 4096 % 64 = code / 4096 := by omega
    have collected : code / 4096 * 64 + code / 64 % 64 = code / 64 := by omega
    have further : (Utf8State.inside 3 (lowOfFour (code / 262144))
        (highOfFour (code / 262144)) (code / 262144)).step
          (UInt8.ofNat (0x80 + code / 4096 % 64)) = .more (.inside 2 0x80 0xBF (code / 4096)) := by
      rw [step_further (by decide) (by omega) low high (by omega), upper]
    have another : (Utf8State.inside 2 0x80 0xBF (code / 4096)).step
        (UInt8.ofNat (0x80 + code / 64 % 64)) = .more (.inside 1 0x80 0xBF (code / 64)) := by
      rw [step_further (Nat.le_refl 2) (by omega) (by omega) (by omega) (by omega), collected]
    exact .more (step_four (by omega)) (.more further (.more another (.last (step_last code))))

end Utf8State

/-! ### Whole texts -/

/-- The bytes that spell a character are read as that character. -/
theorem readUtf8_of_spells {state : Utf8State} {bytes : List UInt8} {character : Char}
    (spells : state.Spells bytes character) (rest : List UInt8) (read : List Char) :
    ∀ (lead : UInt8) (first position : Nat), ∃ (newLead : UInt8) (newFirst : Nat),
      readUtf8 state lead first position read (bytes ++ rest) =
        readUtf8 .between newLead newFirst (position + bytes.length) (character :: read) rest := by
  induction spells with
  | @last state byte character taken =>
    intro lead first position
    refine ⟨if state = .between then byte else lead, if state = .between then position else first,
      ?_⟩
    rw [List.singleton_append, readUtf8, taken]
    rfl
  | @more state next byte others character taken spells inductionHypothesis =>
    intro lead first position
    have apart : next ≠ .surrogate := fun same => Utf8State.not_spells_surrogate (same ▸ spells)
    obtain ⟨newLead, newFirst, whole⟩ := inductionHypothesis
      (if state = .between then byte else lead) (if state = .between then position else first)
      (position + 1)
    refine ⟨newLead, newFirst, ?_⟩
    rw [List.length_cons, Nat.add_comm others.length, ← Nat.add_assoc, ← whole, List.cons_append,
      readUtf8, taken]
    cases next with
    | surrogate => exact absurd rfl apart
    | between => rfl
    | inside => rfl

/-- A text is read back from its bytes. -/
theorem textOfUtf8_utf8Bytes (text : List Char) : textOfUtf8 (utf8Bytes text) = .ok text := by
  have whole : ∀ (text : List Char) (lead : UInt8) (first position : Nat) (read : List Char),
      readUtf8 .between lead first position read (utf8Bytes text) = .ok (read.reverse ++ text) := by
    intro text
    induction text with
    | nil => simp [utf8Bytes, readUtf8]
    | cons character text inductionHypothesis =>
      intro lead first position read
      obtain ⟨newLead, newFirst, taken⟩ := readUtf8_of_spells
        (Utf8State.spells_utf8Char character) (utf8Bytes text) read lead first position
      have split : utf8Bytes (character :: text) = utf8Char character ++ utf8Bytes text := rfl
      rw [split, taken, inductionHypothesis, List.reverse_cons, List.append_assoc,
        List.singleton_append]
  rw [textOfUtf8, whole, List.reverse_nil, List.nil_append]

/-! ### Characters from a supply -/

namespace ByteSupply

variable {Failure : Type} {supply : ByteSupply Failure}

/-- A supply has some bytes at a position, one behind the other. -/
def Supplies (supply : ByteSupply Failure) : Nat → List UInt8 → Prop
  | _, [] => True
  | position, byte :: rest =>
    supply.byteAt position = .ok byte ∧ supply.Supplies (position + 1) rest

theorem supplies_append {position : Nat} {first second : List UInt8}
    (supplies : supply.Supplies position (first ++ second)) :
    supply.Supplies position first ∧ supply.Supplies (position + first.length) second := by
  induction first generalizing position with
  | nil => exact ⟨trivial, supplies⟩
  | cons byte rest inductionHypothesis =>
    obtain ⟨taken, behind⟩ := supplies
    obtain ⟨here, there⟩ := inductionHypothesis behind
    rw [Nat.add_assoc, Nat.add_comm 1] at there
    exact ⟨⟨taken, here⟩, there⟩

variable {asciiOnly : Bool} {count : Option Nat} {state : Utf8State} {read : List Char}
  {position : Nat}

theorem allowed_iff {byte : UInt8} :
    ¬ (asciiOnly && decide (0x80 ≤ byte)) = true ↔ (asciiOnly = true → byte < 0x80) := by
  rw [Bool.and_eq_true, decide_eq_true_iff, not_and, UInt8.not_le]

/-- As long as characters are wanted, a byte that is allowed is taken. -/
theorem readText_of_byte {byte : UInt8} (wanted : count ≠ some 0)
    (taken : supply.byteAt position = .ok byte) (allowed : asciiOnly = true → byte < 0x80) :
    supply.readText asciiOnly count state read position =
      match state.step byte with
      | .refused => .refused (position + 1)
      | .more next => supply.readText asciiOnly count next read (position + 1)
      | .character character =>
        if count.isNone && character == '\x00' then
          .text read.reverse (position + 1)
        else
          supply.readText asciiOnly (count.map (· - 1)) .between (character :: read)
            (position + 1) := by
  rw [readText, if_neg wanted]
  split
  · next failed =>
    rw [taken] at failed
    cases failed
  · next other found =>
    rw [taken] at found
    cases found
    exact if_neg (allowed_iff.2 allowed)

/-- The bytes that spell a character are read as that character, which may end the text. -/
theorem readText_of_spells {bytes : List UInt8} {character : Char} (wanted : count ≠ some 0)
    (spells : state.Spells bytes character) (supplies : supply.Supplies position bytes)
    (allowed : asciiOnly = true → ∀ byte ∈ bytes, byte < 0x80) :
    supply.readText asciiOnly count state read position =
      if count.isNone && character == '\x00' then
        .text read.reverse (position + bytes.length)
      else
        supply.readText asciiOnly (count.map (· - 1)) .between (character :: read)
          (position + bytes.length) := by
  induction spells generalizing position with
  | last step =>
    rw [readText_of_byte wanted supplies.1 fun ascii => allowed ascii _ List.mem_cons_self, step]
    rfl
  | @more state next byte rest character step _ inductionHypothesis =>
    have behind := inductionHypothesis supplies.2 fun ascii byte member =>
      allowed ascii byte (List.mem_cons_of_mem _ member)
    have reach : position + 1 + rest.length = position + (byte :: rest).length := by
      rw [List.length_cons]
      omega
    rw [readText_of_byte wanted supplies.1 fun ascii => allowed ascii _ List.mem_cons_self, step,
      ← reach]
    exact behind

/-! ### Texts from a supply -/

/-- The characters that are read behind a text: a NUL, unless those of the text are counted. -/
def ending : Option Nat → List Char
  | none => ['\x00']
  | some _ => []

/-- A text has as many characters as are counted, or no NUL if they are not counted. -/
def Fits : Option Nat → List Char → Prop
  | none, text => '\x00' ∉ text
  | some count, text => text.length = count

/-- A character in front of a text that fits is wanted and does not end the text. -/
theorem fits_cons_iff {character : Char} {text : List Char} :
    Fits count (character :: text) ↔
      count ≠ some 0 ∧ (count.isNone && character == '\x00') = false ∧
        Fits (count.map (· - 1)) text := by
  cases count with
  | none => simp [Fits, @eq_comm _ '\x00']
  | some count =>
    cases count with
    | zero => simp [Fits]
    | succ count => simp [Fits]

theorem ending_map (change : Nat → Nat) : ending (count.map change) = ending count := by
  cases count with
  | none => rfl
  | some count => rfl

/-- A text that fits is read from its bytes and those of its ending, and no byte more is taken. -/
theorem readText_of_fits {text : List Char} (fits : Fits count text)
    (supplies : supply.Supplies position (utf8Bytes (text ++ ending count)))
    (allowed : asciiOnly = true → ∀ byte ∈ utf8Bytes (text ++ ending count), byte < 0x80) :
    supply.readText asciiOnly count .between read position =
      .text (read.reverse ++ text) (position + (utf8Bytes (text ++ ending count)).length) := by
  induction text generalizing count read position with
  | nil =>
    rw [List.append_nil]
    cases count with
    | none =>
      exact readText_of_spells (by simp) (Utf8State.spells_utf8Char '\x00') supplies allowed
    | some count =>
      cases (fits : 0 = count)
      rw [readText]
      rfl
  | cons character rest inductionHypothesis =>
    obtain ⟨wanted, goesOn, behind⟩ := fits_cons_iff.1 fits
    have parts : utf8Bytes (character :: rest ++ ending count) =
        utf8Char character ++ utf8Bytes (rest ++ ending (count.map (· - 1))) := by
      rw [ending_map]
      rfl
    rw [parts] at allowed supplies ⊢
    obtain ⟨first, others⟩ := supplies_append supplies
    rw [readText_of_spells wanted (Utf8State.spells_utf8Char character) first
        fun ascii byte member => allowed ascii byte (List.mem_append_left _ member),
      goesOn, if_neg Bool.false_ne_true,
      inductionHypothesis behind others
        fun ascii byte member => allowed ascii byte (List.mem_append_right _ member),
      List.reverse_cons, List.append_assoc, List.singleton_append, Nat.add_assoc,
      ← List.length_append]

theorem readText_utf8Bytes {text : List Char}
    (supplies : supply.Supplies position (utf8Bytes text)) :
    supply.readText false (some text.length) .between read position =
      .text (read.reverse ++ text) (position + (utf8Bytes text).length) := by
  have alone : text ++ ending (some text.length) = text := List.append_nil text
  have counted : Fits (some text.length) text := rfl
  rw [← alone] at supplies
  refine (readText_of_fits counted supplies fun ascii => absurd ascii Bool.false_ne_true).trans ?_
  rw [alone]

end ByteSupply

end HexEditor
