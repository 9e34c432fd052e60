/-
Numbers that are written and read back. The digits of a number are those that the library
knows, in the same order, so that what holds of them there holds of the text that shows
them: it is made of digits, spells the number, and is as long as the number is large.
-/

import HexEditor.Number.Literal
import Mathlib.Data.Nat.Digits.Lemmas

namespace HexEditor

theorem Radix.digits_eq (base : Radix) (value : Nat) :
    base.digits value = Nat.digits base.value value := by
  induction value using Nat.strong_induction_on with
  | _ value inductionHypothesis =>
    rw [digits]
    split
    · next positive =>
      have smaller : value / base.value < value := Nat.div_lt_self positive base.two_le
      rw [inductionHypothesis _ smaller, Nat.digits_def' base.two_le positive]
    · next notPositive =>
      rw [Nat.eq_zero_of_not_pos notPositive, Nat.digits_zero]

/-! ### Decimal digits -/

theorem toNat_of_isAsciiDigit {character : Char} (digit : isAsciiDigit character = true) :
    0x30 ≤ character.toNat ∧ character.toNat ≤ 0x39 := by
  rw [isAsciiDigit, Bool.and_eq_true, decide_eq_true_iff, decide_eq_true_iff] at digit
  exact digit

/-- The character of a decimal digit is one of ASCII, and stands for that digit. -/
theorem digitChar_of_lt_ten {digit : Nat} (small : digit < 10) :
    isAsciiDigit (digitChar digit) = true ∧ (digitChar digit).toNat - '0'.toNat = digit := by
  have all : ∀ digit < 10, isAsciiDigit (digitChar digit) = true ∧
      (digitChar digit).toNat - '0'.toNat = digit := by decide
  exact all digit small

theorem lt_ten_of_mem_digits {value digit : Nat} (member : digit ∈ Radix.ten.digits value) :
    digit < 10 := by
  rw [Radix.digits_eq] at member
  exact Nat.digits_lt_base (by decide) member

theorem plainText_ne_nil (value : Nat) : Radix.ten.plainText value ≠ [] := by
  rw [Radix.plainText]
  split
  · exact List.cons_ne_nil _ _
  · next positive =>
    rw [Radix.digitText, Radix.digits_eq]
    simpa using Nat.digits_ne_nil_iff_ne_zero.2 positive

theorem isAsciiDigit_of_mem_plainText {value : Nat} {character : Char}
    (member : character ∈ Radix.ten.plainText value) : isAsciiDigit character = true := by
  rw [Radix.plainText] at member
  split at member
  · rw [List.mem_singleton] at member
    subst member
    decide
  · rw [Radix.digitText, List.mem_map] at member
    obtain ⟨digit, digitMember, rfl⟩ := member
    exact (digitChar_of_lt_ten (lt_ten_of_mem_digits (List.mem_reverse.1 digitMember))).1

/-- Digits that are written as characters spell the same number, whatever tells the worth of a
character. -/
theorem foldl_digits (base : Nat) (worth : Char → Nat) (digits : List Nat)
    (known : ∀ digit ∈ digits, worth (digitChar digit) = digit) :
    (digits.reverse.map digitChar).foldl (fun value digit => value * base + worth digit) 0 =
      Nat.ofDigits base digits := by
  induction digits with
  | nil => rfl
  | cons digit digits inductionHypothesis =>
    have last := known digit List.mem_cons_self
    have before := inductionHypothesis fun other member =>
      known other (List.mem_cons_of_mem _ member)
    rw [List.reverse_cons, List.map_append, List.foldl_append, before, Nat.ofDigits_cons,
      List.map_singleton, List.foldl_cons, List.foldl_nil, last, Nat.mul_comm, Nat.add_comm]

/-- The digits of a number spell it. -/
theorem decimalValue_plainText (value : Nat) : decimalValue (Radix.ten.plainText value) = value := by
  rw [Radix.plainText]
  split
  · next zero =>
    rw [zero]
    rfl
  · rw [Radix.digitText, decimalValue, foldl_digits 10 _ _ fun digit member =>
      (digitChar_of_lt_ten (lt_ten_of_mem_digits member)).2, Radix.digits_eq]
    exact Nat.ofDigits_digits 10 value

theorem toList_decimalText (value : Nat) :
    (decimalText value).toList = Radix.ten.plainText value := by
  rw [decimalText, if_neg (by omega)]
  exact String.toList_ofList

/-- Numbers behind one beginning are told apart. -/
theorem numbered_injective (start : String) :
    Function.Injective fun number : Nat => start ++ decimalText number := by
  intro first second same
  have texts := congrArg String.toList same
  simp only [String.toList_append, toList_decimalText] at texts
  have digits := congrArg decimalValue (List.append_cancel_left texts)
  rwa [decimalValue_plainText, decimalValue_plainText] at digits

/-- A number has more digits than a power of ten says if it reaches that power, and only then. -/
theorem lt_length_plainText_iff {value count : Nat} (positive : count ≠ 0) :
    count < (Radix.ten.plainText value).length ↔ 10 ^ count ≤ value := by
  rw [Radix.plainText]
  split
  · next zero =>
    have reached : 0 < 10 ^ count := Nat.pow_pos (by decide)
    rw [List.length_singleton, zero]
    omega
  · rw [Radix.digitText, List.length_map, List.length_reverse, Radix.digits_eq]
    exact Nat.lt_digits_length_iff (by decide) value

theorem length_plainText_pow {count : Nat} (positive : count ≠ 0) :
    (Radix.ten.plainText (10 ^ count)).length = count + 1 := by
  have reached := (lt_length_plainText_iff positive).2 (Nat.le_refl (10 ^ count))
  have below : ¬ count + 1 < (Radix.ten.plainText (10 ^ count)).length := by
    rw [lt_length_plainText_iff (Nat.succ_ne_zero count), not_le]
    exact Nat.pow_lt_pow_succ (by decide)
  omega

end HexEditor
