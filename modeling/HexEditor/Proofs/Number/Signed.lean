/-
Words that stand for signed numbers. The word of an integer that has 64 bits in two's
complement shows that integer: its uppermost bit is set just where the integer is
negative, and the word of the opposite integer is then its magnitude. The lower bits of
a word are likewise told apart by arithmetic: one bit by comparing, those below it by a
remainder.
-/

import HexEditor.Proofs.Number.Numeral
import HexEditor.Proofs.Number.Word
import Mathlib.Data.Nat.Bitwise

namespace HexEditor

/-! ### Arithmetic of words -/

theorem word_neg (value : Int) : -word value = word (-value) := by
  have difference := word_sub 0 value
  have zero : word 0 = 0 := rfl
  rwa [Int.zero_sub, zero, UInt64.zero_sub] at difference

/-! ### Bits -/

variable {value : UInt64} {bit : Nat}

theorem two_pow_le_wordLimit (inWord : bit < 64) : 2 ^ bit ≤ wordLimit := by
  have below := Nat.pow_lt_pow_right (by decide : 1 < 2) inWord
  rw [wordLimit]
  omega

/-- The uppermost bit of a word is set if the word reaches the value of that bit. -/
theorem and_bit_ne_zero_iff (inWord : bit < 64) (small : value.toNat < 2 ^ (bit + 1)) :
    (value &&& word (2 ^ bit : Nat) != 0) = true ↔ 2 ^ bit ≤ value.toNat := by
  have zero : (0 : UInt64).toNat = 0 := rfl
  rw [bne_iff_ne, ne_eq, ← UInt64.toNat_inj, UInt64.toNat_and,
    toNat_word_of_le (two_pow_le_wordLimit inWord), Nat.and_two_pow, zero]
  rcases Nat.lt_or_ge value.toNat (2 ^ bit) with below | reached
  · rw [Nat.testBit_lt_two_pow below, Bool.toNat_false, Nat.zero_mul]
    exact iff_of_false (fun set => set rfl) (Nat.not_le.2 below)
  · rw [Nat.testBit_of_two_pow_le_and_two_pow_add_one_gt reached small, Bool.toNat_true,
      Nat.one_mul]
    exact iff_of_true (Nat.two_pow_pos bit).ne' reached

/-- The bits of a word below one of them are a remainder. -/
theorem and_bits_below (value : UInt64) (inWord : bit < 64) :
    value &&& (word (2 ^ bit : Nat) - 1) = word (value.toNat % 2 ^ bit : Nat) := by
  have positive := Nat.two_pow_pos bit
  have limit := two_pow_le_wordLimit inWord
  have below : ((2 ^ bit : Nat) : Int) - 1 = (2 ^ bit - 1 : Nat) := by omega
  have one : (1 : UInt64) = word 1 := rfl
  have rest : value.toNat % 2 ^ bit ≤ wordLimit :=
    Nat.le_trans (Nat.le_of_lt (Nat.mod_lt _ positive)) limit
  rw [← UInt64.toNat_inj, UInt64.toNat_and, one, word_sub, below,
    toNat_word_of_le (Nat.le_trans (Nat.sub_le _ _) limit), Nat.and_two_pow_sub_one_eq_mod,
    toNat_word_of_le rest]

/-! ### Displayed integers -/

/-- An integer as text: zero bare, and any other one as the digits of its magnitude behind the mark
of the base, with a minus sign in front if it is negative. -/
def Radix.integerText (base : Radix) (value : Int) : String :=
  if value = 0 then "0"
  else
    String.ofList ((if value < 0 then ['-'] else []) ++ base.mark ++
      (Nat.digits base.value value.natAbs).reverse.map digitChar)

/-- The magnitude of an integer is shown behind its sign. -/
theorem Radix.markedText_natAbs (base : Radix) (value : Int) :
    String.ofList ((if value < 0 then ['-'] else []) ++ base.markedText value.natAbs) =
      base.integerText value := by
  by_cases zero : value = 0
  · subst zero
    rfl
  · have nonzero : value.natAbs ≠ 0 := Int.natAbs_ne_zero.2 zero
    rw [integerText, if_neg zero, markedText, if_neg nonzero, digitText, digits_eq,
      List.append_assoc]

/-- The integers that a word can stand for, read with a sign or without. -/
def InWord : Bool → Int → Prop
  | true, value => -2 ^ 63 ≤ value ∧ value < 2 ^ 63
  | false, value => 0 ≤ value ∧ value < 2 ^ 64

theorem inWord_of_lt (signed : Bool) {value : Nat} (small : value < 2 ^ 63) :
    InWord signed value := by
  cases signed with
  | true => exact ⟨by omega, by omega⟩
  | false => exact ⟨by omega, by omega⟩

/-- The word of an integer shows that integer. -/
theorem Radix.display_word (base : Radix) {signed : Bool} {value : Int}
    (inWord : InWord signed value) :
    base.display signed (word value) = base.integerText value := by
  have residue := toNat_word value
  have upper : signBit = word (2 ^ 63 : Nat) := rfl
  have set : (word value &&& signBit != 0) = true ↔ 2 ^ 63 ≤ (word value).toNat := by
    rw [upper]
    exact and_bit_ne_zero_iff (by decide) (word value).toNat_lt
  rw [display, ← markedText_natAbs]
  by_cases negative : value < 0
  · cases signed with
    | false => exact absurd inWord.1 (Int.not_le.2 negative)
    | true =>
      have low : -2 ^ 63 ≤ value := inWord.1
      have opposite := toNat_word (-value)
      have magnitude : (-word value).toNat = value.natAbs := by
        rw [word_neg]
        omega
      rw [Bool.true_and, if_pos (set.2 (by omega)), magnitude, if_pos negative]
      rfl
  · have magnitude : (word value).toNat = value.natAbs := by
      have high : value < 2 ^ 64 := by
        cases signed with
        | false => exact inWord.2
        | true => exact Int.lt_trans inWord.2 (by decide)
      omega
    have shown : (signed && word value &&& signBit != 0) = false := by
      cases signed with
      | false => rfl
      | true =>
        have high : value < 2 ^ 63 := inWord.2
        rw [Bool.true_and, Bool.eq_false_iff, ne_eq, set]
        omega
    rw [shown, if_neg Bool.false_ne_true, magnitude, if_neg negative, List.nil_append]

end HexEditor
