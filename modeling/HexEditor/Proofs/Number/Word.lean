/-
Integers and the words and bytes that hold them. The word of an integer is congruent to
it, so arithmetic on words is arithmetic on integers modulo `2 ^ 64`; and an integer that
a word or a byte can hold is what it holds.
-/

import HexEditor.Number.Word

namespace HexEditor

/-! ### Words -/

theorem toNat_word (value : Int) : ((word value).toNat : Int) = value % 0x10000000000000000 := by
  have fits : (value % 0x10000000000000000).toNat < 2 ^ 64 := by omega
  rw [word, UInt64.toNat_ofNat_of_lt' fits]
  omega

theorem word_add (left right : Int) : word left + word right = word (left + right) := by
  refine UInt64.toNat_inj.1 ?_
  have first := toNat_word left
  have second := toNat_word right
  have both := toNat_word (left + right)
  rw [UInt64.toNat_add]
  omega

theorem word_sub (left right : Int) : word left - word right = word (left - right) := by
  have whole := word_add (left - right) right
  rw [Int.sub_add_cancel] at whole
  rw [← whole, UInt64.add_sub_cancel]

/-- The word of a natural number is what is left of it in 64 bits. -/
theorem word_natCast (value : Nat) : word (value : Int) = UInt64.ofNat value := by
  refine UInt64.toNat_inj.1 (Int.ofNat.inj ?_)
  exact (toNat_word value).trans (congrArg Int.ofNat UInt64.toNat_ofNat'.symm)

theorem toNat_word_of_le {value : Nat} (small : value ≤ wordLimit) :
    (word value).toNat = value := by
  have here := toNat_word value
  rw [wordLimit] at small
  omega

/-! ### Numbers that fit -/

/-- The word of a natural number that fits is that number. -/
theorem word?_of_le {value : Nat} (small : value ≤ wordLimit) :
    word? (value : Int) = some (UInt64.ofNat value) := by
  have inRange : (0 : Int) ≤ value ∧ (value : Int) ≤ wordLimit := by omega
  rw [word?, if_pos inRange, word_natCast]

theorem word?_of_gt {value : Nat} (large : wordLimit < value) : word? (value : Int) = none :=
  if_neg fun inRange => Nat.not_le.2 large (Int.ofNat_le.1 inRange.2)

theorem word?_toNat (value : UInt64) : word? (value.toNat : Int) = some value := by
  rw [word?_of_le (Nat.le_of_lt_succ value.toNat_lt), UInt64.ofNat_toNat]

theorem toNat_of_word? {value : Int} {result : UInt64} (found : word? value = some result) :
    value = result.toNat := by
  unfold word? at found
  split at found
  · next inRange =>
    obtain ⟨natural, rfl⟩ := Int.eq_ofNat_of_zero_le inRange.1
    rw [← Option.some.inj found, toNat_word_of_le (Int.ofNat_le.1 inRange.2)]
  · cases found

theorem byte?_toNat (value : UInt8) : byte? (value.toNat : Int) = some value := by
  have inRange : (0 : Int) ≤ value.toNat ∧ (value.toNat : Int) ≤ 0xFF := by
    have := value.toNat_lt
    omega
  rw [byte?, if_pos inRange, Int.toNat_natCast, UInt8.ofNat_toNat]

theorem toNat_of_byte? {value : Int} {byte : UInt8} (found : byte? value = some byte) :
    (byte.toNat : Int) = value := by
  unfold byte? at found
  split at found
  · next inRange =>
    cases found
    rw [UInt8.toNat_ofNat_of_lt' (by show value.toNat < 256; omega)]
    exact Int.toNat_of_nonneg inRange.1
  · cases found

end HexEditor
