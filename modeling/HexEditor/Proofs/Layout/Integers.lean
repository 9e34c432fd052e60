/-
What bytes of an integer kind mean. Bytes spell a number without a sign, and the encoding
of the sign says which integer it stands for: the number itself as long as its uppermost
bit is not set, and else the number less a constant, or the opposite of its other bits. The
main statement says that decoding gives the word of that integer and that displaying the
word shows the integer, in every base: every integer that eight bytes can mean is one that
a word stands for when it is read with a sign just where the kind has one.
-/

import HexEditor.Layout.Tree
import HexEditor.Proofs.Number.Signed
import Mathlib.Data.Int.ModEq

namespace HexEditor

/-- The number that bytes spell has them as its digits. -/
theorem littleEndian_eq_ofDigits (bytes : List UInt8) :
    littleEndian bytes = Nat.ofDigits 256 (bytes.map UInt8.toNat) := by
  induction bytes with
  | nil => rfl
  | cons byte rest inductionHypothesis =>
    rw [littleEndian, inductionHypothesis, List.map_cons, Nat.ofDigits_cons]

theorem littleEndian_lt (bytes : List UInt8) : littleEndian bytes < 2 ^ (8 * bytes.length) := by
  have small : ∀ digit ∈ bytes.map UInt8.toNat, digit < 256 := by
    intro digit member
    obtain ⟨byte, -, rfl⟩ := List.mem_map.1 member
    exact byte.toNat_lt
  have bound := Nat.ofDigits_lt_base_pow_length (by decide) small
  rw [← littleEndian_eq_ofDigits, List.length_map] at bound
  rw [Nat.pow_mul]
  exact bound

/-- Bytes spell a number that has as many bits as they have. -/
theorem ByteOrder.value_lt (order : ByteOrder) (bytes : List UInt8) :
    order.value bytes < 2 ^ (8 * bytes.length) := by
  cases order with
  | little => exact littleEndian_lt bytes
  | big =>
    rw [value, ← List.length_reverse]
    exact littleEndian_lt bytes.reverse

/-- The integer that a number stands for which some bytes spell without a sign. -/
def SignEncoding.meaning (sign : SignEncoding) (width value : Nat) : Int :=
  if value < 2 ^ (8 * width - 1) then value
  else
    match sign with
    | .unsigned => value
    | .twosComplement => value - (2 ^ (8 * width) : Nat)
    | .onesComplement => value - ((2 ^ (8 * width) : Nat) - 1)
    | .signMagnitude => -(value - (2 ^ (8 * width - 1) : Nat))

namespace IntegerKind

variable (kind : IntegerKind)

/-- The bit of the sign is the uppermost one of the bytes, and a bit of a word. -/
theorem two_pow_width :
    2 ^ (8 * kind.width) = 2 * 2 ^ (8 * kind.width - 1) ∧ 8 * kind.width - 1 < 64 ∧
      2 ^ (8 * kind.width) ≤ 2 ^ 64 := by
  have first := kind.one_le_width
  have last := kind.width_le_eight
  refine ⟨?_, by omega, Nat.pow_le_pow_right (by decide) (by omega)⟩
  rw [← Nat.pow_succ']
  congr 1
  omega

variable {kind} {bytes : List UInt8}

/-- Decoding gives the word of the integer that the bytes mean. -/
theorem decode_eq_word (full : bytes.length = kind.width) :
    kind.decode bytes = word (kind.sign.meaning kind.width (kind.order.value bytes)) := by
  obtain ⟨double, inWord, limit⟩ := kind.two_pow_width
  have small : kind.order.value bytes < 2 ^ (8 * kind.width) := full ▸ kind.order.value_lt bytes
  have plain : decodeInteger kind.order false bytes = word (kind.order.value bytes) := rfl
  have loaded : decodeInteger kind.order true bytes =
      word (twosComplement (8 * kind.width) (kind.order.value bytes)) := by
    rw [← full]
    rfl
  rw [decode, plain, loaded]
  generalize kind.order.value bytes = value at small
  have held : (word value).toNat = value := toNat_word_of_le (by rw [wordLimit]; omega)
  have mask : kind.signMask = word (2 ^ (8 * kind.width - 1) : Nat) := rfl
  have negative :
      (word value &&& kind.signMask != 0) = true ↔ 2 ^ (8 * kind.width - 1) ≤ value := by
    rw [mask, and_bit_ne_zero_iff inWord (by rw [held, Nat.pow_succ']; omega), held]
  have power : Nat.pow 2 (8 * kind.width) = 2 ^ (8 * kind.width) := rfl
  unfold SignEncoding.meaning
  rcases Nat.lt_or_ge value (2 ^ (8 * kind.width - 1)) with below | reached
  · have unset : (word value &&& kind.signMask != 0) = false := by
      rw [Bool.eq_false_iff, ne_eq, negative]
      exact Nat.not_le.2 below
    have positive : twosComplement (8 * kind.width) value = value := by
      rw [twosComplement, power, if_neg (by omega)]
    rw [if_pos below, unset, positive]
    cases kind.sign with
    | unsigned => rfl
    | twosComplement => rfl
    | onesComplement => rfl
    | signMagnitude => rfl
  · have lowered : twosComplement (8 * kind.width) value =
        value - (2 ^ (8 * kind.width) : Nat) := by
      rw [twosComplement, power, if_pos (by omega)]
    rw [if_neg (Nat.not_lt.2 reached), negative.2 reached, lowered]
    cases kind.sign with
    | unsigned => rfl
    | twosComplement => rfl
    | onesComplement => exact word_sub _ _
    | signMagnitude =>
      have rest : ((value % 2 ^ (8 * kind.width - 1) : Nat) : Int) =
          value - (2 ^ (8 * kind.width - 1) : Nat) := by
        rw [Nat.mod_eq_sub_mod reached, Nat.mod_eq_of_lt (by omega)]
        omega
      show -(word value &&& (kind.signMask - 1)) = _
      rw [mask, and_bits_below _ inWord, held, word_neg, rest]

/-- The integers that bytes mean are those that a word stands for. -/
theorem inWord_meaning {value : Nat} (small : value < 2 ^ (8 * kind.width)) :
    InWord kind.signed (kind.sign.meaning kind.width value) := by
  obtain ⟨double, -, limit⟩ := kind.two_pow_width
  unfold SignEncoding.meaning signed
  split
  · exact inWord_of_lt _ (by omega)
  · cases kind.sign with
    | unsigned =>
      show 0 ≤ (value : Int) ∧ (value : Int) < 2 ^ 64
      omega
    | twosComplement =>
      show -2 ^ 63 ≤ (value : Int) - (2 ^ (8 * kind.width) : Nat) ∧
        (value : Int) - (2 ^ (8 * kind.width) : Nat) < 2 ^ 63
      omega
    | onesComplement =>
      show -2 ^ 63 ≤ (value : Int) - ((2 ^ (8 * kind.width) : Nat) - 1) ∧
        (value : Int) - ((2 ^ (8 * kind.width) : Nat) - 1) < 2 ^ 63
      omega
    | signMagnitude =>
      show -2 ^ 63 ≤ -((value : Int) - (2 ^ (8 * kind.width - 1) : Nat)) ∧
        -((value : Int) - (2 ^ (8 * kind.width - 1) : Nat)) < 2 ^ 63
      omega

/-- Bytes of a kind are decoded as the integer that they mean, modulo `2 ^ 64`, and displayed as
that integer in every base. -/
theorem shown_as_meant (full : bytes.length = kind.width) :
    let meaning := kind.sign.meaning kind.width (kind.order.value bytes)
    ((kind.decode bytes).toNat : Int) ≡ meaning [ZMOD 2 ^ 64] ∧
      ∀ base : Radix, base.display kind.signed (kind.decode bytes) = base.integerText meaning := by
  intro meaning
  have small : kind.order.value bytes < 2 ^ (8 * kind.width) := full ▸ kind.order.value_lt bytes
  rw [decode_eq_word full]
  refine ⟨?_, fun base => base.display_word (inWord_meaning small)⟩
  rw [toNat_word]
  exact Int.mod_modEq _ _

/-- Eight bytes, the most significant one first, of which the uppermost bit is a minus sign. -/
def signedMagnitude : IntegerKind where
  width := 8
  order := .big
  sign := .signMagnitude
  base := .ten
  one_le_width := by decide
  width_le_eight := by decide

theorem shown_as_meant_signedMagnitude :
    [0x80, 0, 0, 0, 0, 0, 1, 2].length = signedMagnitude.width ∧
      ((signedMagnitude.decode [0x80, 0, 0, 0, 0, 0, 1, 2]).toNat : Int) ≡ -258 [ZMOD 2 ^ 64] ∧
      ∀ base : Radix, base.display true (signedMagnitude.decode [0x80, 0, 0, 0, 0, 0, 1, 2]) =
        base.integerText (-258) := by
  have meant : SignEncoding.meaning .signMagnitude 8
      (ByteOrder.big.value [0x80, 0, 0, 0, 0, 0, 1, 2]) = -258 := by decide
  have full : [0x80, 0, 0, 0, 0, 0, 1, 2].length = signedMagnitude.width := rfl
  exact ⟨full, meant ▸ shown_as_meant full⟩

end IntegerKind

end HexEditor
