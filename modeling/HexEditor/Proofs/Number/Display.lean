/-
What displayed integers say. The text of an integer gives it back: behind a minus sign, if
there is one, and the mark of the base stand digits that spell the magnitude, and the sign
and the magnitude are those of the only integer in range that is congruent to the one that
was asked for. A bare zero stands for zero alone. So no two words are displayed alike, in
any base, read with a sign or without.
-/

import HexEditor.Proofs.Number.Signed

namespace HexEditor

namespace Radix

variable {base : Radix}

/-! ### Digits as characters -/

/-- The digits of a base in the order of what they are worth. -/
def alphabet (base : Radix) : List Char :=
  "0123456789abcdefghijklmnopqrstuvwxyz".toList.take base.value

/-- The number that digits of a base spell, the most significant one first. -/
def spelled (base : Radix) (digits : List Char) : Nat :=
  digits.foldl (fun value digit => value * base.value + base.alphabet.idxOf digit) 0

theorem getElem?_alphabet {digit : Nat} (small : digit < base.value) :
    base.alphabet[digit]? = some (digitChar digit) := by
  have all : ∀ digit < 36,
      "0123456789abcdefghijklmnopqrstuvwxyz".toList[digit]? = some (digitChar digit) := by
    decide
  rw [alphabet, List.getElem?_take, if_pos small]
  exact all digit (Nat.lt_of_lt_of_le small base.le_largest)

/-- The character of a digit is worth that digit. -/
theorem idxOf_digitChar {digit : Nat} (small : digit < base.value) :
    base.alphabet.idxOf (digitChar digit) = digit := by
  obtain ⟨inside, same⟩ := List.getElem?_eq_some_iff.1 (getElem?_alphabet small)
  have distinct : base.alphabet.Nodup := by
    have all : "0123456789abcdefghijklmnopqrstuvwxyz".toList.Nodup := by decide
    exact all.take
  rw [← same]
  exact distinct.idxOf_getElem digit inside

theorem minus_notMem_alphabet (base : Radix) : '-' ∉ base.alphabet := by
  intro member
  exact absurd (List.mem_of_mem_take member) (by decide)

/-! ### Spelled magnitudes -/

/-- Digits that spell a number in a base: there are some, all of that base and in lower case, and
the first one is no zero. -/
structure Spells (base : Radix) (digits : List Char) (value : Nat) : Prop where
  nonempty : digits ≠ []
  inBase : ∀ digit ∈ digits, digit ∈ base.alphabet
  noLeadingZero : digits.head? ≠ some '0'
  value_eq : base.spelled digits = value

/-- The digits of a number that is not zero spell it. -/
theorem spells_digits (base : Radix) {value : Nat} (nonzero : value ≠ 0) :
    base.Spells ((Nat.digits base.value value).reverse.map digitChar) value where
  nonempty := by
    simpa using Nat.digits_ne_nil_iff_ne_zero.2 nonzero
  inBase := by
    intro character member
    obtain ⟨digit, digitMember, rfl⟩ := List.mem_map.1 member
    have small := Nat.digits_lt_base base.two_le (List.mem_reverse.1 digitMember)
    exact List.mem_of_getElem? (getElem?_alphabet small)
  noLeadingZero := by
    have nonempty : Nat.digits base.value value ≠ [] := Nat.digits_ne_nil_iff_ne_zero.2 nonzero
    have first := Nat.getLast_digit_ne_zero base.value nonzero
    have small := Nat.digits_lt_base base.two_le (List.getLast_mem nonempty)
    rw [List.head?_map, List.head?_reverse, List.getLast?_eq_some_getLast nonempty,
      Option.map_some]
    intro zero
    have worth := idxOf_digitChar small
    have positive : 0 < base.value := Nat.lt_of_lt_of_le Nat.two_pos base.two_le
    rw [Option.some.inj zero] at worth
    exact first (worth.symm.trans (idxOf_digitChar positive))
  value_eq := by
    rw [spelled, foldl_digits _ _ _ fun digit member =>
      idxOf_digitChar (Nat.digits_lt_base base.two_le member)]
    exact Nat.ofDigits_digits base.value value

/-! ### Written integers -/

/-- A text that an integer is written as in a base: zero bare, and any other integer as digits that
spell its magnitude behind the mark of the base, with a minus sign in front if it is negative. -/
inductive Writes (base : Radix) : String → Int → Prop where
  | zero : Writes base "0" 0
  | nonzero {value : Int} {digits : List Char} (nonzero : value ≠ 0)
      (spells : base.Spells digits value.natAbs) :
      Writes base
        (String.ofList ((if value < 0 then ['-'] else []) ++ base.mark ++ digits)) value

theorem writes_integerText (base : Radix) (value : Int) :
    base.Writes (base.integerText value) value := by
  by_cases zero : value = 0
  · subst zero
    exact .zero
  · rw [integerText, if_neg zero]
    exact .nonzero zero (base.spells_digits (Int.natAbs_ne_zero.2 zero))

/-- The mark of a base is empty or begins with a zero, and has something behind that. -/
theorem mark_cases (base : Radix) :
    base.mark = [] ∨ ∃ next rest, base.mark = '0' :: next :: rest := by
  unfold mark
  split
  · exact .inr ⟨_, _, rfl⟩
  split
  · exact .inr ⟨_, _, rfl⟩
  split
  · exact .inl rfl
  split
  · exact .inr ⟨_, _, rfl⟩
  · exact .inr ⟨'[', _, rfl⟩

/-- Behind the sign stands neither a minus sign nor a bare zero. -/
theorem Spells.head_mark {digits : List Char} {value : Nat} (spells : base.Spells digits value) :
    (base.mark ++ digits).head? ≠ some '-' ∧ base.mark ++ digits ≠ ['0'] := by
  rcases base.mark_cases with none | ⟨next, rest, some⟩
  · rw [none, List.nil_append]
    refine ⟨fun minus => ?_, fun zero => ?_⟩
    · exact base.minus_notMem_alphabet (spells.inBase '-' (List.mem_of_mem_head? minus))
    · exact spells.noLeadingZero (congrArg List.head? zero)
  · rw [some]
    exact ⟨nofun, nofun⟩

/-- A bare zero is written for zero only. -/
theorem Writes.eq_zero_iff {text : String} {value : Int} (writes : base.Writes text value) :
    text = "0" ↔ value = 0 := by
  cases writes with
  | zero => exact iff_of_true rfl rfl
  | nonzero nonzero spells =>
    refine iff_of_false (fun bare => ?_) nonzero
    have same := String.ofList_injective bare
    rw [List.append_assoc] at same
    split at same
    · cases same
    · exact spells.head_mark.2 same

/-- A text is written for one integer only. -/
theorem Writes.unique {text : String} {first second : Int} (one : base.Writes text first)
    (other : base.Writes text second) : first = second := by
  have zero := one.eq_zero_iff.symm.trans other.eq_zero_iff
  rcases one with _ | @⟨_, digits, nonzero, spells⟩
  · exact (zero.1 rfl).symm
  · generalize written : String.ofList _ = text at other
    rcases other with _ | @⟨_, others, otherNonzero, otherSpells⟩
    · exact absurd (zero.2 rfl) nonzero
    have same := String.ofList_injective written
    rw [List.append_assoc, List.append_assoc] at same
    have magnitude (equal : base.mark ++ digits = base.mark ++ others) :
        first.natAbs = second.natAbs := by
      rw [← spells.value_eq, ← otherSpells.value_eq, List.append_cancel_left equal]
    -- a minus sign cannot be mistaken for the mark or a digit
    split at same <;> split at same
    · have := magnitude (List.cons.inj same).2
      omega
    · exact absurd (congrArg List.head? same).symm otherSpells.head_mark.1
    · exact absurd (congrArg List.head? same) spells.head_mark.1
    · have := magnitude same
      omega

end Radix

/-! ### Displayed integers -/

/-- Every integer is congruent to one that a word can stand for. -/
theorem exists_inWord (signed : Bool) (value : Int) :
    ∃ meaning, InWord signed meaning ∧ meaning ≡ value [ZMOD 2 ^ 64] := by
  cases signed with
  | false => exact ⟨value % 2 ^ 64, ⟨by omega, by omega⟩, Int.mod_modEq _ _⟩
  | true =>
    refine ⟨(value + 2 ^ 63) % 2 ^ 64 - 2 ^ 63, ⟨by omega, by omega⟩, ?_⟩
    rw [Int.ModEq]
    omega

/-- Congruent integers have the same word. -/
theorem word_congr {first second : Int} (congruent : first ≡ second [ZMOD 2 ^ 64]) :
    word first = word second := by
  rw [word, word]
  exact congrArg (fun residue : Int => UInt64.ofNat residue.toNat) congruent

theorem formatInteger_eq {value meaning : Int} {signed : Bool} (base : Radix)
    (inWord : InWord signed meaning) (congruent : meaning ≡ value [ZMOD 2 ^ 64]) :
    formatInteger value signed base.value = .ok (base.integerText meaning) := by
  have usable : Radix.ofInt? base.value = some base := dif_pos ⟨base.two_le, base.le_largest⟩
  rw [formatInteger, usable, ← word_congr congruent]
  exact congrArg Except.ok (base.display_word inWord)

/-- Nothing of an integer is lost where it is displayed, but for a multiple of `2 ^ 64`. In every
base from two to thirty-six, with a sign or without, it is displayed as the text of the congruent
integer in range: as a bare zero if and only if that is zero, and otherwise as lower-case digits of
the base without a leading zero, which spell its magnitude, behind the mark of the base and a minus
sign if it is negative. So no two words are displayed alike. -/
theorem formatInteger_means (signed : Bool) {base : Int} (two_le : 2 ≤ base) (le : base ≤ 36) :
    ∃ radix : Radix, radix.value = base ∧
      (∀ value : Int, ∃ text meaning, formatInteger value signed base = .ok text ∧
        InWord signed meaning ∧ meaning ≡ value [ZMOD 2 ^ 64] ∧
        (text = "0" ↔ value ≡ 0 [ZMOD 2 ^ 64]) ∧
        (¬ value ≡ 0 [ZMOD 2 ^ 64] → ∃ digits, radix.Spells digits meaning.natAbs ∧
          text = String.ofList ((if meaning < 0 then ['-'] else []) ++ radix.mark ++ digits))) ∧
      Function.Injective fun value : UInt64 => formatInteger value.toNat signed base := by
  obtain ⟨natural, rfl⟩ := Int.eq_ofNat_of_zero_le (Int.le_trans (by decide) two_le)
  let radix : Radix := ⟨natural, Int.ofNat_le.1 two_le, Int.ofNat_le.1 le⟩
  refine ⟨radix, rfl, fun value => ?_, fun first second same => ?_⟩
  · obtain ⟨meaning, inWord, congruent⟩ := exists_inWord signed value
    have writes := radix.writes_integerText meaning
    have zero : meaning = 0 ↔ value ≡ 0 [ZMOD 2 ^ 64] := by
      rw [Int.ModEq] at congruent ⊢
      cases signed with
      | false =>
        obtain ⟨low, high⟩ : 0 ≤ meaning ∧ meaning < 2 ^ 64 := inWord
        omega
      | true =>
        obtain ⟨low, high⟩ : -2 ^ 63 ≤ meaning ∧ meaning < 2 ^ 63 := inWord
        omega
    refine ⟨_, meaning, formatInteger_eq radix inWord congruent, inWord, congruent,
      writes.eq_zero_iff.trans zero, fun nonzero => ?_⟩
    generalize radix.integerText meaning = text at writes
    cases writes with
    | zero => exact absurd (zero.1 rfl) nonzero
    | nonzero _ spells => exact ⟨_, spells, rfl⟩
  · obtain ⟨one, oneInWord, oneCongruent⟩ := exists_inWord signed first.toNat
    obtain ⟨other, otherInWord, otherCongruent⟩ := exists_inWord signed second.toNat
    have displayed : formatInteger first.toNat signed radix.value =
        formatInteger second.toNat signed radix.value := same
    rw [formatInteger_eq radix oneInWord oneCongruent,
      formatInteger_eq radix otherInWord otherCongruent] at displayed
    have written := radix.writes_integerText one
    rw [Except.ok.inj displayed] at written
    have equal := written.unique (radix.writes_integerText other)
    have congruent := oneCongruent.symm.trans (equal ▸ otherCongruent)
    rw [Int.ModEq] at congruent
    have firstSmall := first.toNat_lt
    have secondSmall := second.toNat_lt
    exact UInt64.toNat_inj.1 (by omega)

/-- The lowest signed number has no positive counterpart in a word, and is displayed nevertheless. -/
theorem formatInteger_means_lowest :
    (2 : Int) ≤ 36 ∧ (36 : Int) ≤ 36 ∧
      ∃ radix : Radix, (radix.value : Int) = 36 ∧ ∃ digits, radix.Spells digits (2 ^ 63) ∧
        formatInteger (2 ^ 63) true 36 = .ok (String.ofList ('-' :: radix.mark ++ digits)) := by
  refine ⟨by decide, by decide, ?_⟩
  obtain ⟨radix, value, means, -⟩ :=
    formatInteger_means true (by decide : (2 : Int) ≤ 36) (by decide)
  obtain ⟨text, meaning, shown, inWord, congruent, -, nonzero⟩ := means (2 ^ 63)
  obtain ⟨low, high⟩ : -2 ^ 63 ≤ meaning ∧ meaning < 2 ^ 63 := inWord
  have lowest : meaning = -2 ^ 63 := by
    rw [Int.ModEq] at congruent
    omega
  subst lowest
  obtain ⟨digits, spells, rfl⟩ := nonzero (by decide)
  exact ⟨radix, value, digits, spells, shown⟩

end HexEditor
