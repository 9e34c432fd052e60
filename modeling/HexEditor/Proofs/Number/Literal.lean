/-
Numbers that are typed. Letters and digits are read as a number in a base if they are digits
of that base, in either case and with zeros in front or without, and the number is the one that
they spell. The mark of the base may stand in front of them, but only once, because the letter of
a mark is no digit of its base.
-/

import HexEditor.Proofs.Number.Display
import HexEditor.Proofs.Outcome

namespace HexEditor

variable {character : Char} {digit : Nat}

/-! ### Letters and digits -/

theorem digitValue?_of_not_ascii (notAscii : 128 ≤ character.toNat) :
    digitValue? character = none := by
  have above (last : Char) (ascii : last.toNat < 128) : ¬ character ≤ last :=
    fun below => Nat.not_le.2 (Nat.lt_of_lt_of_le ascii notAscii) below
  rw [digitValue?, if_neg fun inside => above '9' (by decide) inside.2,
    if_neg fun inside => above 'z' (by decide) inside.2,
    if_neg fun inside => above 'Z' (by decide) inside.2]

theorem ascii_of_digitValue? (found : digitValue? character = some digit) :
    character.toNat < 128 := by
  by_contra notAscii
  rw [digitValue?_of_not_ascii (Nat.not_lt.1 notAscii)] at found
  cases found

/-- What a character is worth does not depend on its case. -/
theorem digitValue?_eq_some_iff (small : digit < largestBase) :
    digitValue? character = some digit ↔ character.toLower = digitChar digit := by
  by_cases ascii : character.toNat < 128
  · have all : ∀ code < 128, ∀ digit < 36, digitValue? (Char.ofNat code) = some digit ↔
        (Char.ofNat code).toLower = digitChar digit := by
      decide +kernel
    have here := all _ ascii digit small
    rwa [Char.ofNat_toNat] at here
  · have lower : character.toLower = character :=
      dif_neg fun upper => ascii (Nat.lt_of_le_of_lt upper.2 (by decide))
    have all : ∀ digit < 36, (digitChar digit).toNat < 128 := by decide
    rw [digitValue?_of_not_ascii (Nat.not_lt.1 ascii), lower]
    refine iff_of_false (fun found => Option.some_ne_none digit found.symm) fun same => ascii ?_
    rw [same]
    exact all digit small

/-- A letter or digit is neither a blank nor a mark of punctuation. -/
theorem plain_of_digitValue? (found : digitValue? character = some digit) :
    isLiteralBlank character = false ∧ character ≠ '-' ∧ character ≠ '+' ∧ character ≠ '_' := by
  have all : ∀ code < 128, (digitValue? (Char.ofNat code)).isSome = true →
      isLiteralBlank (Char.ofNat code) = false ∧ Char.ofNat code ≠ '-' ∧ Char.ofNat code ≠ '+' ∧
        Char.ofNat code ≠ '_' := by
    decide +kernel
  have here := all _ (ascii_of_digitValue? found)
  rw [Char.ofNat_toNat] at here
  exact here (Option.isSome_of_eq_some found)

theorem eq_zero_of_digitValue? (found : digitValue? character = some 0) : character = '0' := by
  have all : ∀ code < 128, digitValue? (Char.ofNat code) = some 0 → Char.ofNat code = '0' := by
    decide +kernel
  have here := all _ (ascii_of_digitValue? found)
  rw [Char.ofNat_toNat] at here
  exact here found

namespace Radix

variable {base : Radix} {digits : List Char} {value : Nat}

/-- A character is a digit of a base, in either case, if it is worth less than the base. -/
theorem toLower_mem_alphabet_iff :
    character.toLower ∈ base.alphabet ↔ ∃ digit < base.value, digitValue? character = some digit := by
  constructor
  · intro member
    obtain ⟨digit, found⟩ := List.mem_iff_getElem?.1 member
    have small : digit < base.value := by
      by_contra large
      rw [alphabet, List.getElem?_take, if_neg large] at found
      cases found
    have below := Nat.lt_of_lt_of_le small base.le_largest
    rw [getElem?_alphabet small, Option.some_inj] at found
    exact ⟨digit, small, (digitValue?_eq_some_iff below).2 found.symm⟩
  · rintro ⟨digit, small, found⟩
    have below := Nat.lt_of_lt_of_le small base.le_largest
    rw [(digitValue?_eq_some_iff below).1 found]
    exact List.mem_of_getElem? (getElem?_alphabet small)

theorem idxOf_toLower (small : digit < base.value) (found : digitValue? character = some digit) :
    base.alphabet.idxOf character.toLower = digit := by
  rw [(digitValue?_eq_some_iff (Nat.lt_of_lt_of_le small base.le_largest)).1 found]
  exact idxOf_digitChar small

/-! ### Typed digits -/

/-- The number that digits of a base, in either case, make of the one in front of them. -/
def typedBehind (base : Radix) (value : Nat) (digits : List Char) : Nat :=
  (digits.map Char.toLower).foldl
    (fun value digit => value * base.value + base.alphabet.idxOf digit) value

/-- Digits that a number can be typed as in a base: there are some, all of that base but in either
case, and they spell the number. -/
structure Typed (base : Radix) (digits : List Char) (value : Nat) : Prop where
  nonempty : digits ≠ []
  inBase : ∀ digit ∈ digits, digit.toLower ∈ base.alphabet
  value_eq : base.spelled (digits.map Char.toLower) = value

/-- Digits that a number is displayed as can be typed. -/
theorem Spells.typed (spells : base.Spells digits value) : base.Typed digits value := by
  have lower : ∀ digit ∈ base.alphabet, digit.toLower = digit := by
    have all : "0123456789abcdefghijklmnopqrstuvwxyz".toList.all
        (fun digit => digit.toLower == digit) = true := by decide
    exact fun digit member => beq_iff_eq.1 (List.all_eq_true.1 all digit (List.mem_of_mem_take member))
  have same : ∀ digit ∈ digits, digit.toLower = digit :=
    fun digit member => lower digit (spells.inBase digit member)
  refine ⟨spells.nonempty, fun digit member => ?_, ?_⟩
  · rw [same digit member]
    exact spells.inBase digit member
  · rw [List.map_congr_left same, List.map_id']
    exact spells.value_eq

theorem mul_pow_le_typedBehind (base : Radix) (value : Nat) (digits : List Char) :
    value * base.value ^ digits.length ≤ base.typedBehind value digits := by
  induction digits generalizing value with
  | nil => rw [List.length_nil, Nat.pow_zero, Nat.mul_one]; exact Nat.le_refl value
  | cons digit rest inductionHypothesis =>
    rw [List.length_cons, Nat.pow_succ', ← Nat.mul_assoc]
    exact Nat.le_trans (Nat.mul_le_mul_right _ (Nat.le_add_right _ _)) (inductionHypothesis _)

/-- With a first digit that is no zero, digits spell a number that is as large as they are many. -/
theorem Typed.pow_le (typed : base.Typed digits value) (noLeadingZero : digits.head? ≠ some '0') :
    base.value ^ (digits.length - 1) ≤ value := by
  obtain ⟨nonempty, inBase, rfl⟩ := typed
  cases digits with
  | nil => exact absurd rfl nonempty
  | cons first rest =>
    obtain ⟨digit, small, found⟩ := toLower_mem_alphabet_iff.1 (inBase first List.mem_cons_self)
    have positive : 0 < digit := by
      by_contra notPositive
      rw [Nat.eq_zero_of_not_pos notPositive] at found
      exact noLeadingZero (congrArg some (eq_zero_of_digitValue? found))
    have whole : base.spelled ((first :: rest).map Char.toLower) = base.typedBehind digit rest := by
      rw [spelled, List.map_cons, List.foldl_cons, idxOf_toLower small found, Nat.zero_mul,
        Nat.zero_add, typedBehind]
    rw [whole, List.length_cons, Nat.add_sub_cancel]
    exact Nat.le_trans (Nat.le_mul_of_pos_left _ positive) (base.mul_pow_le_typedBehind digit rest)

end Radix

/-! ### Reading digits -/

section Reading

variable {base : Radix} {text rest : List Char} {count total value result : Nat} {needed : Bool}

/-- Digits of a base are read to the end. -/
theorem readDigits_of_inBase (inBase : ∀ digit ∈ text, digit.toLower ∈ base.alphabet)
    (enough : needed = true → text ≠ []) :
    readDigits base.value value count needed text =
      some (base.typedBehind value text, count + text.length, []) := by
  induction text generalizing value count needed with
  | nil =>
    cases needed with
    | false => rfl
    | true => exact absurd rfl (enough rfl)
  | cons first rest inductionHypothesis =>
    obtain ⟨digit, small, found⟩ :=
      Radix.toLower_mem_alphabet_iff.1 (inBase first List.mem_cons_self)
    obtain ⟨-, -, -, noUnderscore⟩ := plain_of_digitValue? found
    have others : ∀ digit ∈ rest, digit.toLower ∈ base.alphabet :=
      fun other member => inBase other (List.mem_cons_of_mem _ member)
    have whole : base.typedBehind value (first :: rest) =
        base.typedBehind (value * base.value + digit) rest := by
      rw [Radix.typedBehind, List.map_cons, List.foldl_cons, Radix.idxOf_toLower small found,
        Radix.typedBehind]
    rw [readDigits, if_neg (by simpa using noUnderscore), found]
    dsimp only
    rw [if_pos small, inductionHypothesis others (fun never => absurd never Bool.false_ne_true),
      whole, List.length_cons, Nat.add_assoc, Nat.add_comm 1]

/-- Of letters and digits that are read up to a blank, all are digits of the base. -/
theorem inBase_of_readDigits (alphanumeric : ∀ digit ∈ text, (digitValue? digit).isSome = true)
    (read : readDigits base.value value count needed text = some (result, total, rest))
    (blank : rest.all isLiteralBlank = true) :
    (∀ digit ∈ text, digit.toLower ∈ base.alphabet) ∧ (needed = true → text ≠ []) := by
  induction text generalizing value count needed with
  | nil =>
    refine ⟨nofun, fun isNeeded => ?_⟩
    rw [isNeeded] at read
    cases read
  | cons first others inductionHypothesis =>
    obtain ⟨digit, found⟩ := Option.isSome_iff_exists.1 (alphanumeric first List.mem_cons_self)
    obtain ⟨noBlank, -, -, noUnderscore⟩ := plain_of_digitValue? found
    rw [readDigits, if_neg (by simpa using noUnderscore), found] at read
    dsimp only at read
    split at read
    · next small =>
      obtain ⟨behind, -⟩ := inductionHypothesis
        (fun other member => alphanumeric other (List.mem_cons_of_mem _ member)) read
      refine ⟨fun other member => ?_, fun _ => List.cons_ne_nil _ _⟩
      rcases List.mem_cons.1 member with rfl | later
      · exact Radix.toLower_mem_alphabet_iff.2 ⟨digit, small, found⟩
      · exact behind other later
    · split at read
      · cases read
      · cases read
        rw [List.all_cons, noBlank] at blank
        cases blank

/-! ### Reading literals -/

/-- A literal without a sign: digits that a number can be typed as, bare or behind the mark of the
base. -/
inductive Radix.Literal (base : Radix) : List Char → Nat → Prop where
  | bare {digits : List Char} {value : Nat} (typed : base.Typed digits value) :
      Literal base digits value
  | marked {letter : Char} {digits : List Char} {value : Nat}
      (mark : markedBase? letter = some base.value) (typed : base.Typed digits value) :
      Literal base ('0' :: letter :: digits) value

theorem isSome_of_inBase (inBase : ∀ digit ∈ text, digit.toLower ∈ base.alphabet) :
    ∀ digit ∈ text, (digitValue? digit).isSome = true := by
  intro character member
  obtain ⟨digit, -, found⟩ := Radix.toLower_mem_alphabet_iff.1 (inBase character member)
  exact Option.isSome_of_eq_some found

theorem markedBase?_eq_some_iff {letter : Char} {marked : Nat} :
    markedBase? letter = some marked ↔ (letter = 'x' ∨ letter = 'X') ∧ marked = 16 ∨
      (letter = 'o' ∨ letter = 'O') ∧ marked = 8 ∨ (letter = 'b' ∨ letter = 'B') ∧ marked = 2 := by
  constructor
  · intro mark
    unfold markedBase? at mark
    simp only [Bool.or_eq_true, beq_iff_eq] at mark
    split at mark
    · next hex => exact .inl ⟨hex, (Option.some.inj mark).symm⟩
    split at mark
    · next octal => exact .inr (.inl ⟨octal, (Option.some.inj mark).symm⟩)
    split at mark
    · next binary => exact .inr (.inr ⟨binary, (Option.some.inj mark).symm⟩)
    · cases mark
  · rintro (⟨rfl | rfl, rfl⟩ | ⟨rfl | rfl, rfl⟩ | ⟨rfl | rfl, rfl⟩) <;> rfl

/-- The letter of a mark is worth more than a digit of the base that the mark is for, and such a base
has no limit on digits. -/
theorem worth_of_markedBase? {letter : Char} {marked : Nat} (mark : markedBase? letter = some marked) :
    ∃ digit, digitValue? letter = some digit ∧ marked ≤ digit ∧ unlimitedBase marked = true := by
  rcases markedBase?_eq_some_iff.1 mark with ⟨rfl | rfl, rfl⟩ | ⟨rfl | rfl, rfl⟩ | ⟨rfl | rfl, rfl⟩
  all_goals exact ⟨_, rfl, by decide, rfl⟩

/-- So digits of a base never begin with its mark. -/
theorem not_typed_marked {letter : Char} (mark : markedBase? letter = some base.value) :
    ¬ base.Typed ('0' :: letter :: text) value := by
  intro typed
  obtain ⟨digit, found, large, -⟩ := worth_of_markedBase? mark
  have member := typed.inBase letter (List.mem_cons_of_mem _ List.mem_cons_self)
  obtain ⟨other, small, same⟩ := Radix.toLower_mem_alphabet_iff.1 member
  rw [found, Option.some_inj] at same
  omega

/-- A literal is made of letters and digits. -/
theorem Radix.Literal.alphanumeric (literal : base.Literal text value) :
    text ≠ [] ∧ ∀ digit ∈ text, (digitValue? digit).isSome = true := by
  cases literal with
  | bare typed => exact ⟨typed.nonempty, isSome_of_inBase typed.inBase⟩
  | marked mark typed =>
    refine ⟨List.cons_ne_nil _ _, fun digit member => ?_⟩
    rcases List.mem_cons.1 member with rfl | member
    · rfl
    rcases List.mem_cons.1 member with rfl | member
    · obtain ⟨digit, found, -⟩ := worth_of_markedBase? mark
      exact Option.isSome_of_eq_some found
    · exact isSome_of_inBase typed.inBase digit member

/-- Letters and digits are read as a number if they spell it, and only then. -/
theorem readDigits_typed_iff (alphanumeric : ∀ digit ∈ text, (digitValue? digit).isSome = true) :
    (∃ rest, readDigits base.value 0 0 true text = some (value, count, rest) ∧
      rest.all isLiteralBlank = true) ↔ base.Typed text value ∧ count = text.length := by
  constructor
  · rintro ⟨rest, read, blank⟩
    obtain ⟨inBase, nonempty⟩ := inBase_of_readDigits alphanumeric read blank
    rw [readDigits_of_inBase inBase nonempty, Option.some_inj, Prod.mk.injEq, Prod.mk.injEq] at read
    exact ⟨⟨nonempty rfl, inBase, read.1⟩, by omega⟩
  · rintro ⟨⟨nonempty, inBase, same⟩, rfl⟩
    refine ⟨[], ?_, rfl⟩
    rw [readDigits_of_inBase inBase fun _ => nonempty, Nat.zero_add, ← same]
    rfl

/-- Behind the mark of its base a literal is read on. -/
theorem splitMark_marked {letter : Char} (mark : markedBase? letter = some base.value)
    (noUnderscore : '_' ∉ text) :
    splitMark base.value ('0' :: letter :: text) = (base.value, false, text) := by
  have behind : (if text.head? == some '_' then text.drop 1 else text) = text := by
    rw [if_neg]
    rw [beq_iff_eq]
    exact fun first => noUnderscore (List.mem_of_mem_head? first)
  rw [splitMark, mark]
  dsimp only
  rw [if_pos (by simp), behind]

/-- Without the mark of its base a literal is read from its beginning. -/
theorem splitMark_bare
    (bare : ∀ letter rest, text = '0' :: letter :: rest → markedBase? letter ≠ some base.value) :
    splitMark base.value text = (base.value, false, text) := by
  have given : ¬ (base.value == 0) = true := by
    have := base.two_le
    rw [beq_iff_eq]
    omega
  unfold splitMark
  split
  · next letter rest =>
    have other := bare letter rest rfl
    split
    · next marked mark =>
      rw [mark, Ne, Option.some_inj] at other
      rw [if_neg]
      rw [Bool.or_eq_true, not_or, beq_iff_eq (b := marked)]
      exact ⟨given, fun same => other same.symm⟩
    · exact if_neg given
  · exact if_neg given
  · exact if_neg given

theorem readMagnitude_typed_iff (whole : String) {digits : List Char}
    (split : splitMark base.value text = (base.value, false, digits))
    (alphanumeric : ∀ digit ∈ digits, (digitValue? digit).isSome = true) :
    readMagnitude base.value whole text = .ok value ↔ base.Typed digits value ∧
      (unlimitedBase base.value = true ∨ digits.length ≤ literalDigitLimit) := by
  rw [readMagnitude, split]
  dsimp only
  constructor
  · intro read
    split at read
    · cases read
    · next count rest found =>
      split at read
      · cases read
      · next short =>
        split at read
        · cases read
        · next blank =>
          cases read
          rw [Bool.false_and, Bool.false_or, Bool.not_eq_true', Bool.not_eq_false] at blank
          obtain ⟨typed, rfl⟩ := (readDigits_typed_iff alphanumeric).1 ⟨rest, found, blank⟩
          refine ⟨typed, ?_⟩
          rw [Bool.and_eq_true, Bool.not_eq_true', decide_eq_true_iff] at short
          by_cases unlimited : unlimitedBase base.value = true
          · exact .inl unlimited
          · exact .inr (Nat.not_lt.1 fun long => short ⟨Bool.eq_false_of_not_eq_true unlimited, long⟩)
  · rintro ⟨typed, short⟩
    obtain ⟨rest, found, blank⟩ := (readDigits_typed_iff alphanumeric).2 ⟨typed, rfl⟩
    rw [found]
    dsimp only
    rw [if_neg, if_neg]
    · simp [blank]
    · rw [Bool.and_eq_true, Bool.not_eq_true', decide_eq_true_iff]
      rintro ⟨limited, long⟩
      rcases short with unlimited | short
      · exact absurd unlimited (by rw [limited]; exact Bool.false_ne_true)
      · omega

/-- Letters and digits are read as they are, without a sign and without blanks. -/
theorem readInteger_alphanumeric (radix : Nat)
    (alphanumeric : ∀ digit ∈ text, (digitValue? digit).isSome = true) :
    readInteger radix (String.ofList text) =
      (readMagnitude radix (String.ofList text) text).map fun value : Nat => (value : Int) := by
  have same : text.map literalChar = text := by
    refine (List.map_congr_left fun character member => ?_).trans (List.map_id text)
    obtain ⟨digit, found⟩ := Option.isSome_iff_exists.1 (alphanumeric character member)
    exact if_pos (ascii_of_digitValue? found)
  have plain : ∀ first rest, text = first :: rest →
      isLiteralBlank first = false ∧ first ≠ '-' ∧ first ≠ '+' := by
    rintro first rest rfl
    obtain ⟨digit, found⟩ := Option.isSome_iff_exists.1 (alphanumeric first List.mem_cons_self)
    obtain ⟨noBlank, noMinus, noPlus, -⟩ := plain_of_digitValue? found
    exact ⟨noBlank, noMinus, noPlus⟩
  have whole : text.dropWhile isLiteralBlank = text := by
    cases text with
    | nil => rfl
    | cons first rest => rw [List.dropWhile_cons, (plain first rest rfl).1]; rfl
  rw [readInteger, String.toList_ofList, same, whole]
  split
  · exact absurd rfl (plain _ _ rfl).2.1
  · exact absurd rfl (plain _ _ rfl).2.2
  · cases readMagnitude radix (String.ofList text) text <;> rfl

/-- Letters and digits are read as a number in a base if they are a literal of that base for it, which
must not be too long. -/
theorem readInteger_literal_iff (alphanumeric : ∀ digit ∈ text, (digitValue? digit).isSome = true)
    {integer : Int} :
    readInteger base.value (String.ofList text) = .ok integer ↔
      ∃ value : Nat, (value : Int) = integer ∧ base.Literal text value ∧
        (unlimitedBase base.value = true ∨ text.length ≤ literalDigitLimit) := by
  rw [readInteger_alphanumeric base.value alphanumeric, map_eq_ok_iff]
  refine exists_congr fun value => (and_comm.trans (and_congr_right fun _ => ?_))
  by_cases marked : ∃ letter rest, text = '0' :: letter :: rest ∧
      markedBase? letter = some base.value
  · obtain ⟨letter, rest, rfl, mark⟩ := marked
    have behind : ∀ digit ∈ rest, (digitValue? digit).isSome = true := fun digit member =>
      alphanumeric digit (List.mem_cons_of_mem _ (List.mem_cons_of_mem _ member))
    have noUnderscore : '_' ∉ rest := fun member => by cases behind '_' member
    obtain ⟨-, -, -, unlimited⟩ := worth_of_markedBase? mark
    rw [readMagnitude_typed_iff _ (splitMark_marked mark noUnderscore) behind]
    constructor
    · rintro ⟨typed, -⟩
      exact ⟨.marked mark typed, .inl unlimited⟩
    · rintro ⟨literal, -⟩
      cases literal with
      | bare typed => exact absurd typed (not_typed_marked mark)
      | marked _ typed => exact ⟨typed, .inl unlimited⟩
  · have bare : ∀ letter rest, text = '0' :: letter :: rest →
        markedBase? letter ≠ some base.value :=
      fun letter rest same mark => marked ⟨letter, rest, same, mark⟩
    rw [readMagnitude_typed_iff _ (splitMark_bare bare) alphanumeric]
    refine and_congr_left fun _ => ⟨.bare, fun literal => ?_⟩
    cases literal with
    | bare typed => exact typed
    | marked mark _ => exact absurd mark (bare _ _ rfl)

end Reading

end HexEditor
