/-
Which texts are addresses. An address is the name of an end of the file, or a number: hexadecimal
and binary digits stand behind a mark, octal digits behind a zero, and decimal digits begin with
another digit. Nothing else is an address, except that the mark of a base is passed over once more
where it is repeated in front of the digits; the zero in front of octal digits counts as theirs.
-/

import HexEditor.Proofs.Number.Literal
import HexEditor.Session.Address

namespace HexEditor

namespace Radix

def two : Radix := ⟨2, by decide, by decide⟩

theorem two_le_eight : 2 ≤ 8 := by decide

def eight : Radix := ⟨8, two_le_eight, by decide⟩

theorem ext_value {first second : Radix} (same : first.value = second.value) : first = second := by
  cases first
  cases second
  cases same
  rfl

end Radix

/-! ### The grammar of addresses -/

/-- The texts that are addresses, with what they stand for. -/
inductive AddressText : List Char → Nat → Prop where
  | finish : AddressText "end".toList (2 ^ 64 - 1)
  | start : AddressText "start".toList 0
  | beginning : AddressText "begin".toList 0
  | hexadecimal {digits : List Char} {value : Nat} (typed : Radix.sixteen.Typed digits value) :
      AddressText ('0' :: 'x' :: digits) value
  | binary {digits : List Char} {value : Nat} (typed : Radix.two.Typed digits value) :
      AddressText ('0' :: 'b' :: digits) value
  | octal {digits : List Char} {value : Nat} (typed : Radix.eight.Typed ('0' :: digits) value) :
      AddressText ('0' :: digits) value
  | decimal {digits : List Char} {value : Nat} (typed : Radix.ten.Typed digits value)
      (noLeadingZero : digits.head? ≠ some '0') : AddressText digits value

/-- The texts in which a mark is repeated, with the number behind it. The second mark can be in
upper case. -/
inductive MarkedTwice : List Char → Nat → Prop where
  | hexadecimal {letter : Char} {digits : List Char} {value : Nat}
      (mark : letter = 'x' ∨ letter = 'X') (typed : Radix.sixteen.Typed digits value) :
      MarkedTwice ('0' :: 'x' :: '0' :: letter :: digits) value
  | binary {letter : Char} {digits : List Char} {value : Nat}
      (mark : letter = 'b' ∨ letter = 'B') (typed : Radix.two.Typed digits value) :
      MarkedTwice ('0' :: 'b' :: '0' :: letter :: digits) value
  | octal {letter : Char} {digits : List Char} {value : Nat}
      (mark : letter = 'o' ∨ letter = 'O') (typed : Radix.eight.Typed digits value) :
      MarkedTwice ('0' :: letter :: digits) value

section Forms

variable {base : Radix} {text digits : List Char} {value : Nat}

/-- An octal digit is not the letter of another mark. -/
theorem splitAddress_octal (typed : Radix.eight.Typed ('0' :: digits) value) :
    splitAddress ('0' :: digits) = ('0' :: digits, 8) := by
  cases digits with
  | nil => rfl
  | cons first rest =>
    have octal := typed.inBase first (List.mem_cons_of_mem _ List.mem_cons_self)
    rw [splitAddress]
    · rintro others ⟨⟩
      exact absurd octal (by decide)
    · rintro others ⟨⟩
      exact absurd octal (by decide)

theorem splitAddress_decimal (noLeadingZero : text.head? ≠ some '0') :
    splitAddress text = (text, 10) := by
  unfold splitAddress
  split
  · exact absurd rfl noLeadingZero
  · exact absurd rfl noLeadingZero
  · exact absurd rfl noLeadingZero
  · rfl

/-- The beginning of an address decides the base of its digits. -/
theorem splitAddress_cases (split : splitAddress text = (digits, base.value)) :
    base = .sixteen ∧ text = '0' :: 'x' :: digits ∨ base = .two ∧ text = '0' :: 'b' :: digits ∨
      base = .eight ∧ text = digits ∧ digits.head? = some '0' ∨
      base = .ten ∧ text = digits ∧ digits.head? ≠ some '0' := by
  unfold splitAddress at split
  split at split <;> rw [Prod.mk.injEq] at split <;> obtain ⟨rfl, same⟩ := split
  · exact .inl ⟨Radix.ext_value same.symm, rfl⟩
  · exact .inr (.inl ⟨Radix.ext_value same.symm, rfl⟩)
  · exact .inr (.inr (.inl ⟨Radix.ext_value same.symm, rfl, rfl⟩))
  · next noZero =>
    refine .inr (.inr (.inr ⟨Radix.ext_value same.symm, rfl, fun zero => ?_⟩))
    obtain ⟨rest, begins⟩ := List.head?_eq_some_iff.1 zero
    exact noZero rest begins

/-- An address is a word, or digits of the base that its beginning decides. -/
theorem addressText_iff : AddressText text value ↔
    (text = "end".toList ∧ value = wordLimit) ∨
      ((text = "start".toList ∨ text = "begin".toList) ∧ value = 0) ∨
      ∃ (base : Radix) (digits : List Char), splitAddress text = (digits, base.value) ∧
        base.Typed digits value := by
  constructor
  · intro address
    cases address with
    | finish => exact .inl ⟨rfl, rfl⟩
    | start => exact .inr (.inl ⟨.inl rfl, rfl⟩)
    | beginning => exact .inr (.inl ⟨.inr rfl, rfl⟩)
    | hexadecimal typed => exact .inr (.inr ⟨.sixteen, _, rfl, typed⟩)
    | binary typed => exact .inr (.inr ⟨.two, _, rfl, typed⟩)
    | octal typed => exact .inr (.inr ⟨.eight, _, splitAddress_octal typed, typed⟩)
    | decimal typed noLeadingZero =>
      exact .inr (.inr ⟨.ten, _, splitAddress_decimal noLeadingZero, typed⟩)
  · rintro (⟨rfl, rfl⟩ | ⟨rfl | rfl, rfl⟩ | ⟨base, digits, split, typed⟩)
    · exact .finish
    · exact .start
    · exact .beginning
    · rcases splitAddress_cases split with ⟨rfl, rfl⟩ | ⟨rfl, rfl⟩ | ⟨rfl, rfl, zero⟩ | ⟨rfl, rfl, noZero⟩
      · exact .hexadecimal typed
      · exact .binary typed
      · obtain ⟨rest, rfl⟩ := List.head?_eq_some_iff.1 zero
        exact .octal typed
      · exact .decimal typed noZero

/-- A mark is repeated if it stands in front of the digits of the base that the beginning decides. -/
theorem markedTwice_iff : MarkedTwice text value ↔
    ∃ (base : Radix) (letter : Char) (digits : List Char),
      splitAddress text = ('0' :: letter :: digits, base.value) ∧
        markedBase? letter = some base.value ∧ base.Typed digits value := by
  constructor
  · intro marked
    cases marked with
    | hexadecimal mark typed =>
      exact ⟨.sixteen, _, _, rfl, markedBase?_eq_some_iff.2 (.inl ⟨mark, rfl⟩), typed⟩
    | binary mark typed =>
      exact ⟨.two, _, _, rfl, markedBase?_eq_some_iff.2 (.inr (.inr ⟨mark, rfl⟩)), typed⟩
    | octal mark typed =>
      refine ⟨.eight, _, _, ?_, markedBase?_eq_some_iff.2 (.inr (.inl ⟨mark, rfl⟩)), typed⟩
      rcases mark with rfl | rfl <;> rfl
  · rintro ⟨base, letter, digits, split, mark, typed⟩
    rw [markedBase?_eq_some_iff] at mark
    rcases splitAddress_cases split with ⟨rfl, rfl⟩ | ⟨rfl, rfl⟩ | ⟨rfl, rfl, -⟩ | ⟨rfl, -, noZero⟩
    · exact .hexadecimal (mark.elim And.left fun other => by simp [Radix.sixteen] at other) typed
    · exact .binary (by simpa [Radix.two] using mark) typed
    · exact .octal (by simpa [Radix.eight] using mark) typed
    · exact absurd rfl noZero

/-- No address has a mark that is repeated, because the letter of a mark is no digit of its base. -/
theorem MarkedTwice.not_addressText (marked : MarkedTwice text value) (other : Nat) :
    ¬ AddressText text other := by
  obtain ⟨base, letter, digits, split, mark, -⟩ := markedTwice_iff.1 marked
  rw [addressText_iff]
  rintro (⟨rfl, -⟩ | ⟨rfl | rfl, -⟩ | ⟨_, _, same, typed⟩)
  · cases split
  · cases split
  · cases split
  · rw [split, Prod.mk.injEq] at same
    obtain ⟨rfl, same⟩ := same
    rw [← Radix.ext_value same] at typed
    exact not_typed_marked mark typed

end Forms

/-! ### Reading addresses -/

/-- A text is an address or has a repeated mark if it is a word or a literal of the base that its
beginning decides. -/
theorem address_or_marked_iff {text : List Char} {value : Nat} :
    AddressText text value ∨ MarkedTwice text value ↔
      (text = "end".toList ∧ value = wordLimit) ∨
        ((text = "start".toList ∨ text = "begin".toList) ∧ value = 0) ∨
        ∃ (base : Radix) (digits : List Char), splitAddress text = (digits, base.value) ∧
          base.Literal digits value := by
  rw [addressText_iff, markedTwice_iff, or_assoc, or_assoc]
  refine or_congr_right (or_congr_right ⟨?_, ?_⟩)
  · rintro (⟨base, digits, split, typed⟩ | ⟨base, letter, digits, split, mark, typed⟩)
    · exact ⟨base, digits, split, .bare typed⟩
    · exact ⟨base, _, split, .marked mark typed⟩
  · rintro ⟨base, digits, split, literal⟩
    cases literal with
    | bare typed => exact .inl ⟨base, digits, split, typed⟩
    | marked mark typed => exact .inr ⟨base, _, _, split, mark, typed⟩

/-- A text that begins with no digit is no number. -/
theorem not_literal_of_letter {base : Radix} {first : Char} {rest digits : List Char} {value : Nat}
    (noDigit : first.toLower ∉ Radix.ten.alphabet)
    (split : splitAddress (first :: rest) = (digits, base.value)) : ¬ base.Literal digits value := by
  have noZero : first ≠ '0' := by
    rintro rfl
    exact noDigit (by decide)
  intro literal
  rcases splitAddress_cases split with ⟨-, begins⟩ | ⟨-, begins⟩ | ⟨-, rfl, zero⟩ | ⟨rfl, rfl, -⟩
  · exact noZero (List.cons.inj begins).1
  · exact noZero (List.cons.inj begins).1
  · exact noZero (Option.some.inj zero)
  · cases literal with
    | bare typed => exact noDigit (typed.inBase first List.mem_cons_self)
    | marked _ _ => exact noZero rfl

theorem parseAddress_number_iff {text : String} {base : Radix} {digits : List Char} {value : Nat}
    (split : splitAddress text.toList = (digits, base.value))
    (notFinish : text ≠ "end") (notStart : ¬ (text = "start" ∨ text = "begin")) :
    parseAddress text = .ok value ↔ base.Literal digits value ∧
      (unlimitedBase base.value = true ∨ digits.length ≤ literalDigitLimit) ∧
      value ≤ wordLimit := by
  rw [parseAddress, if_neg notFinish, if_neg notStart, split]
  dsimp only
  by_cases alphanumeric : digits ≠ [] ∧ ∀ digit ∈ digits, (digitValue? digit).isSome = true
  · rw [if_neg (by simpa [← Option.isSome_iff_ne_none] using alphanumeric)]
    constructor
    · intro parsed
      split at parsed
      · cases parsed
      · next integer read =>
        obtain ⟨natural, rfl, literal, short⟩ := (readInteger_literal_iff alphanumeric.2).1 read
        split at parsed
        · cases parsed
        · next small =>
          cases parsed
          exact ⟨literal, short, Nat.not_lt.1 small⟩
    · rintro ⟨literal, short, small⟩
      rw [(readInteger_literal_iff alphanumeric.2).2 ⟨value, rfl, literal, short⟩]
      exact if_neg (Nat.not_lt.2 small)
  · rw [if_pos (by simpa [or_iff_not_imp_left] using alphanumeric)]
    refine iff_of_false nofun ?_
    rintro ⟨literal, -⟩
    exact alphanumeric literal.alphanumeric

/-- Digits that begin with another digit than zero spell a number that no word holds long before there
are too many of them to be read. -/
theorem short_of_small {base : Radix} {text digits : List Char} {value : Nat}
    (split : splitAddress text = (digits, base.value)) (literal : base.Literal digits value)
    (small : value ≤ wordLimit) :
    unlimitedBase base.value = true ∨ digits.length ≤ literalDigitLimit := by
  rcases splitAddress_cases split with ⟨rfl, -⟩ | ⟨rfl, -⟩ | ⟨rfl, -⟩ | ⟨rfl, -, noZero⟩
  · exact .inl rfl
  · exact .inl rfl
  · exact .inl rfl
  · cases literal with
    | bare typed =>
      refine .inr (Nat.not_lt.1 fun long => ?_)
      have large := Nat.le_trans (typed.pow_le noZero) small
      have many : 20 ≤ digits.length - 1 := by
        rw [literalDigitLimit] at long
        omega
      have power := Nat.pow_le_pow_right (by decide : 0 < 10) many
      exact absurd (Nat.le_trans power large) (by decide)
    | marked mark _ => exact absurd rfl noZero

theorem exists_splitAddress (text : List Char) :
    ∃ (base : Radix) (digits : List Char), splitAddress text = (digits, base.value) := by
  unfold splitAddress
  split
  · exact ⟨.sixteen, _, rfl⟩
  · exact ⟨.two, _, rfl⟩
  · exact ⟨.eight, _, rfl⟩
  · exact ⟨.ten, _, rfl⟩

/-- What is read as an address is an address, or has a repeated mark; a word holds what it stands
for. -/
theorem parseAddress_eq_ok_iff {text : String} {value : Nat} :
    parseAddress text = .ok value ↔
      (AddressText text.toList value ∨ MarkedTwice text.toList value) ∧ value ≤ wordLimit := by
  rw [address_or_marked_iff]
  by_cases finish : text = "end"
  · subst finish
    constructor
    · rintro ⟨⟩
      exact ⟨.inl ⟨rfl, rfl⟩, Nat.le_refl _⟩
    · rintro ⟨⟨-, rfl⟩ | ⟨other | other, -⟩ | ⟨base, digits, split, literal⟩, -⟩
      · rfl
      · cases other
      · cases other
      · exact absurd literal (not_literal_of_letter (by decide) split)
  by_cases start : text = "start" ∨ text = "begin"
  · have word : text.toList = "start".toList ∨ text.toList = "begin".toList :=
      start.imp (congrArg String.toList) (congrArg String.toList)
    have zero : parseAddress text = .ok 0 := (if_neg finish).trans (if_pos start)
    rw [zero, Except.ok.injEq]
    constructor
    · rintro rfl
      exact ⟨.inr (.inl ⟨word, rfl⟩), Nat.zero_le _⟩
    · rintro ⟨⟨same, -⟩ | ⟨-, rfl⟩ | ⟨base, digits, split, literal⟩, -⟩
      · exact absurd (String.toList_inj.1 same) finish
      · rfl
      · rcases word with same | same
        · rw [same] at split
          exact absurd literal (not_literal_of_letter (by decide) split)
        · rw [same] at split
          exact absurd literal (not_literal_of_letter (by decide) split)
  constructor
  · intro parsed
    obtain ⟨base, digits, split⟩ := exists_splitAddress text.toList
    obtain ⟨literal, -, small⟩ := (parseAddress_number_iff split finish start).1 parsed
    exact ⟨.inr (.inr ⟨base, digits, split, literal⟩), small⟩
  · rintro ⟨⟨same, -⟩ | ⟨same | same, -⟩ | ⟨base, digits, split, literal⟩, small⟩
    · exact absurd (String.toList_inj.1 same) finish
    · exact absurd (.inl (String.toList_inj.1 same)) start
    · exact absurd (.inr (String.toList_inj.1 same)) start
    · exact (parseAddress_number_iff split finish start).2
        ⟨literal, short_of_small split literal small, small⟩

/-- A text is read as an address just if it is one and what it stands for fits into a word, or if it
is none because the mark of its base is repeated, and the number behind the marks fits. -/
theorem parseAddress_means (text : String) :
    (∀ value, parseAddress text = .ok value ↔
      (AddressText text.toList value ∨ MarkedTwice text.toList value) ∧ value ≤ 2 ^ 64 - 1) ∧
    ((∃ value, MarkedTwice text.toList value) → ∀ value, ¬ AddressText text.toList value) := by
  refine ⟨fun value => parseAddress_eq_ok_iff, ?_⟩
  rintro ⟨value, marked⟩
  exact marked.not_addressText

/-- A repeated mark is passed over, where it should be refused like any other letter. -/
theorem parseAddress_repeatedMark :
    parseAddress "0x0x10" = .ok 16 ∧ ∀ value, ¬ AddressText "0x0x10".toList value := by
  have marked : MarkedTwice "0x0x10".toList 16 :=
    .hexadecimal (.inl rfl) ⟨by decide,
      List.forall_mem_cons.2 ⟨by decide, List.forall_mem_singleton.2 (by decide)⟩, by decide⟩
  exact ⟨parseAddress_eq_ok_iff.2 ⟨.inr marked, by decide⟩, marked.not_addressText⟩

end HexEditor
