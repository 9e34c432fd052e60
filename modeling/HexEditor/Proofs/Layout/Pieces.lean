/-
The pieces that compiled layouts are made of. The address of a value is pushed, and the
word that was loaded from it is mended where no load knows its encoding, by code that a
jump skips where the word needs no mending. The jump holds as long as the size of the
program is a word, because it goes forward and stays in the program.
-/

import HexEditor.Layout.Compilation
import HexEditor.Proofs.Number.Word
import HexEditor.Proofs.Program.Stepping

namespace HexEditor

/-! ### Addresses -/

namespace Machine

variable {setting : RunSetting} {machine : Machine}

theorem carries_anchor (room : setting.code.size ≤ wordLimit) (running : machine.halted = false)
    (anchor : Anchor) :
    Carries setting anchor.code machine
      { machine with stack := anchor.address setting.cursor :: machine.stack } := by
  cases anchor with
  | absolute address => exact .one room running fun _ _ => rfl
  | cursor distance =>
    have cursor : Carries setting [.pushCursor] machine
        { machine with stack := word setting.cursor :: machine.stack } :=
      .one room running fun _ _ => rfl
    rw [Anchor.code, Anchor.address]
    by_cases here : distance = 0
    · rw [if_pos here, here, Int.add_zero]
      exact cursor
    · have pushed : Carries setting [.pushInteger (word distance)]
          { machine with stack := word setting.cursor :: machine.stack }
          { machine with stack := word distance :: word setting.cursor :: machine.stack } :=
        .one room running fun _ _ => rfl
      have added : Carries setting [.add]
          { machine with stack := word distance :: word setting.cursor :: machine.stack }
          { machine with stack := word (setting.cursor + distance) :: machine.stack } := by
        rw [← word_add, UInt64.add_comm]
        exact .one room running fun _ _ => rfl
      rw [if_neg here]
      exact cursor.cons (pushed.cons added)

/-! ### Encodings of signs -/

/-- The distance over some code in front of a jump, which it spans together with the jump. -/
def jumpDistance (code : List Instruction) : UInt64 :=
  UInt64.ofNat ((Instruction.jump .zero 0).encode.length + (encodeAll code).length)

/-- A jump over some code is taken where the word on the stack is zero. -/
theorem carries_jumpOver (room : setting.code.size ≤ wordLimit) (running : machine.halted = false)
    {decider value changed : UInt64} {stack : List UInt64} {code : List Instruction}
    (carries : Carries setting code { machine with stack := value :: stack }
      { machine with stack := changed :: stack }) :
    Carries setting (.jump .zero (jumpDistance code) :: code)
      { machine with stack := decider :: value :: stack }
      { machine with stack := (if decider != 0 then changed else value) :: stack } := by
  intro position stands
  have parts : encodeAll (.jump .zero (jumpDistance code) :: code) =
      (Instruction.jump .zero (jumpDistance code)).encode ++ encodeAll code := rfl
  rw [parts] at stands ⊢
  obtain ⟨here, behind⟩ := ByteSupply.supplies_append stands
  have width : (Instruction.jump .zero (jumpDistance code)).encode.length = 9 :=
    congrArg (· + 1) (length_wordBytes _)
  -- the jump leads no further than to the end of the program, so its target is a word
  have inside : position + (9 + (encodeAll code).length) ≤ wordLimit := by
    have last := stands.le_size (by rw [List.length_append, width]; omega)
    rw [List.length_append, width] at last
    exact Nat.le_trans last room
  have distance : (jumpDistance code).toNat = 9 + (encodeAll code).length :=
    toNat_ofNat_of_le (Nat.le_trans (Nat.le_add_left _ position) inside)
  have target : (word ((position : Int) + (jumpDistance code).toNat)).toNat =
      position + (9 + (encodeAll code).length) := by
    rw [distance, ← Int.natCast_add]
    exact toNat_word_of_le inside
  rw [List.length_append, width]
  rw [width] at behind
  have going : ({ machine with counter := position, stack := decider :: value :: stack } :
      Machine).isDone setting = false :=
    isDone_of_stands running here
  have stepped :
      step setting { machine with counter := position, stack := decider :: value :: stack } =
      .ok () (if decider == 0 then
        { machine with
          counter := position + (9 + (encodeAll code).length), stack := value :: stack }
      else { machine with counter := position + 9, stack := value :: stack }) := by
    rw [step_of_stands room { machine with counter := position, stack := decider :: value :: stack }
      here, width, ← target]
    rfl
  refine .step going stepped ?_
  by_cases zero : decider = 0
  · subst zero
    exact .here _ _
  · have nonzero : (decider == 0) = false := by simpa using zero
    rw [bne, nonzero]
    have onward := carries (position + 9) behind
    rw [Nat.add_assoc] at onward
    exact onward

/-- Code that is run only where a bit of a mask is set changes the word on the stack there, and
leaves it as it is elsewhere. -/
theorem carries_whereSet (room : setting.code.size ≤ wordLimit) (running : machine.halted = false)
    {mask value changed : UInt64} {stack : List UInt64} {code : List Instruction}
    (carries : Carries setting code { machine with stack := value :: stack }
      { machine with stack := changed :: stack }) :
    Carries setting (whereSet mask code) { machine with stack := value :: stack }
      { machine with stack := (if value &&& mask != 0 then changed else value) :: stack } := by
  have duplicated : Carries setting [.duplicate] { machine with stack := value :: stack }
      { machine with stack := value :: value :: stack } :=
    .one room running fun _ _ => rfl
  have pushed : Carries setting [.pushInteger mask]
      { machine with stack := value :: value :: stack }
      { machine with stack := mask :: value :: value :: stack } :=
    .one room running fun _ _ => rfl
  have masked : Carries setting [.and] { machine with stack := mask :: value :: value :: stack }
      { machine with stack := (value &&& mask) :: value :: stack } := by
    rw [UInt64.and_comm]
    exact .one room running fun _ _ => rfl
  exact duplicated.cons (pushed.cons (masked.cons (carries_jumpOver room running carries)))

end Machine

namespace IntegerKind

/-- The word that a word stands for that was loaded as one of this kind. -/
def mend (kind : IntegerKind) (value : UInt64) : UInt64 :=
  match kind.sign with
  | .unsigned => value
  | .twosComplement => value
  | .onesComplement => if value &&& kind.signMask != 0 then value - kind.fullMask else value
  | .signMagnitude =>
    if value &&& kind.signMask != 0 then -(value &&& (kind.signMask - 1)) else value

theorem decode_eq_mend (kind : IntegerKind) (bytes : List UInt8) :
    kind.decode bytes =
      kind.mend (decodeInteger kind.order (kind.sign == .twosComplement) bytes) := by
  obtain ⟨width, order, sign, base, _, _⟩ := kind
  cases sign with
  | unsigned => rfl
  | twosComplement => rfl
  | onesComplement => rfl
  | signMagnitude => rfl

end IntegerKind

namespace Machine

variable {setting : RunSetting}

/-- The sign code of a kind mends the word on the stack. -/
theorem carries_signCode (machine : Machine) (room : setting.code.size ≤ wordLimit)
    (running : machine.halted = false) (kind : IntegerKind) (value : UInt64) (stack : List UInt64) :
    Carries setting kind.signCode { machine with stack := value :: stack }
      { machine with stack := kind.mend value :: stack } := by
  rw [IntegerKind.signCode, IntegerKind.mend]
  cases kind.sign with
  | unsigned => exact .nil setting _
  | twosComplement => exact .nil setting _
  | onesComplement =>
    have pushed : Carries setting [.pushInteger kind.fullMask]
        { machine with stack := value :: stack }
        { machine with stack := kind.fullMask :: value :: stack } :=
      .one room running fun _ _ => rfl
    have negated : Carries setting [.negate]
        { machine with stack := kind.fullMask :: value :: stack }
        { machine with stack := -kind.fullMask :: value :: stack } :=
      .one room running fun _ _ => rfl
    have added : Carries setting [.add] { machine with stack := -kind.fullMask :: value :: stack }
        { machine with stack := (value - kind.fullMask) :: stack } := by
      rw [UInt64.sub_eq_add_neg, UInt64.add_comm]
      exact .one room running fun _ _ => rfl
    exact carries_whereSet room running (pushed.cons (negated.cons added))
  | signMagnitude =>
    have pushed : Carries setting [.pushInteger (kind.signMask - 1)]
        { machine with stack := value :: stack }
        { machine with stack := (kind.signMask - 1) :: value :: stack } :=
      .one room running fun _ _ => rfl
    have masked : Carries setting [.and]
        { machine with stack := (kind.signMask - 1) :: value :: stack }
        { machine with stack := (value &&& (kind.signMask - 1)) :: stack } := by
      rw [UInt64.and_comm]
      exact .one room running fun _ _ => rfl
    have negated : Carries setting [.negate]
        { machine with stack := (value &&& (kind.signMask - 1)) :: stack }
        { machine with stack := -(value &&& (kind.signMask - 1)) :: stack } :=
      .one room running fun _ _ => rfl
    exact carries_whereSet room running (pushed.cons (masked.cons negated))

end Machine

end HexEditor
