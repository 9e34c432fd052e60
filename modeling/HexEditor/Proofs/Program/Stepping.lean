/-
Runs of programs, piece by piece. A piece of a program carries a machine from one state
to another wherever it stands, and pieces that stand one behind the other carry it on.
A run with a budget of steps goes through every state that is reached within it, so what
a run comes to is told by the state that its program carries the machine to.
-/

import HexEditor.Program.Machine
import HexEditor.Proofs.Program.Encoding

namespace HexEditor

namespace Machine

variable {setting : RunSetting} {machine : Machine}

/-! ### Steps -/

/-- Where an instruction stands, the machine is not done, and a step executes it. -/
theorem step_of_stands (room : setting.code.size ≤ wordLimit) (machine : Machine)
    {instruction : Instruction}
    (stands : Stands setting.code machine.counter instruction.encode) :
    step setting machine = execute setting machine.counter instruction
      { machine with counter := machine.counter + instruction.encode.length } := by
  simp only [step, fetch_eq_of_stands stands room]

theorem isDone_of_stands {byte : UInt8} {rest : List UInt8} (running : machine.halted = false)
    (stands : Stands setting.code machine.counter (byte :: rest)) :
    machine.isDone setting = false := by
  have inside : machine.counter < setting.code.size :=
    Nat.lt_of_lt_of_le (Nat.lt_add_of_pos_right (Nat.succ_pos _)) (stands.le_size (Nat.succ_pos _))
  rw [isDone, running, Bool.false_or, decide_eq_false_iff_not]
  exact Nat.not_le.2 inside

/-- A machine reaches another one in at most some steps, all of which succeed. -/
inductive Reaches (setting : RunSetting) : Nat → Machine → Machine → Prop where
  | here (steps : Nat) (machine : Machine) : Reaches setting steps machine machine
  | step {steps : Nat} {first next last : Machine} (running : first.isDone setting = false)
      (stepped : Machine.step setting first = .ok () next)
      (reaches : Reaches setting steps next last) : Reaches setting (steps + 1) first last

namespace Reaches

variable {steps more : Nat} {first middle last : Machine}

theorem mono (reaches : Reaches setting steps first last) (le : steps ≤ more) :
    Reaches setting more first last := by
  induction reaches generalizing more with
  | here => exact .here more _
  | step running stepped _ inductionHypothesis =>
    cases more with
    | zero => exact absurd le (Nat.not_succ_le_zero _)
    | succ more => exact .step running stepped (inductionHypothesis (Nat.le_of_succ_le_succ le))

theorem trans (reaches : Reaches setting steps first middle)
    (onward : Reaches setting more middle last) : Reaches setting (steps + more) first last := by
  induction reaches with
  | here => exact onward.mono (Nat.le_add_left _ _)
  | step running stepped _ inductionHypothesis =>
    rw [Nat.add_right_comm]
    exact .step running stepped (inductionHypothesis onward)

/-- A run goes through every state that is reached, unless its budget is used up before. -/
theorem runSteps_eq (reaches : Reaches setting steps first last) (limit : Int) (budget : Nat) :
    (∃ rest, budget ≤ rest + steps ∧
        runSteps setting limit budget first = runSteps setting limit rest last) ∨
      ∃ stuck, budget < steps ∧
        runSteps setting limit budget first = .error (.stepLimit limit) stuck := by
  induction reaches generalizing budget with
  | here => exact .inl ⟨budget, Nat.le_add_right _ _, rfl⟩
  | @step steps first next last running stepped _ inductionHypothesis =>
    cases budget with
    | zero =>
      refine .inr ⟨first, Nat.succ_pos _, ?_⟩
      rw [runSteps, running]
      rfl
    | succ budget =>
      have onward :
          runSteps setting limit (budget + 1) first = runSteps setting limit budget next := by
        rw [runSteps, running, stepped]
        rfl
      rcases inductionHypothesis budget with ⟨rest, enough, same⟩ | ⟨stuck, short, same⟩
      · exact .inl ⟨rest, Nat.succ_le_succ enough, onward.trans same⟩
      · exact .inr ⟨stuck, Nat.succ_lt_succ short, onward.trans same⟩

/-- A run that reaches a halted machine ends there, unless its budget is used up before. -/
theorem runSteps_of_halted (reaches : Reaches setting steps first last)
    (halted : last.halted = true) (limit : Int) (budget : Nat) :
    runSteps setting limit budget first = .ok () last ∨
      ∃ stuck, budget < steps ∧
        runSteps setting limit budget first = .error (.stepLimit limit) stuck := by
  rcases reaches.runSteps_eq limit budget with ⟨rest, _, same⟩ | short
  · have done : last.isDone setting = true := by rw [isDone, halted, Bool.true_or]
    refine .inl (same.trans ?_)
    cases rest with
    | zero => rw [runSteps, if_pos done]
    | succ rest => rw [runSteps, if_pos done]
  · exact .inr short

/-- A run that reaches a machine whose step fails fails there, unless its budget is used up
before. -/
theorem runSteps_of_error {left : Machine} {cause : RunFailure}
    (reaches : Reaches setting steps first last) (going : last.isDone setting = false)
    (failed : Machine.step setting last = .error cause left) (limit : Int) (budget : Nat) :
    runSteps setting limit budget first = .error cause left ∨
      ∃ stuck, budget < steps + 1 ∧
        runSteps setting limit budget first = .error (.stepLimit limit) stuck := by
  rcases reaches.runSteps_eq limit budget with ⟨rest, enough, same⟩ | ⟨stuck, short, same⟩
  · cases rest with
    | zero =>
      refine .inr ⟨last, by omega, same.trans ?_⟩
      rw [runSteps, going]
      rfl
    | succ rest =>
      refine .inl (same.trans ?_)
      rw [runSteps, going, failed]
      rfl
  · exact .inr ⟨stuck, Nat.lt_succ_of_lt short, same⟩

end Reaches

/-! ### Pieces of programs -/

/-- Wherever a piece of a program stands, it carries a machine that begins it to another one, which
is behind it. -/
def Carries (setting : RunSetting) (code : List Instruction) (before after : Machine) : Prop :=
  ∀ position, Stands setting.code position (encodeAll code) →
    Reaches setting code.length { before with counter := position }
      { after with counter := position + (encodeAll code).length }

theorem encodeAll_append (first second : List Instruction) :
    encodeAll (first ++ second) = encodeAll first ++ encodeAll second :=
  List.flatMap_append

theorem encodeAll_singleton (instruction : Instruction) :
    encodeAll [instruction] = instruction.encode :=
  List.append_nil _

namespace Carries

variable {before middle after : Machine}

theorem nil (setting : RunSetting) (machine : Machine) : Carries setting [] machine machine :=
  fun _ _ => .here _ _

/-- An instruction that succeeds and does not jump carries the machine on. -/
theorem one (room : setting.code.size ≤ wordLimit) {instruction : Instruction}
    (running : before.halted = false)
    (executed : ∀ start counter, execute setting start instruction { before with counter } =
      .ok () { after with counter }) :
    Carries setting [instruction] before after := by
  intro position stands
  rw [encodeAll_singleton] at stands ⊢
  have going : ({ before with counter := position } : Machine).isDone setting = false :=
    isDone_of_stands running stands
  refine .step going ?_ (.here 0 _)
  rw [step_of_stands room _ stands]
  exact executed position _

/-- Pieces that stand one behind the other carry the machine on. -/
theorem append {first second : List Instruction} (carries : Carries setting first before middle)
    (onward : Carries setting second middle after) :
    Carries setting (first ++ second) before after := by
  intro position stands
  rw [encodeAll_append] at stands ⊢
  obtain ⟨here, behind⟩ := ByteSupply.supplies_append stands
  rw [List.length_append, List.length_append, ← Nat.add_assoc]
  exact (carries position here).trans (onward _ behind)

theorem cons {instruction : Instruction} {rest : List Instruction}
    (carries : Carries setting [instruction] before middle)
    (onward : Carries setting rest middle after) :
    Carries setting (instruction :: rest) before after :=
  carries.append onward

end Carries

end Machine

end HexEditor
