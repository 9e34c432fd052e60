/-
What an instruction can do to a machine. It works on the stacks, the byte order, the
cells and the panel, and stays where it is; only a jump goes elsewhere. The cells keep
within the capacity of the memory, and the memory within its limit. And an instruction
fails only for the causes that are its own: the file for a load, the cells for an access
to them, an unusable form or base for a value on show. Everything that is said of whole
runs rests on this account of one instruction.
-/

import HexEditor.Proofs.Action
import HexEditor.Proofs.Program.Cells
import HexEditor.Proofs.Program.Stepping

namespace HexEditor

namespace Machine

variable {setting : RunSetting} {start : Machine}

/-! ### Work on the spot -/

/-- What work on the stacks, the byte order, the cells and the panel leaves of a machine. -/
structure Stays (before after : Machine) : Prop where
  counter : after.counter = before.counter
  bounded : before.cells.Bounded → after.cells.Bounded

theorem Stays.rfl {machine : Machine} : Stays machine machine := ⟨Eq.refl _, id⟩

theorem Stays.trans {first second third : Machine} (before : Stays first second)
    (behind : Stays second third) : Stays first third :=
  ⟨behind.counter.trans before.counter, behind.bounded ∘ before.bounded⟩

variable {allows : RunFailure → Prop}

theorem ends_pop (allowed : allows .noWord) : Action.Ends (Stays start) allows pop := by
  intro machine here
  dsimp only [pop]
  cases machine.stack with
  | nil => exact ⟨here, allowed⟩
  | cons value rest => exact here.trans ⟨rfl, id⟩

theorem ends_push (value : UInt64) : Action.Ends (Stays start) allows (push value) :=
  fun _ here => here.trans ⟨rfl, id⟩

theorem ends_popText (allowed : allows .noText) : Action.Ends (Stays start) allows popText := by
  intro machine here
  dsimp only [popText]
  cases machine.texts with
  | nil => exact ⟨here, allowed⟩
  | cons text rest => exact here.trans ⟨rfl, id⟩

theorem ends_pushText (text : String) : Action.Ends (Stays start) allows (pushText text) :=
  fun _ here => here.trans ⟨rfl, id⟩

theorem ends_orFail {Failure Value : Type} {cause : Failure → RunFailure}
    {result : Except Failure Value}
    (allowed : ∀ failure, result = .error failure → allows (cause failure)) :
    Action.Ends (Stays start) allows (orFail cause result) := by
  cases result with
  | ok value => exact Action.ends_pure value
  | error failure => exact Action.ends_throw (allowed failure rfl)

theorem ends_write (rows : Panel → Bool × Panel) :
    Action.Ends (Stays start) allows (write rows) :=
  fun _ here => here.trans ⟨rfl, id⟩

theorem ends_storeCell {index value : UInt64}
    (allowed : allows (.cell (.outOfRange index.toNat))) :
    Action.Ends (Stays start) allows (storeCell index value) := by
  intro machine here
  obtain ⟨counter, order, stack, texts, cells, panel, halted⟩ := machine
  dsimp only [storeCell]
  rcases cells.store_cases index.toNat value with ⟨capacity, -, stored⟩ | refused
  · rw [stored]
    refine here.trans ⟨rfl, fun bounded => ?_⟩
    have kept := bounded.store index.toNat value.toNat
    rwa [stored] at kept
  · rw [refused]
    exact ⟨here, allowed⟩

theorem ends_decides (condition : JumpCondition) (allowed : allows .noWord) :
    Action.Ends (Stays start) allows (decides condition) := by
  cases condition with
  | always => exact Action.ends_pure true
  | zero => exact Action.ends_bind (ends_pop allowed) fun _ => Action.ends_pure _
  | nonzero => exact Action.ends_bind (ends_pop allowed) fun _ => Action.ends_pure _
  | nonnegative => exact Action.ends_bind (ends_pop allowed) fun _ => Action.ends_pure _

/-! ### Instructions -/

/-- The failures that an instruction can end with. -/
inductive Arises (setting : RunSetting) : Instruction → RunFailure → Prop where
  | noWord (instruction : Instruction) : Arises setting instruction .noWord
  | noText (instruction : Instruction) : Arises setting instruction .noText
  | notRead {width : LoadWidth} {signed : Bool} {offset : UInt64} {cause : StorageFailure}
      (refused : setting.reader.read offset.toNat width.bytes = .error cause) :
      Arises setting (.loadInteger width signed) (.storage cause)
  | noTextThere {asciiOnly sized : Bool} {count : Option Nat} {offset : UInt64}
      {cause : ByteReader.TextFailure}
      (refused : setting.reader.text asciiOnly count offset.toNat = .error cause) :
      Arises setting (.loadText asciiOnly sized) (.text cause)
  | unset (index : UInt64) : Arises setting .loadCell (.cell (.unset index.toNat))
  | outOfRange (index : UInt64) : Arises setting .storeCell (.cell (.outOfRange index.toNat))
  | integerForm {form base : UInt8} (unknown : 0x01 < form) :
      Arises setting (.showInteger form base) (.fetch (.unknownForm 0x28 form))
  | base {form base : UInt8} (unusable : Radix.ofInt? base.toNat = none) :
      Arises setting (.showInteger form base) (.base ⟨base.toNat⟩)
  | textForm {form : UInt8} (unknown : form ≠ 0x00) :
      Arises setting (.showText form) (.fetch (.unknownForm 0x2A form))
  | panic (stack : List UInt64) : Arises setting .panic (.panic stack)

/-- An instruction that does not jump works on the spot, and fails for its own causes only. -/
theorem ends_execute (position : Nat) {instruction : Instruction}
    (straight : ∀ condition distance, instruction ≠ .jump condition distance) :
    Action.Ends (Stays start) (Arises setting instruction)
      (execute setting position instruction) := by
  have word : Action.Ends (Stays start) (Arises setting instruction) pop := ends_pop (.noWord _)
  have text : Action.Ends (Stays start) (Arises setting instruction) popText :=
    ends_popText (.noText _)
  cases instruction with
  | stop => exact Action.ends_modify fun _ here => here.trans ⟨rfl, id⟩
  | setOrder order => exact Action.ends_modify fun _ here => here.trans ⟨rfl, id⟩
  | pushInteger value => exact ends_push value
  | pushText constant => exact ends_pushText constant
  | pushCursor => exact ends_push _
  | loadInteger width signed =>
    refine Action.ends_bind word fun offset => ?_
    refine Action.ends_bind (ends_orFail fun _ refused => .notRead refused) fun bytes => ?_
    exact Action.ends_get_bind fun machine => ends_push _
  | loadText asciiOnly sized =>
    have behind (count : Option UInt64) :
        Action.Ends (Stays start) (Arises setting (.loadText asciiOnly sized)) (do
          let offset ← pop
          let count := count.map UInt64.toNat
          pushText (← orFail .text (setting.reader.text asciiOnly count offset.toNat))) := by
      refine Action.ends_bind word fun offset => ?_
      refine Action.ends_bind (ends_orFail fun _ refused => .noTextThere refused) fun read => ?_
      exact ends_pushText read
    cases sized with
    | true => exact Action.ends_bind (Action.ends_map word) behind
    | false => exact behind none
  | loadCell =>
    refine Action.ends_bind word fun index => ?_
    refine Action.ends_get_bind fun machine => ?_
    refine Action.ends_bind (ends_orFail fun failure refused => ?_) fun value => ends_push value
    rcases machine.cells.load_cases index.toNat with ⟨value, loaded⟩ | missing
    · rw [loaded] at refused
      cases refused
    · rw [missing] at refused
      cases refused
      exact .unset index
  | storeCell =>
    refine Action.ends_bind word fun index => ?_
    exact Action.ends_bind word fun value => ends_storeCell (.outOfRange index)
  | showInteger form base =>
    refine Action.ends_bind text fun name => ?_
    refine Action.ends_bind word fun value => ?_
    refine Action.ends_bind word fun origin => ?_
    by_cases unknown : 0x01 < form
    · rw [if_pos unknown]
      exact Action.ends_throw_bind (.integerForm unknown)
    · rw [if_neg unknown]
      cases usable : Radix.ofInt? base.toNat with
      | none => exact Action.ends_throw (.base usable)
      | some radix => exact Action.ends_bind (ends_write _) fun _ => Action.ends_pure ()
  | showText form =>
    refine Action.ends_bind text fun name => ?_
    refine Action.ends_bind text fun shown => ?_
    refine Action.ends_bind word fun origin => ?_
    by_cases unknown : form ≠ 0x00
    · rw [if_pos unknown]
      exact Action.ends_throw_bind (.textForm unknown)
    · rw [if_neg unknown]
      exact Action.ends_bind (ends_write _) fun _ => Action.ends_pure ()
  | showHeader level =>
    refine Action.ends_bind text fun title => ?_
    refine Action.ends_bind (ends_write _) fun fitted => ?_
    cases fitted with
    | true => exact ends_push 1
    | false => exact Action.ends_pure ()
  | swap =>
    refine Action.ends_bind word fun first => ?_
    refine Action.ends_bind word fun second => ?_
    exact Action.ends_bind (ends_push first) fun _ => ends_push second
  | duplicate =>
    refine Action.ends_bind word fun value => ?_
    exact Action.ends_bind (ends_push value) fun _ => ends_push value
  | drop => exact Action.ends_bind word fun _ => Action.ends_pure ()
  | negate => exact Action.ends_bind word fun value => ends_push _
  | add =>
    refine Action.ends_bind word fun first => ?_
    exact Action.ends_bind word fun second => ends_push _
  | and =>
    refine Action.ends_bind word fun first => ?_
    exact Action.ends_bind word fun second => ends_push _
  | jump condition distance => exact absurd rfl (straight condition distance)
  | panic => exact fun machine here => ⟨here.trans ⟨rfl, id⟩, .panic machine.stack⟩

/-- A jump that is taken goes to its target, and one that is not stays. -/
theorem execute_jump (position : Nat) {condition : JumpCondition} (distance : UInt64)
    {machine after : Machine} {taken : Bool}
    (decided : decides condition machine = .ok taken after) :
    execute setting position (.jump condition distance) machine =
      .ok () (if taken then
        { after with counter := (word (position + distance.toNat)).toNat } else after) :=
  Action.bind_of_ok decided

/-! ### Steps -/

/-- The machine behind the bytes of its next instruction. -/
def behindFetch (setting : RunSetting) (machine : Machine) : Machine :=
  { machine with counter := (fetch setting.code machine.counter).next }

/-- What a step of a machine can come to. -/
inductive Stepped (setting : RunSetting) (machine : Machine) :
    EStateM.Result RunFailure Machine Unit → Prop where
  /-- There is no instruction. -/
  | unfetched {cause : FetchFailure}
      (missing : (fetch setting.code machine.counter).result = .error cause) :
      Stepped setting machine (.error (.fetch cause) (machine.behindFetch setting))
  /-- The instruction is done, and the one behind it is next. -/
  | onward {instruction : Instruction} {after : Machine}
      (fetched : (fetch setting.code machine.counter).result = .ok instruction)
      (stays : Stays (machine.behindFetch setting) after) : Stepped setting machine (.ok () after)
  /-- The instruction is a jump that is taken. -/
  | jumped {condition : JumpCondition} {distance : UInt64} {between : Machine}
      (fetched : (fetch setting.code machine.counter).result = .ok (.jump condition distance))
      (stays : Stays (machine.behindFetch setting) between) :
      Stepped setting machine
        (.ok () { between with counter := (word (machine.counter + distance.toNat)).toNat })
  /-- The instruction fails. -/
  | failed {instruction : Instruction} {failure : RunFailure} {after : Machine}
      (fetched : (fetch setting.code machine.counter).result = .ok instruction)
      (arises : Arises setting instruction failure)
      (stays : Stays (machine.behindFetch setting) after) :
      Stepped setting machine (.error failure after)

theorem stepped (setting : RunSetting) (machine : Machine) :
    Stepped setting machine (step setting machine) := by
  cases fetched : (fetch setting.code machine.counter).result with
  | error cause =>
    have stuck : step setting machine =
        .error (.fetch cause) (machine.behindFetch setting) := by
      simp only [step, fetched, behindFetch]
    rw [stuck]
    exact .unfetched fetched
  | ok instruction =>
    have same : step setting machine =
        execute setting machine.counter instruction (machine.behindFetch setting) := by
      simp only [step, fetched, behindFetch]
    rw [same]
    by_cases jumping : ∃ condition distance, instruction = .jump condition distance
    · obtain ⟨condition, distance, rfl⟩ := jumping
      have ends : Action.Ends (Stays (machine.behindFetch setting))
          (Arises setting (.jump condition distance)) (decides condition) :=
        ends_decides condition (.noWord _)
      have ended := ends _ .rfl
      cases decided : decides condition (machine.behindFetch setting) with
      | error failure after =>
        rw [decided] at ended
        rw [execute, Action.bind_of_error decided]
        exact .failed fetched ended.2 ended.1
      | ok taken after =>
        rw [decided] at ended
        rw [execute_jump machine.counter distance decided]
        cases taken with
        | false => exact .onward fetched ended
        | true => exact .jumped fetched ended
    · have ends : Action.Ends (Stays (machine.behindFetch setting)) (Arises setting instruction)
          (execute setting machine.counter instruction) :=
        ends_execute machine.counter fun condition distance same =>
          jumping ⟨condition, distance, same⟩
      have ended := ends _ .rfl
      cases ran : execute setting machine.counter instruction (machine.behindFetch setting) with
      | error failure after =>
        rw [ran] at ended
        exact .failed fetched ended.2 ended.1
      | ok value after =>
        rw [ran] at ended
        exact .onward fetched ended

end Machine

end HexEditor
