/-
How programs and layouts use the panel. They write values and headers on it and never look
at it; each entry tells whether it fitted, and the first one that does not is the last: the
machine halts there, and a walk through a layout goes no further. Whatever is said of the
rows that are shown, of how many there are and of how they stand, follows from this account
and from what a single entry does.
-/

import HexEditor.Layout.Decoding
import HexEditor.Program.Machine
import HexEditor.Proofs.Panel.Room

namespace HexEditor

/-- Something that is shown at once: a value, or a header. -/
inductive Panel.Entry where
  | value (name text : String)
  | header (title : String) (level : Int)

/-- Writes an entry, and tells whether it fitted. -/
def Panel.Entry.write : Entry → Panel → Bool × Panel
  | .value name text => fun panel => panel.value name text
  | .header title level => fun panel => panel.header title level

namespace Action

open HasPanel

/-- Actions that have nothing to do with the panel but to write entries on it, and that stop at the
first entry that does not fit. -/
inductive Shows {Failure State : Type} [HasPanel State] : {Value : Type} →
    (Value → State → Prop) → EStateM Failure State Value → Prop where
  | spares {Value : Type} {stops : Value → State → Prop} {action : EStateM Failure State Value}
      (spares : SparesPanel action) : Shows stops action
  /-- An entry is written; besides, the state may be marked with whether it fitted. -/
  | write {stops : Bool → State → Prop} {write : EStateM Failure State Bool}
      (entry : Panel.Entry) (mark : Bool → State → State)
      (beside : ∀ fitted state other,
        mark fitted (withPanel state other) = withPanel (mark fitted state) other)
      (written : ∀ state, write state =
        .ok (entry.write (panel state)).1
          (mark (entry.write (panel state)).1 (withPanel state (entry.write (panel state)).2)))
      (stopped : ∀ before, stops false (mark false before)) : Shows stops write
  /-- What follows a look at the state may look at everything but the panel. -/
  | look {Value : Type} {stops : Value → State → Prop}
      {next : State → EStateM Failure State Value}
      (same : ∀ state other, next (withPanel state other) = next state)
      (shows : ∀ state, Shows stops (next state)) :
      Shows stops ((get : EStateM Failure State State) >>= next)
  /-- Where the first action stops, the second one does nothing but stop as well. -/
  | bind {Value Other : Type} {stops : Value → State → Prop} {stopsBehind : Other → State → Prop}
      {action : EStateM Failure State Value} {next : Value → EStateM Failure State Other}
      (first : Shows stops action) (second : ∀ value, Shows stopsBehind (next value))
      (stopping : ∀ value state, stops value state → ∃ last after,
        next value state = .ok last after ∧ stopsBehind last after ∧ panel after = panel state) :
      Shows stopsBehind (action >>= next)

section Spared

variable {Failure State Value Other : Type} [HasPanel State]
  {action : EStateM Failure State Value} {next : Value → EStateM Failure State Other}
  {stops : Value → State → Prop} {stopsBehind : Other → State → Prop}

theorem SparesPanel.shows (spares : SparesPanel action) : Shows stops action := .spares spares

/-- Behind an action that has nothing to do with the panel another one shows what it shows. -/
theorem SparesPanel.shows_bind (first : SparesPanel action)
    (second : ∀ value, Shows stopsBehind (next value)) : Shows stopsBehind (action >>= next) :=
  have never : Shows (fun _ _ => False) action := first.shows
  never.bind second fun _ _ stopped => stopped.elim

end Spared

end Action

open HexEditor.Action

/-! ### Programs -/

/-- Whether an instruction is there to show something. -/
def Instruction.shows : Instruction → Bool
  | .showInteger _ _ => true
  | .showText _ => true
  | .showHeader _ => true
  | _ => false

instance : HasPanel Machine where
  panel := Machine.panel
  withPanel machine panel := { machine with panel }
  panel_withPanel _ _ := rfl
  withPanel_withPanel _ _ _ := rfl
  withPanel_panel _ := rfl

namespace Machine

theorem sparesPanel_pop : SparesPanel pop := by
  rintro ⟨counter, order, stack, texts, cells, panel, halted⟩ other
  cases stack <;> rfl

theorem sparesPanel_push (value : UInt64) : SparesPanel (push value) :=
  fun _ _ => rfl

theorem sparesPanel_popText : SparesPanel popText := by
  rintro ⟨counter, order, stack, texts, cells, panel, halted⟩ other
  cases texts <;> rfl

theorem sparesPanel_pushText (text : String) : SparesPanel (pushText text) :=
  fun _ _ => rfl

theorem sparesPanel_orFail {Failure Value : Type} (cause : Failure → RunFailure)
    (result : Except Failure Value) : SparesPanel (orFail cause result) := by
  cases result with
  | ok value => exact sparesPanel_pure value
  | error failure => exact sparesPanel_throw _

theorem sparesPanel_storeCell (index value : UInt64) : SparesPanel (storeCell index value) := by
  rintro ⟨counter, order, stack, texts, cells, panel, halted⟩ other
  show storeCell index value ⟨counter, order, stack, texts, cells, other, halted⟩ = _
  dsimp only [storeCell]
  rcases cells.store index.toNat value.toNat with ⟨_ | _, _⟩ <;> rfl

theorem sparesPanel_jumpIf (taken : Bool) (target : Nat) : SparesPanel (jumpIf taken target) := by
  cases taken <;> exact fun _ _ => rfl

theorem sparesPanel_decides (condition : JumpCondition) : SparesPanel (decides condition) := by
  cases condition with
  | always => exact sparesPanel_pure true
  | zero => exact sparesPanel_pop.bind fun _ => sparesPanel_pure _
  | nonzero => exact sparesPanel_pop.bind fun _ => sparesPanel_pure _
  | nonnegative => exact sparesPanel_pop.bind fun _ => sparesPanel_pure _

/-- An instruction that shows nothing has nothing to do with the panel. -/
theorem sparesPanel_execute (setting : RunSetting) (start : Nat) {instruction : Instruction}
    (silent : instruction.shows = false) :
    SparesPanel (execute setting start instruction) := by
  cases instruction with
  | stop => exact fun _ _ => rfl
  | setOrder order => exact fun _ _ => rfl
  | pushInteger value => exact sparesPanel_push value
  | pushText constant => exact sparesPanel_pushText constant
  | pushCursor => exact sparesPanel_push _
  | loadInteger width signed =>
    refine sparesPanel_pop.bind fun offset => ?_
    refine (sparesPanel_orFail _ _).bind fun bytes => ?_
    exact sparesPanel_get_bind (fun _ _ => rfl) fun machine => sparesPanel_push _
  | loadText asciiOnly sized =>
    have behind (count : Option UInt64) : SparesPanel (do
        let offset ← pop
        let count := count.map UInt64.toNat
        pushText (← orFail .text (setting.reader.text asciiOnly count offset.toNat))) := by
      refine sparesPanel_pop.bind fun offset => ?_
      exact (sparesPanel_orFail _ _).bind fun read => sparesPanel_pushText read
    cases sized with
    | true =>
      have counted : SparesPanel (some <$> pop) := by
        rw [map_eq_pure_bind]
        exact sparesPanel_pop.bind fun count => sparesPanel_pure _
      exact counted.bind behind
    | false => exact behind none
  | loadCell =>
    refine sparesPanel_pop.bind fun index => ?_
    refine sparesPanel_get_bind (fun _ _ => rfl) fun machine => ?_
    exact (sparesPanel_orFail _ _).bind fun value => sparesPanel_push value
  | storeCell =>
    refine sparesPanel_pop.bind fun index => ?_
    exact sparesPanel_pop.bind fun value => sparesPanel_storeCell index value
  | showInteger form base => cases silent
  | showText form => cases silent
  | showHeader level => cases silent
  | swap =>
    refine sparesPanel_pop.bind fun first => ?_
    refine sparesPanel_pop.bind fun second => ?_
    exact (sparesPanel_push first).bind fun _ => sparesPanel_push second
  | duplicate =>
    refine sparesPanel_pop.bind fun value => ?_
    exact (sparesPanel_push value).bind fun _ => sparesPanel_push value
  | drop => exact sparesPanel_pop.bind fun _ => sparesPanel_pure _
  | negate => exact sparesPanel_pop.bind fun value => sparesPanel_push _
  | add =>
    refine sparesPanel_pop.bind fun first => ?_
    exact sparesPanel_pop.bind fun second => sparesPanel_push _
  | and =>
    refine sparesPanel_pop.bind fun first => ?_
    exact sparesPanel_pop.bind fun second => sparesPanel_push _
  | jump condition distance =>
    exact (sparesPanel_decides condition).bind fun taken => sparesPanel_jumpIf taken _
  | panic => exact fun _ _ => rfl

/-- The machine has halted, as it does where rows do not fit. -/
def Halted (_done : Unit) (machine : Machine) : Prop := machine.halted = true

/-- The machine stops where an entry does not fit, whatever it does where one fits. -/
theorem shows_entry (entry : Panel.Entry) {next : Bool → Execution Unit}
    (spares : ∀ fitted, SparesPanel (next fitted)) (idle : next false = pure ()) :
    Shows Halted (write entry.write >>= next) := by
  have written : Shows (fun fitted machine => fitted = false ∧ machine.halted = true)
      (write entry.write) :=
    .write entry (fun fitted machine => { machine with halted := !fitted }) (fun _ _ _ => rfl)
      (fun _ => rfl) fun _ => ⟨rfl, rfl⟩
  refine written.bind (fun fitted => (spares fitted).shows) ?_
  rintro fitted machine ⟨rfl, halted⟩
  rw [idle]
  exact ⟨(), machine, rfl, halted, rfl⟩

/-- An instruction stops where it shows something that does not fit. -/
theorem shows_execute (setting : RunSetting) (start : Nat) (instruction : Instruction) :
    Shows Halted (execute setting start instruction) := by
  cases instruction with
  | showInteger form base =>
    refine sparesPanel_popText.shows_bind fun name => ?_
    refine sparesPanel_pop.shows_bind fun value => ?_
    refine sparesPanel_pop.shows_bind fun origin => ?_
    by_cases unknown : 0x01 < form
    · rw [if_pos unknown]
      exact SparesPanel.shows (fun _ _ => rfl)
    rw [if_neg unknown]
    cases Radix.ofInt? base.toNat with
    | none => exact (sparesPanel_throw _).shows
    | some radix =>
      exact shows_entry (.value _ _) (fun _ => sparesPanel_pure ()) rfl
  | showText form =>
    refine sparesPanel_popText.shows_bind fun name => ?_
    refine sparesPanel_popText.shows_bind fun text => ?_
    refine sparesPanel_pop.shows_bind fun origin => ?_
    by_cases unknown : form ≠ 0x00
    · rw [if_pos unknown]
      exact SparesPanel.shows (fun _ _ => rfl)
    · rw [if_neg unknown]
      exact shows_entry (.value _ _) (fun _ => sparesPanel_pure ()) rfl
  | showHeader level =>
    refine sparesPanel_popText.shows_bind fun title => ?_
    refine shows_entry (.header _ _) (fun fitted => ?_) rfl
    cases fitted with
    | true => exact sparesPanel_push 1
    | false => exact sparesPanel_pure ()
  | _ => exact (sparesPanel_execute setting start rfl).shows

/-- A step stops where it shows something that does not fit. -/
theorem shows_step (setting : RunSetting) : Shows Halted (step setting) := by
  have same : step setting = (do
      let machine ← get
      let fetched := fetch setting.code machine.counter
      modify fun machine => { machine with counter := fetched.next }
      let instruction ← orFail .fetch fetched.result
      execute setting machine.counter instruction) := by
    funext machine
    rw [bind_get]
    cases fetched : (fetch setting.code machine.counter).result <;>
      simp only [step, fetched] <;> rfl
  rw [same]
  refine Shows.look (fun _ _ => rfl) fun machine => ?_
  have counted : SparesPanel (modify fun other : Machine =>
      { other with counter := (fetch setting.code machine.counter).next } : Execution PUnit) :=
    fun _ _ => rfl
  refine counted.shows_bind fun _ => ?_
  refine (sparesPanel_orFail _ _).shows_bind fun instruction => ?_
  exact shows_execute setting machine.counter instruction

/-- A run stops at the first step that shows something that does not fit. -/
theorem shows_runSteps (setting : RunSetting) (limit : Int) (steps : Nat) :
    Shows Halted (runSteps setting limit steps) := by
  induction steps with
  | zero =>
    refine SparesPanel.shows fun machine other => ?_
    have same : ({ machine with panel := other } : Machine).isDone setting =
        machine.isDone setting := rfl
    show runSteps setting limit 0 { machine with panel := other } = _
    rw [runSteps, runSteps, same]
    split <;> rfl
  | succ steps inductionHypothesis =>
    have same : runSteps setting limit (steps + 1) = (do
        if (← get).isDone setting then pure ()
        else
          step setting
          runSteps setting limit steps) := by
      funext machine
      rw [bind_get, runSteps]
      split
      · rfl
      · cases stepped : step setting machine with
        | ok done next => rw [bind_of_ok stepped]
        | error failure next => rw [bind_of_error stepped]
    rw [same]
    refine Shows.look (fun _ _ => rfl) fun machine => ?_
    split
    · exact (sparesPanel_pure ()).shows
    · refine (shows_step setting).bind (fun _ => inductionHypothesis) fun _ last halted => ?_
      -- a machine that has halted is done, so the rest of the run does nothing
      have done : last.isDone setting = true := by
        rw [isDone, halted, Bool.true_or]
      refine ⟨(), last, ?_, halted, rfl⟩
      cases steps <;> rw [runSteps, if_pos done]

end Machine

/-! ### Layouts -/

instance : HasPanel DecodingProgress where
  panel := DecodingProgress.panel
  withPanel progress panel := { progress with panel }
  panel_withPanel _ _ := rfl
  withPanel_withPanel _ _ _ := rfl
  withPanel_panel _ := rfl

namespace Decoding

theorem sparesPanel_orFail {Failure Value : Type} (cause : Failure → ByteReader.TextFailure)
    (result : Except Failure Value) : SparesPanel (orFail cause result) := by
  cases result with
  | ok value => exact sparesPanel_pure value
  | error failure => exact sparesPanel_throw _

theorem sparesPanel_remember (path : List String) (value : DecodedValue) :
    SparesPanel (remember path value) :=
  fun _ _ => rfl

/-- There was no room for everything. -/
def Missed (fitted : Bool) (_progress : DecodingProgress) : Prop := fitted = false

theorem shows_write (entry : Panel.Entry) : Shows Missed (write entry.write) :=
  .write entry (fun _ progress => progress) (fun _ _ _ => rfl) (fun _ => rfl) fun _ => rfl

/-- A walk that goes on only as long as there is room stops where there is none. -/
theorem shows_goOn {first rest : Decoding Bool} (before : Shows Missed first)
    (behind : Shows Missed rest) :
    Shows Missed (do if ← first then rest else return false) := by
  refine before.bind (fun fitted => ?_) ?_
  · cases fitted with
    | true => exact behind
    | false => exact (sparesPanel_pure false).shows
  · rintro fitted progress rfl
    exact ⟨false, progress, rfl, rfl, rfl⟩

theorem shows_decodeValue (reader : ByteReader) (cursor : Int) (path : List String)
    (name : String) (anchor : Anchor) (kind : ValueKind) :
    Shows Missed (decodeValue reader cursor path name anchor kind) := by
  cases kind with
  | integer kind =>
    refine (sparesPanel_orFail _ _).shows_bind fun bytes => ?_
    refine (sparesPanel_remember _ _).shows_bind fun _ => ?_
    exact shows_write (.value _ _)
  | text asciiOnly length =>
    refine (sparesPanel_orFail _ _).shows_bind fun text => ?_
    refine (sparesPanel_remember _ _).shows_bind fun _ => ?_
    exact shows_write (.value _ _)

mutual

/-- A walk through a layout stops where there is no room. -/
theorem shows_walk (reader : ByteReader) (cursor : Int) (depth : Nat) (path : List String) :
    (node : Node) → Shows Missed (walk reader cursor depth path node)
  | .folder name children => by
    rw [walk]
    exact shows_goOn (shows_write (.header _ _))
      (shows_walkAll reader cursor (depth + 1) (path ++ [name]) children)
  | .value name anchor kind => by
    rw [walk]
    exact shows_decodeValue reader cursor path name anchor kind

theorem shows_walkAll (reader : ByteReader) (cursor : Int) (depth : Nat) (path : List String) :
    (nodes : List Node) → Shows Missed (walkAll reader cursor depth path nodes)
  | [] => by
    rw [walkAll]
    exact (sparesPanel_pure true).shows
  | node :: rest => by
    rw [walkAll]
    exact shows_goOn (shows_walk reader cursor depth path node)
      (shows_walkAll reader cursor depth path rest)

end

end Decoding

end HexEditor
