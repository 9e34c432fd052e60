/-
The stack machine that runs struct programs. A program works on a stack of words, a
stack of texts and scratch memory; it reads the file, and shows rows on a panel. A
run ends at a stop, at the end of the program, when the panel is full, at a failure,
or when its steps are used up. What a failed instruction has already taken off a
stack stays off, so that a run that fails still ends in a definite state.
-/

import HexEditor.Panel
import HexEditor.Program.Cells
import HexEditor.Program.Instruction
import HexEditor.Storage.Reader

namespace HexEditor

/-- Why a run failed. -/
inductive RunFailure where
  /-- There is no instruction where one was expected. -/
  | fetch (failure : FetchFailure)
  /-- A word was needed and there was none. -/
  | noWord
  /-- A text was needed and there was none. -/
  | noText
  | base (failure : UnusableBase)
  | cell (failure : CellFailure)
  | text (failure : ByteReader.TextFailure)
  | storage (failure : StorageFailure)
  /-- The program gave up; its stack was as given, top first. -/
  | panic (stack : List UInt64)
  | stepLimit (limit : Int)
  deriving DecidableEq, Repr

def RunFailure.message : RunFailure → String
  | .fetch failure => failure.message
  | .noWord => "Stack ran out"
  | .noText => "String stack ran out"
  | .base failure => failure.message
  | .cell failure => failure.message
  | .text failure => failure.message
  | .storage failure => failure.message
  | .panic stack => "Stack:" ++ String.join (stack.map fun value => " " ++ hexText value.toNat)
  | .stepLimit limit => "Step limit of " ++ decimalText limit ++ " exceeded"

/-- The state of a run. Both stacks are kept top first. -/
structure Machine where
  counter : Nat := 0
  order : ByteOrder := .little
  stack : List UInt64 := []
  texts : List String := []
  cells : Cells := { capacity := 16 }
  panel : Panel
  halted : Bool := false

/-- What a run is given: its program, the bytes to read, and the cursor. -/
structure RunSetting where
  code : Array UInt8
  reader : ByteReader
  cursor : Int

/-- A part of a run, which changes the machine and may fail. -/
abbrev Execution := EStateM RunFailure Machine

namespace Machine

/-! ### Stacks -/

def pop : Execution UInt64 := fun machine =>
  match machine.stack with
  | [] => .error .noWord machine
  | value :: rest => .ok value { machine with stack := rest }

def push (value : UInt64) : Execution Unit := fun machine =>
  .ok () { machine with stack := value :: machine.stack }

def popText : Execution String := fun machine =>
  match machine.texts with
  | [] => .error .noText machine
  | text :: rest => .ok text { machine with texts := rest }

def pushText (text : String) : Execution Unit := fun machine =>
  .ok () { machine with texts := text :: machine.texts }

/-- Goes on with a value, unless there is none. -/
def orFail {Failure Value : Type} (cause : Failure → RunFailure) :
    Except Failure Value → Execution Value
  | .ok value => pure value
  | .error failure => throw (cause failure)

/-! ### Cells and the panel -/

def storeCell (index value : UInt64) : Execution Unit
  | ⟨counter, order, stack, texts, cells, panel, halted⟩ =>
    match cells.store index.toNat value.toNat with
    | (.ok _, cells) => .ok () ⟨counter, order, stack, texts, cells, panel, halted⟩
    | (.error failure, cells) =>
      .error (.cell failure) ⟨counter, order, stack, texts, cells, panel, halted⟩

/-- Writes on the panel, halts the machine if there was no room, and tells whether there was. -/
def write (rows : Panel → Bool × Panel) : Execution Bool := fun machine =>
  let (fitted, panel) := rows machine.panel
  .ok fitted { machine with panel, halted := !fitted }

/-- Goes to a position unless the condition of a jump is not met. -/
def jumpIf (taken : Bool) (target : Nat) : Execution Unit := fun machine =>
  .ok () (if taken then { machine with counter := target } else machine)

/-- Whether a jump is taken, which takes the word that decides it off the stack. -/
def decides : JumpCondition → Execution Bool
  | .always => pure true
  | .zero => do return (← pop) == 0
  | .nonzero => do return (← pop) != 0
  | .nonnegative => do return (← pop) &&& signBit == 0

/-! ### Instructions -/

/-- Runs an instruction that was found at a position. -/
def execute (setting : RunSetting) (start : Nat) : Instruction → Execution Unit
  | .stop => modify fun machine => { machine with halted := true }
  | .setOrder order => modify fun machine => { machine with order }
  | .pushInteger value => push value
  | .pushText text => pushText text
  | .pushCursor => push (word setting.cursor)
  | .loadInteger width signed => do
    let offset ← pop
    let bytes ← orFail .storage (setting.reader.read offset.toNat width.bytes)
    push (decodeInteger (← get).order signed bytes)
  | .loadText asciiOnly sized => do
    let count ← if sized then some <$> pop else pure none
    let offset ← pop
    let count := count.map UInt64.toNat
    pushText (← orFail .text (setting.reader.text asciiOnly count offset.toNat))
  | .loadCell => do
    let index ← pop
    push (← orFail .cell ((← get).cells.load index.toNat))
  | .storeCell => do
    let index ← pop
    let value ← pop
    storeCell index value
  | .showInteger form base => do
    let name ← popText
    let value ← pop
    let _origin ← pop
    if 0x01 < form then
      throw (.fetch (.unknownForm 0x28 form))
    match Radix.ofInt? base.toNat with
    | none => throw (.base ⟨base.toNat⟩)
    | some radix =>
      let _ ← write fun panel => panel.value name (radix.display (form == 0x01) value)
  | .showText form => do
    let name ← popText
    let text ← popText
    let _origin ← pop
    if form ≠ 0x00 then
      throw (.fetch (.unknownForm 0x2A form))
    let _ ← write fun panel => panel.value name text
  | .showHeader level => do
    let title ← popText
    let fitted ← write fun panel => panel.header title level.toNat
    if fitted then push 1
  | .swap => do
    let first ← pop
    let second ← pop
    push first
    push second
  | .duplicate => do
    let value ← pop
    push value
    push value
  | .drop => do
    let _ ← pop
  | .negate => do
    push (-(← pop))
  | .add => do
    let first ← pop
    let second ← pop
    push (first + second)
  | .and => do
    let first ← pop
    let second ← pop
    push (first &&& second)
  | .jump condition distance => do
    let taken ← decides condition
    jumpIf taken (word (start + distance.toNat)).toNat
  | .panic => fun machine =>
    .error (.panic machine.stack) { machine with stack := [] }

def step (setting : RunSetting) : Execution Unit := fun machine =>
  let start := machine.counter
  let fetched := fetch setting.code start
  match fetched.result with
  | .ok instruction => execute setting start instruction { machine with counter := fetched.next }
  | .error failure => .error (.fetch failure) { machine with counter := fetched.next }

def isDone (setting : RunSetting) (machine : Machine) : Bool :=
  machine.halted || setting.code.size ≤ machine.counter

/-- Runs at most as many steps as given; `limit` is the number to name if they are used up. -/
def runSteps (setting : RunSetting) (limit : Int) : Nat → Execution Unit
  | 0, machine =>
    if machine.isDone setting then .ok () machine else .error (.stepLimit limit) machine
  | steps + 1, machine =>
    if machine.isDone setting then
      .ok () machine
    else
      match step setting machine with
      | .ok _ machine => runSteps setting limit steps machine
      | .error failure machine => .error failure machine

/-- Runs a program from its start with room for some rows. -/
def run (setting : RunSetting) (rows limit : Int) : EStateM.Result RunFailure Machine Unit :=
  runSteps setting limit limit.toNat { panel := .ofRows rows }

end Machine

/-- The number of steps a program is given on every refresh. -/
def defaultStepLimit : Nat := 1000000

def runProgram (setting : RunSetting) (rows : Int) : Except RunFailure (List PanelRow) :=
  match Machine.run setting rows defaultStepLimit with
  | .ok _ machine => .ok machine.panel.rows.toList
  | .error failure _ => .error failure

end HexEditor
