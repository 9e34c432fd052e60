/-
An assembled program runs as it was written. Every statement emits bytes of its own at an
offset of the program, and the instruction that is fetched there is the one that the
statement means. A run begins at the first of these offsets, an instruction that does not
jump ends at the next one, and a jump that is taken goes to the offset of its label, so a
run never leaves them: it meets no byte that is not the beginning of an instruction, and
no operand or text constant that is not whole.
-/

import HexEditor.Program.Assembly
import HexEditor.Proofs.Program.Endings
import Mathlib.Algebra.GroupWithZero.Nat

namespace HexEditor

/-! ### Offsets of statements -/

namespace Statement

/-- The number of bytes that a statement emits. -/
def width : Statement → Nat
  | plain instruction => instruction.encode.length
  | pushInteger _ => 9
  | loadInteger _ _ => 2
  | showInteger _ _ => 3
  | showHeader _ => 2
  | jump _ _ => 9
  | label _ => 0

/-- The number of bytes that statements emit together. -/
def widthAll (program : List Statement) : Nat := (program.map width).sum

@[simp] theorem widthAll_nil : widthAll [] = 0 := rfl

@[simp] theorem widthAll_cons (statement : Statement) (rest : List Statement) :
    widthAll (statement :: rest) = statement.width + widthAll rest := by
  simp [widthAll]

@[simp] theorem widthAll_append (first second : List Statement) :
    widthAll (first ++ second) = widthAll first + widthAll second := by
  simp [widthAll]

/-- A statement of a program, with the number of bytes that the statements before it emit. -/
def IsAt (program : List Statement) (offset : Nat) (statement : Statement) : Prop :=
  ∃ before after, program = before ++ statement :: after ∧ offset = widthAll before

/-- The number of bytes that some first statements of a program emit. -/
def Boundary (program : List Statement) (offset : Nat) : Prop :=
  ∃ before after, program = before ++ after ∧ offset = widthAll before

variable {program rest : List Statement} {statement other : Statement} {offset : Nat}

theorem not_isAt_nil : ¬ IsAt [] offset statement := by
  rintro ⟨before, after, parts, -⟩
  simp at parts

theorem isAt_cons :
    IsAt (other :: rest) offset statement ↔
      other = statement ∧ offset = 0 ∨
        ∃ behind, IsAt rest behind statement ∧ offset = other.width + behind := by
  constructor
  · rintro ⟨before, after, parts, rfl⟩
    cases before with
    | nil =>
      obtain ⟨same, -⟩ := List.cons.inj parts
      exact .inl ⟨same, rfl⟩
    | cons first before =>
      obtain ⟨rfl, behind⟩ := List.cons.inj parts
      exact .inr ⟨widthAll before, ⟨before, after, behind, rfl⟩, widthAll_cons _ _⟩
  · rintro (⟨rfl, rfl⟩ | ⟨behind, ⟨before, after, rfl, rfl⟩, rfl⟩)
    · exact ⟨[], rest, rfl, rfl⟩
    · exact ⟨other :: before, after, List.cons_append.symm, (widthAll_cons _ _).symm⟩

/-- An offset of a statement, counted from the position of the first one. -/
theorem exists_isAt_cons {position target : Nat} :
    (∃ offset, IsAt (other :: rest) offset statement ∧ target = position + offset) ↔
      other = statement ∧ target = position ∨
        ∃ offset, IsAt rest offset statement ∧ target = position + other.width + offset := by
  simp only [isAt_cons]
  constructor
  · rintro ⟨offset, ⟨same, rfl⟩ | ⟨behind, isAt, rfl⟩, rfl⟩
    · exact .inl ⟨same, rfl⟩
    · exact .inr ⟨behind, isAt, (Nat.add_assoc _ _ _).symm⟩
  · rintro (⟨same, rfl⟩ | ⟨behind, isAt, rfl⟩)
    · exact ⟨0, .inl ⟨same, rfl⟩, rfl⟩
    · exact ⟨_, .inr ⟨behind, isAt, rfl⟩, Nat.add_assoc _ _ _⟩

theorem boundary_zero (program : List Statement) : Boundary program 0 := ⟨[], program, rfl, rfl⟩

theorem IsAt.mem (isAt : IsAt program offset statement) : statement ∈ program := by
  obtain ⟨before, after, rfl, -⟩ := isAt
  simp

theorem IsAt.boundary (isAt : IsAt program offset statement) : Boundary program offset := by
  obtain ⟨before, after, parts, same⟩ := isAt
  exact ⟨before, _, parts, same⟩

/-- Behind the bytes of a statement is a boundary again. -/
theorem IsAt.behind (isAt : IsAt program offset statement) :
    Boundary program (offset + statement.width) := by
  obtain ⟨before, after, rfl, rfl⟩ := isAt
  exact ⟨before ++ [statement], after, by simp, by simp⟩

theorem Boundary.le (boundary : Boundary program offset) : offset ≤ widthAll program := by
  obtain ⟨before, after, rfl, rfl⟩ := boundary
  simp

/-- At a boundary in front of the end a statement emits bytes, behind labels at most. -/
theorem Boundary.isAt (boundary : Boundary program offset) (inside : offset < widthAll program) :
    ∃ statement, IsAt program offset statement ∧ 0 < statement.width := by
  obtain ⟨before, after, rfl, rfl⟩ := boundary
  induction after generalizing before with
  | nil => simp at inside
  | cons statement rest inductionHypothesis =>
    rcases Nat.eq_zero_or_pos statement.width with none | some
    · have skipped := inductionHypothesis (before ++ [statement])
      simp only [List.append_assoc, List.singleton_append, widthAll_append, widthAll_cons,
        widthAll_nil, none, Nat.add_zero, Nat.zero_add] at skipped inside
      exact skipped inside
    · exact ⟨statement, ⟨before, rest, rfl, rfl⟩, some⟩

/-! ### What statements mean -/

/-- The statements that programs are written in: jumps go to labels, and what is shown has a form
that is known. -/
def Written : Statement → Prop
  | plain (.jump _ _) => False
  | plain (.showInteger form _) => form ≤ 0x01
  | plain (.showText form) => form = 0x00
  | jump _ (.distance _) => False
  | _ => True

/-- A statement at a position of a program means an instruction, with the operands that it was given.
A jump means one that goes to the offset of its label. -/
inductive Means (program : List Statement) (position : Nat) : Statement → Instruction → Prop where
  | plain (instruction : Instruction) (written : (Statement.plain instruction).Written) :
      Means program position (.plain instruction) instruction
  | pushInteger {value : Int} {operand : UInt64}
      (congruent : (operand.toNat : Int) = value % 0x10000000000000000) :
      Means program position (.pushInteger value) (.pushInteger operand)
  | loadInteger {bytes : Int} {width : LoadWidth} (signed : Bool)
      (same : (width.bytes : Int) = bytes) :
      Means program position (.loadInteger bytes signed) (.loadInteger width signed)
  | showInteger {base : Int} {operand : UInt8} (signed : Bool)
      (same : (operand.toNat : Int) = base) :
      Means program position (.showInteger base signed)
        (.showInteger (if signed then 0x01 else 0x00) operand)
  | showHeader {level : Int} {operand : UInt8} (same : (operand.toNat : Int) = level) :
      Means program position (.showHeader level) (.showHeader operand)
  | jump (condition : JumpCondition) {name : String} {target : Nat} {distance : UInt64}
      (isAt : IsAt program target (.label name))
      (reaches : (word (position + distance.toNat)).toNat = target) :
      Means program position (.jump condition (.label name)) (.jump condition distance)

variable {labels : Labels} {position : Nat} {instruction : Instruction}

/-- The instruction of a statement, if it has one, takes as many bytes as the statement emits. -/
theorem length_of_instruction? {item : Option Instruction}
    (found : statement.instruction? labels position = .ok item) :
    (item.map fun instruction => instruction.encode.length).getD 0 = statement.width := by
  cases statement with
  | plain instruction =>
    cases found
    rfl
  | pushInteger value =>
    cases found
    simp [width, Instruction.encode, Instruction.operands, length_wordBytes]
  | loadInteger bytes signed =>
    simp only [instruction?] at found
    split at found <;> cases found
    rfl
  | showInteger base signed =>
    simp only [instruction?] at found
    split at found <;> cases found
    rfl
  | showHeader level =>
    simp only [instruction?] at found
    split at found <;> cases found
    rfl
  | jump condition target =>
    cases target with
    | distance value =>
      cases found
      simp [width, Instruction.encode, Instruction.operands, length_wordBytes]
    | label name =>
      simp only [instruction?] at found
      split at found <;> cases found
      simp [width, Instruction.encode, Instruction.operands, length_wordBytes]
  | label name =>
    cases found
    rfl

/-- A statement that emits bytes has an instruction, of just that length. -/
theorem exists_of_instruction? {item : Option Instruction} (emits : 0 < statement.width)
    (found : statement.instruction? labels position = .ok item) :
    ∃ instruction, item = some instruction ∧ instruction.encode.length = statement.width := by
  have long := length_of_instruction? found
  cases item with
  | none =>
    rw [← long] at emits
    cases emits
  | some instruction => exact ⟨instruction, rfl, long⟩

/-- While labels are looked for, a jump to a label counts as much as it does later. -/
theorem width_settled (statement : Statement) : statement.settled.width = statement.width := by
  cases statement with
  | jump condition target => cases target <;> rfl
  | _ => rfl

theorem length_eq_width {length : Nat} (found : statement.length = .ok length) :
    length = statement.width := by
  unfold Statement.length at found
  cases item : statement.settled.instruction? [] 0 with
  | error failure =>
    rw [item] at found
    cases found
  | ok item? =>
    have long := length_of_instruction? item
    rw [item] at found
    cases item? <;> cases found <;> exact long.trans statement.width_settled

/-! ### Labels -/

/-- A label that is set anew is looked up where it is set, and the others where they were. -/
theorem lookup_cons_iff {known : Labels} {other : String} (fresh : known.lookup other = none)
    (name : String) (position target : Nat) :
    List.lookup name ((other, position) :: known) = some target ↔
      known.lookup name = some target ∨ other = name ∧ target = position := by
  by_cases same : name = other
  · subst same
    simp [fresh, eq_comm]
  · simp [List.lookup_cons, beq_eq_false_iff_ne.2 same, Ne.symm same]

/-- What is looked up of a label is the offset where it is set. -/
theorem lookup_findLabels {known : Labels} {program : List Statement}
    (found : findLabels known position program = .ok labels) (name : String) (target : Nat) :
    labels.lookup name = some target ↔
      known.lookup name = some target ∨
        ∃ offset, IsAt program offset (.label name) ∧ target = position + offset := by
  fun_induction findLabels known position program with
  | case1 known position =>
    cases found
    simp [not_isAt_nil]
  | case2 => cases found
  | case3 known position rest other fresh inductionHypothesis =>
    rw [exists_isAt_cons, inductionHypothesis found, lookup_cons_iff fresh, label.injEq, or_assoc]
    rfl
  | case4 known position rest statement noLabel length long inductionHypothesis =>
    have other : ¬ statement = label name := noLabel name
    rw [exists_isAt_cons, inductionHypothesis found, length_eq_width long]
    simp [other]
  | case5 => cases found

/-! ### Places -/

/-- The statements of a program have instructions, and these stand at their offsets from a position
on. -/
def AllStand (labels : Labels) (code : Array UInt8) (position : Nat) (program : List Statement) :
    Prop :=
  ∀ offset statement, IsAt program offset statement →
    ∃ item, statement.instruction? labels (position + offset) = .ok item ∧
      ∀ instruction ∈ item, Stands code (position + offset) instruction.encode

theorem AllStand.cons {code : Array UInt8} {item : Option Instruction}
    (found : statement.instruction? labels position = .ok item)
    (stands : ∀ instruction ∈ item, Stands code position instruction.encode)
    (behind : AllStand labels code (position + statement.width) rest) :
    AllStand labels code position (statement :: rest) := by
  intro offset other isAt
  rcases isAt_cons.1 isAt with ⟨rfl, rfl⟩ | ⟨onward, there, rfl⟩
  · exact ⟨item, found, stands⟩
  · rw [← Nat.add_assoc]
    exact behind onward other there

/-- The instructions of statements take as many bytes as the statements emit. -/
theorem length_of_placeStatements {program : List Statement} {instructions : List Instruction}
    (placed : placeStatements labels position program = .ok instructions) :
    (encodeAll instructions).length = widthAll program := by
  fun_induction placeStatements labels position program generalizing instructions with
  | case1 =>
    cases placed
    rfl
  | case2 => cases placed
  | case3 position statement rest found inductionHypothesis =>
    have width : statement.width = 0 := (length_of_instruction? found).symm
    rw [widthAll_cons, width, Nat.zero_add]
    exact inductionHypothesis placed
  | case4 position statement rest instruction found inductionHypothesis =>
    have width : instruction.encode.length = statement.width := length_of_instruction? found
    cases placedRest : placeStatements labels (position + instruction.encode.length) rest with
    | error failure =>
      rw [placedRest] at placed
      cases placed
    | ok others =>
      rw [placedRest] at placed
      cases placed
      rw [widthAll_cons, ← width, ← inductionHypothesis placedRest]
      exact List.length_append

/-- Where the instructions of statements stand one behind the other, the one of each statement stands
at its offset. -/
theorem allStand_of_placeStatements {program : List Statement} {instructions : List Instruction}
    {code : Array UInt8} (placed : placeStatements labels position program = .ok instructions)
    (stands : Stands code position (encodeAll instructions)) :
    AllStand labels code position program := by
  fun_induction placeStatements labels position program generalizing instructions with
  | case1 => exact fun _ _ isAt => absurd isAt not_isAt_nil
  | case2 => cases placed
  | case3 position statement rest found inductionHypothesis =>
    have width : statement.width = 0 := (length_of_instruction? found).symm
    refine .cons found (fun _ member => by cases member) ?_
    rw [width]
    exact inductionHypothesis placed stands
  | case4 position statement rest instruction found inductionHypothesis =>
    have width : instruction.encode.length = statement.width := length_of_instruction? found
    cases placedRest : placeStatements labels (position + instruction.encode.length) rest with
    | error failure =>
      rw [placedRest] at placed
      cases placed
    | ok others =>
      rw [placedRest] at placed
      cases placed
      obtain ⟨here, onward⟩ := ByteSupply.supplies_append
        (show Stands code position (instruction.encode ++ encodeAll others) from stands)
      have behind := inductionHypothesis placedRest onward
      rw [width] at behind
      refine .cons found ?_ behind
      intro other member
      cases member
      exact here

/-! ### Assembled programs -/

/-- An instruction of a written statement is the one that the statement means, if the labels are
looked up where they are set. -/
theorem means_of_instruction? {program : List Statement} (written : statement.Written)
    (known : ∀ name target, labels.lookup name = some target → IsAt program target (.label name))
    (small : widthAll program ≤ wordLimit)
    (found : statement.instruction? labels position = .ok (some instruction)) :
    Means program position statement instruction := by
  cases statement with
  | plain same =>
    cases found
    exact .plain _ written
  | pushInteger value =>
    cases found
    exact .pushInteger (toNat_word value)
  | loadInteger bytes signed =>
    simp only [instruction?] at found
    split at found <;> cases found
    next width wide => exact .loadInteger signed (LoadWidth.bytes_of_ofBytes? wide)
  | showInteger base signed =>
    simp only [instruction?] at found
    split at found <;> cases found
    next operand byte => exact .showInteger signed (toNat_of_byte? byte)
  | showHeader level =>
    simp only [instruction?] at found
    split at found <;> cases found
    next operand byte => exact .showHeader (toNat_of_byte? byte)
  | jump condition target =>
    cases target with
    | distance value => cases written
    | label name =>
      simp only [instruction?] at found
      split at found <;> cases found
      next target looked =>
      have isAt := known name target looked
      refine .jump condition isAt ?_
      -- the distance is a word, so adding it comes back to the offset of the label
      have inside := Nat.le_trans isAt.boundary.le small
      have distance := toNat_word ((target : Int) - position)
      have reached := toNat_word (position + (word ((target : Int) - position)).toNat)
      rw [wordLimit] at inside
      omega
  | label name => cases found

/-- The bytes of an assembled program: at the offset of every statement that emits bytes stands the
instruction that the statement means. -/
structure Assembled (program : List Statement) (code : Array UInt8) : Prop where
  size : code.size = widthAll program
  small : code.size ≤ wordLimit
  unique : ∀ name first second, IsAt program first (.label name) →
    IsAt program second (.label name) → first = second
  stands : ∀ offset statement, IsAt program offset statement → 0 < statement.width →
    ∃ instruction, Means program offset statement instruction ∧
      instruction.encode.length = statement.width ∧ Stands code offset instruction.encode

theorem assembled_of_assemble {program : List Statement} {code : List UInt8}
    (written : ∀ statement ∈ program, statement.Written) (done : assemble program = .ok code)
    (small : code.length ≤ wordLimit) : Assembled program code.toArray := by
  rw [assemble] at done
  cases found : findLabels [] 0 program with
  | error failure =>
    rw [found] at done
    cases done
  | ok labels =>
    rw [found] at done
    have looked (name : String) (target : Nat) :
        labels.lookup name = some target ↔ IsAt program target (.label name) := by
      simpa using lookup_findLabels found name target
    cases placed : placeStatements labels 0 program with
    | error failure =>
      simp only [placed] at done
      cases done
    | ok instructions =>
      simp only [placed] at done
      cases done
      have long := length_of_placeStatements placed
      have all := allStand_of_placeStatements placed (.of_toArray _)
      refine ⟨long, small, fun name first second here there => ?_, fun offset statement isAt emits => ?_⟩
      · have same := ((looked name first).2 here).symm.trans ((looked name second).2 there)
        exact Option.some.inj same
      · obtain ⟨item, spelled, standing⟩ := all offset statement isAt
        obtain ⟨instruction, rfl, width⟩ := exists_of_instruction? emits spelled
        rw [Nat.zero_add] at spelled standing
        refine ⟨instruction, ?_, width, standing instruction rfl⟩
        exact means_of_instruction? (written statement isAt.mem)
          (fun name target => (looked name target).1) (long ▸ small) spelled

/-- An instruction that a statement means has a form that is known, so it fails for other causes. -/
theorem Means.not_fetch {program : List Statement} {setting : RunSetting} {failure : RunFailure}
    (means : Means program position statement instruction)
    (arises : Machine.Arises setting instruction failure) (cause : FetchFailure) :
    failure ≠ .fetch cause := by
  cases arises with
  | @integerForm form base unknown =>
    cases means with
    | plain _ written => exact absurd unknown (UInt8.not_lt.2 written)
    | showInteger signed =>
      cases signed <;> exact absurd unknown (by decide)
  | textForm unknown =>
    cases means with
    | plain _ written => exact absurd written unknown
  | _ => nofun

end Statement

namespace Machine

open Statement

variable {program : List Statement} {setting : RunSetting} {machine : Machine}

/-! ### Runs on boundaries -/

/-- A machine that is not done and stands at a boundary of an assembled program fetches what a
statement means. -/
theorem fetch_at_boundary (assembled : Assembled program setting.code)
    (boundary : Boundary program machine.counter) (going : machine.isDone setting = false) :
    ∃ statement instruction, IsAt program machine.counter statement ∧
      Means program machine.counter statement instruction ∧
      fetch setting.code machine.counter =
        ⟨.ok instruction, machine.counter + statement.width⟩ := by
  have inside : machine.counter < widthAll program := by
    rw [isDone, Bool.or_eq_false_iff, decide_eq_false_iff_not, assembled.size] at going
    exact Nat.not_le.1 going.2
  obtain ⟨statement, isAt, emits⟩ := boundary.isAt inside
  obtain ⟨instruction, means, width, stands⟩ := assembled.stands _ statement isAt emits
  refine ⟨statement, instruction, isAt, means, ?_⟩
  rw [← width]
  exact fetch_eq_of_stands stands assembled.small

/-- A step at a boundary comes to a boundary again, or fails for a cause that is no missing
instruction. -/
theorem step_at_boundary (assembled : Assembled program setting.code)
    (boundary : Boundary program machine.counter) (going : machine.isDone setting = false) :
    match step setting machine with
    | .ok _ after => Boundary program after.counter
    | .error failure _ => ∀ cause, failure ≠ .fetch cause := by
  obtain ⟨statement, instruction, isAt, means, found⟩ := fetch_at_boundary assembled boundary going
  have result := congrArg Fetched.result found
  have next : (machine.behindFetch setting).counter = machine.counter + statement.width :=
    congrArg Fetched.next found
  have possible := stepped setting machine
  generalize step setting machine = outcome at possible ⊢
  cases possible with
  | unfetched missing => cases result.symm.trans missing
  | onward _ stays =>
    show Boundary program _
    rw [stays.counter, next]
    exact isAt.behind
  | jumped fetched _ =>
    cases result.symm.trans fetched
    cases means with
    | plain _ written => cases written
    | jump _ target reaches =>
      show Boundary program _
      rw [reaches]
      exact target.boundary
  | failed fetched arises _ =>
    cases result.symm.trans fetched
    exact means.not_fetch arises

/-- A run of an assembled program goes from boundary to boundary. -/
theorem Reaches.boundary (assembled : Assembled program setting.code) {steps : Nat}
    {first last : Machine} (reaches : Reaches setting steps first last)
    (boundary : Boundary program first.counter) : Boundary program last.counter := by
  induction reaches with
  | here => exact boundary
  | step going stepped _ inductionHypothesis =>
    have onward := step_at_boundary assembled boundary going
    rw [stepped] at onward
    exact inductionHypothesis onward

/-- The runs of a program on a machine with some code are what the program means. -/
structure RunsAsWritten (program : List Statement) (setting : RunSetting) (rows : Int) : Prop where
  /-- Every instruction that a run comes to starts at the offset of a statement, and is fetched as
  the one that the statement means, operands and text constants included. -/
  fetches : ∀ steps machine, Reaches setting steps { panel := .ofRows rows } machine →
    machine.isDone setting = false →
      ∃ statement instruction, IsAt program machine.counter statement ∧
        Means program machine.counter statement instruction ∧
        fetch setting.code machine.counter =
          ⟨.ok instruction, machine.counter + statement.width⟩
  /-- A jump that is taken goes on at the offset where its label is set, the only one there is, and
  one that is not taken goes on behind itself. -/
  jumps : ∀ machine condition name, IsAt program machine.counter (.jump condition (.label name)) →
    ∃ target, (∀ offset, IsAt program offset (.label name) ↔ offset = target) ∧
      ∀ taken between, decides condition { machine with counter := machine.counter + 9 } =
          .ok taken between →
        step setting machine =
          .ok () { between with counter := if taken then target else machine.counter + 9 }
  /-- No run fails for want of an instruction or within one. -/
  succeeds : ∀ limit failure after, run setting rows limit = .error failure after →
    ∀ cause, failure ≠ .fetch cause

/-- At a jump to a label the step goes to the offset of the label if the jump is taken. -/
theorem step_of_jump (assembled : Assembled program setting.code) {condition : JumpCondition}
    {name : String} (isAt : IsAt program machine.counter (.jump condition (.label name))) :
    ∃ target, (∀ offset, IsAt program offset (.label name) ↔ offset = target) ∧
      ∀ taken between, decides condition { machine with counter := machine.counter + 9 } =
          .ok taken between →
        step setting machine =
          .ok () { between with counter := if taken then target else machine.counter + 9 } := by
  obtain ⟨instruction, means, width, stands⟩ := assembled.stands _ _ isAt (Nat.succ_pos 8)
  have width : instruction.encode.length = 9 := width
  cases means with
  | @jump _ _ target distance labelled reaches =>
    refine ⟨target, fun offset => ⟨fun other => ?_, fun same => same ▸ labelled⟩, ?_⟩
    · exact assembled.unique name offset target other labelled
    · intro taken between decided
      have stays : Action.Ends (Stays { machine with counter := machine.counter + 9 })
          (fun _ => True) (decides condition) := ends_decides condition trivial
      have unmoved : between.counter = machine.counter + 9 := by
        have ended := stays _ .rfl
        rw [decided] at ended
        exact ended.counter
      rw [step_of_stands assembled.small machine stands, width,
        execute_jump machine.counter distance decided, reaches]
      cases taken with
      | true => rfl
      | false =>
        rw [← unmoved]
        rfl

/-- An assembled program runs as it was written, whatever it reads and shows. Its code is a byte
string, whose length is always a word; the targets of jumps are computed as words. -/
theorem runs_as_written {program : List Statement} {code : List UInt8}
    (written : ∀ statement ∈ program, statement.Written) (done : assemble program = .ok code)
    (small : code.length ≤ wordLimit) (reader : ByteReader) (cursor rows : Int) :
    RunsAsWritten program ⟨code.toArray, reader, cursor⟩ rows := by
  have assembled := assembled_of_assemble written done small
  refine ⟨fun steps machine reaches going => ?_, fun machine condition name isAt => ?_,
    fun limit failure after failed => ?_⟩
  · exact fetch_at_boundary assembled (reaches.boundary assembled (boundary_zero program)) going
  · exact step_of_jump assembled isAt
  · have ends := endsWithin_runSteps ⟨code.toArray, reader, cursor⟩ limit limit.toNat
      { panel := .ofRows rows }
    rw [run] at failed
    rw [failed] at ends
    cases ends with
    | spent =>
      intro start other
      cases other
    | failed within reaches going stopped =>
      have cause := step_at_boundary assembled
        (reaches.boundary assembled (boundary_zero program)) going
      rw [stopped] at cause
      exact cause

/-- A program with a jump forward, a loop that goes back, and texts with a character of two
bytes. -/
def loopingProgram : List Statement :=
  [.jump .always (.label "start"), .label "back", .plain (.pushText "né"), .plain .drop,
    .label "start", .pushInteger (-1), .loadInteger 2 true, .jump .nonzero (.label "back"),
    .plain (.pushText "é"), .showHeader 1]

theorem runs_as_written_loopingProgram :
    ∃ code, (∀ statement ∈ loopingProgram, statement.Written) ∧
      assemble loopingProgram = .ok code ∧ code.length ≤ wordLimit ∧
      RunsAsWritten loopingProgram ⟨code.toArray, .ofArray #[1, 2, 3], 0⟩ 5 := by
  have written : ∀ statement ∈ loopingProgram, statement.Written := by
    simp [loopingProgram, Written]
  refine ⟨_, written, rfl, by decide, ?_⟩
  exact runs_as_written written rfl (by decide) _ _ _

end Machine

end HexEditor
