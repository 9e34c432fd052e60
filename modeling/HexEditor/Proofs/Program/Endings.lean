/-
How programs end, whatever their bytes are. A run makes no more steps than its budget
has, and it ends at a machine that is done, at one whose step fails, or where the budget
is used up. It fails only for causes that a program or the file can have: an instruction
that is none, a stack that ran out, a cell that was never stored or lies out of range, a
text in a wrong encoding, a base that is unusable, a read past the end of the file or at
an offset that no file has, and the program giving up. On the way every value on the
stack and in the cells is a word, and the cells never outgrow their limit.
-/

import HexEditor.Proofs.Program.Execution

namespace HexEditor

/-! ### Reads that fail -/

/-- Why a read of a few bytes fails in a file of some content: it reaches past the end, or no file
has the offset. -/
inductive StorageFailure.PastEnd (content : Array UInt8) : StorageFailure → Prop where
  | short {offset : Nat} (short : content.size < offset + 8) :
      PastEnd content (.shortRead offset)
  | offsetTooLarge : PastEnd content .offsetTooLarge

/-- A read of at most eight bytes fails only past the end of the file. -/
theorem ByteReader.pastEnd_of_readArray {content : Array UInt8} {offset count : Nat}
    {cause : StorageFailure} (few : count ≤ 8)
    (failed : readArray content offset count = .error cause) : cause.PastEnd content := by
  unfold readArray at failed
  split at failed
  · cases failed
    exact .offsetTooLarge
  split at failed
  · cases failed
  split at failed
  · cases failed
  · cases failed
    exact .short (by omega)

/-- Where a text is cut short, the byte at that position could not be taken. -/
theorem ByteSupply.byteAt_of_failed {Failure : Type} {supply : ByteSupply Failure}
    {asciiOnly : Bool} {count : Option Nat} {state : Utf8State} {read : List Char}
    {position last : Nat} {failure : Failure}
    (failed : supply.readText asciiOnly count state read position = .failed failure last) :
    supply.byteAt last = .error failure := by
  fun_induction supply.readText asciiOnly count state read position with
  | case1 => cases failed
  | case2 count state read position _ cause untaken =>
    cases failed
    exact untaken
  | case3 => cases failed
  | case4 => cases failed
  | case5 _ _ _ _ _ _ _ _ _ _ inductionHypothesis => exact inductionHypothesis failed
  | case6 => cases failed
  | case7 _ _ _ _ _ _ _ _ _ _ _ inductionHypothesis => exact inductionHypothesis failed

/-- A text that is read from a file fails for its encoding or past the end of the file. -/
theorem ByteReader.text_ofArray_error {content : Array UInt8} {asciiOnly : Bool}
    {count : Option Nat} {offset : Nat} {cause : TextFailure}
    (failed : (ofArray content).text asciiOnly count offset = .error cause) :
    cause = .encoding asciiOnly ∨
      ∃ storage, cause = .storage storage ∧ storage.PastEnd content := by
  unfold text at failed
  split at failed
  · cases failed
  · cases failed
    exact .inl rfl
  · next failure position reached =>
    cases failed
    refine .inr ⟨failure, rfl, ?_⟩
    have untaken : (ofArray content).byteAt position = .error failure :=
      ByteSupply.byteAt_of_failed reached
    unfold byteAt at untaken
    split at untaken
    · cases untaken
    · next none =>
      have width := (ofArray content).length_read none
      cases width
    · next refused =>
      cases untaken
      exact pastEnd_of_readArray (by decide) refused

/-! ### Failures of programs -/

/-- The failures that a run of a program on a file of some content may end with. -/
inductive RunFailure.Expected (content : Array UInt8) : RunFailure → Prop where
  | fetch (cause : FetchFailure) : Expected content (.fetch cause)
  | noWord : Expected content .noWord
  | noText : Expected content .noText
  | base (cause : UnusableBase) : Expected content (.base cause)
  | unset (index : UInt64) : Expected content (.cell (.unset index.toNat))
  | outOfRange (index : UInt64) : Expected content (.cell (.outOfRange index.toNat))
  | encoding (asciiOnly : Bool) : Expected content (.text (.encoding asciiOnly))
  | integer {cause : StorageFailure} (pastEnd : cause.PastEnd content) :
      Expected content (.storage cause)
  | text {cause : StorageFailure} (pastEnd : cause.PastEnd content) :
      Expected content (.text (.storage cause))
  | panic (stack : List UInt64) : Expected content (.panic stack)
  | stepLimit (limit : Int) : Expected content (.stepLimit limit)

theorem LoadWidth.bytes_le (width : LoadWidth) : width.bytes ≤ 8 := by
  cases width <;> decide

namespace Machine

/-- What an instruction can fail with on a file is expected. -/
theorem Arises.expected {code content : Array UInt8} {cursor : Int} {instruction : Instruction}
    {failure : RunFailure}
    (arises : Arises ⟨code, .ofArray content, cursor⟩ instruction failure) :
    failure.Expected content := by
  cases arises with
  | noWord => exact .noWord
  | noText => exact .noText
  | notRead refused =>
    exact .integer (ByteReader.pastEnd_of_readArray (LoadWidth.bytes_le _) refused)
  | noTextThere refused =>
    rcases ByteReader.text_ofArray_error refused with rfl | ⟨storage, rfl, pastEnd⟩
    · exact .encoding _
    · exact .text pastEnd
  | unset index => exact .unset index
  | outOfRange index => exact .outOfRange index
  | integerForm => exact .fetch _
  | base => exact .base _
  | textForm => exact .fetch _
  | panic stack => exact .panic stack

/-! ### Bounds -/

/-- Everything that a machine computes with is a word, and its cells are within their limit. -/
structure InBounds (machine : Machine) : Prop where
  stack : ∀ value ∈ machine.stack, value.toNat ≤ wordLimit
  cells : ∀ place value, machine.cells.stored[place]? = some value →
    value.toNat ≤ wordLimit ∧ place < machine.cells.capacity
  capacity : machine.cells.capacity ≤ cellLimit

theorem inBounds_of_bounded {machine : Machine} (bounded : machine.cells.Bounded) :
    machine.InBounds where
  stack value _ := Nat.le_of_lt_succ value.toNat_lt
  cells place value stored := by
    refine ⟨Nat.le_of_lt_succ value.toNat_lt, bounded.place_lt place ?_⟩
    rw [Std.HashMap.mem_iff_isSome_getElem?, stored]
    rfl
  capacity := bounded.capacity_le

variable {setting : RunSetting} {machine : Machine}

/-- A step keeps the cells within their limit, whether it succeeds or not. -/
theorem bounded_step (setting : RunSetting) (bounded : machine.cells.Bounded) :
    (Action.left (step setting machine)).cells.Bounded := by
  have possible := stepped setting machine
  generalize step setting machine = result at possible ⊢
  cases possible with
  | unfetched => exact bounded
  | onward _ stays => exact stays.bounded bounded
  | jumped _ stays => exact stays.bounded bounded
  | failed _ _ stays => exact stays.bounded bounded

theorem Reaches.bounded {steps : Nat} {first last : Machine}
    (reaches : Reaches setting steps first last) (bounded : first.cells.Bounded) :
    last.cells.Bounded := by
  induction reaches with
  | here => exact bounded
  | @step _ first next _ _ stepped _ inductionHypothesis =>
    have kept := bounded_step setting bounded
    rw [stepped] at kept
    exact inductionHypothesis kept

/-! ### Runs -/

/-- How a run ends that begins with a machine and has a budget of steps. -/
inductive EndsWithin (setting : RunSetting) (limit : Int) (budget : Nat) (first : Machine) :
    EStateM.Result RunFailure Machine Unit → Prop where
  /-- The run comes to a machine that is done. -/
  | done {last : Machine} (reaches : Reaches setting budget first last)
      (done : last.isDone setting = true) : EndsWithin setting limit budget first (.ok () last)
  /-- The budget is used up and the machine is not done. -/
  | spent {last : Machine} (reaches : Reaches setting budget first last)
      (going : last.isDone setting = false) :
      EndsWithin setting limit budget first (.error (.stepLimit limit) last)
  /-- Before the budget is used up, a step fails. -/
  | failed {steps : Nat} {last after : Machine} {failure : RunFailure} (within : steps < budget)
      (reaches : Reaches setting steps first last) (going : last.isDone setting = false)
      (failed : step setting last = .error failure after) :
      EndsWithin setting limit budget first (.error failure after)

/-- A step in front makes a run longer by one. -/
theorem EndsWithin.cons {limit : Int} {budget : Nat} {first next : Machine}
    {result : EStateM.Result RunFailure Machine Unit} (going : first.isDone setting = false)
    (stepped : step setting first = .ok () next)
    (ends : EndsWithin setting limit budget next result) :
    EndsWithin setting limit (budget + 1) first result := by
  cases ends with
  | done reaches done => exact .done (.step going stepped reaches) done
  | spent reaches finished => exact .spent (.step going stepped reaches) finished
  | failed within reaches finished failed =>
    exact .failed (Nat.succ_lt_succ within) (.step going stepped reaches) finished failed

theorem endsWithin_runSteps (setting : RunSetting) (limit : Int) (budget : Nat)
    (first : Machine) :
    EndsWithin setting limit budget first (runSteps setting limit budget first) := by
  induction budget generalizing first with
  | zero =>
    cases finished : first.isDone setting with
    | true =>
      rw [runSteps, if_pos finished]
      exact .done (.here 0 first) finished
    | false =>
      rw [runSteps, if_neg (ne_true_of_eq_false finished)]
      exact .spent (.here 0 first) finished
  | succ budget inductionHypothesis =>
    cases finished : first.isDone setting with
    | true =>
      rw [runSteps, if_pos finished]
      exact .done (.here _ first) finished
    | false =>
      rw [runSteps, if_neg (ne_true_of_eq_false finished)]
      cases stepped : step setting first with
      | ok value next => exact (inductionHypothesis next).cons finished stepped
      | error failure after => exact .failed (Nat.succ_pos _) (.here 0 first) finished stepped

/-- A failing step of a program on a file fails as expected. -/
theorem expected_of_step {code content : Array UInt8} {cursor : Int} {failure : RunFailure}
    {after : Machine} (failed : step ⟨code, .ofArray content, cursor⟩ machine = .error failure after) :
    failure.Expected content := by
  have possible := stepped ⟨code, .ofArray content, cursor⟩ machine
  rw [failed] at possible
  cases possible with
  | unfetched => exact .fetch _
  | failed _ arises => exact arises.expected

/-- No program can break the machine. Whatever its bytes are, and whatever the file, the cursor, the
rows and the limit, its run ends within its budget of steps; a run that fails does so for an
expected cause; and every machine on the way and at the end is in bounds. -/
theorem run_ends (code content : Array UInt8) (cursor rows limit : Int) :
    EndsWithin ⟨code, .ofArray content, cursor⟩ limit limit.toNat { panel := .ofRows rows }
        (run ⟨code, .ofArray content, cursor⟩ rows limit) ∧
      (∀ failure after, run ⟨code, .ofArray content, cursor⟩ rows limit = .error failure after →
        failure.Expected content ∧ after.InBounds) ∧
      ∀ steps machine, Reaches ⟨code, .ofArray content, cursor⟩ steps { panel := .ofRows rows }
        machine → machine.InBounds := by
  have ends := endsWithin_runSteps ⟨code, .ofArray content, cursor⟩ limit limit.toNat
    { panel := .ofRows rows }
  refine ⟨ends, fun failure after failed => ?_, fun steps machine reaches => ?_⟩
  · rw [run] at failed
    rw [failed] at ends
    cases ends with
    | spent reaches going =>
      exact ⟨.stepLimit limit, inBounds_of_bounded (reaches.bounded Cells.bounded_new)⟩
    | failed within reaches going stopped =>
      refine ⟨expected_of_step stopped, inBounds_of_bounded ?_⟩
      have kept := bounded_step ⟨code, .ofArray content, cursor⟩
        (reaches.bounded Cells.bounded_new)
      rwa [stopped] at kept
  · exact inBounds_of_bounded (reaches.bounded Cells.bounded_new)

end Machine

end HexEditor
