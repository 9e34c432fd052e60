/-
What is left of a log when the work on it stops at any moment. A change of a log is
made in steps on its file: a new record is written behind the records that are done,
the file is cut, and at last the position in the header is rewritten at one stroke.
Until that happens the bytes below the position in the header are those that were
there, whatever part of the record was written; so a file that was cut off opens at
the old position with the old records below it. From then on it opens at the new one.
-/

import HexEditor.Proofs.History.Refinement

namespace HexEditor

/-! ### Stops -/

/-- The largest number of bytes that are written at one stroke. -/
def strokeSize : Nat := 8

/-- What is left of some content when the work on it stops, together with the changes that were
made. The work may stop between two changes, and within a write that is too long to be done at one
stroke once any number of bytes are written. -/
inductive CutOff : List UInt8 → List FileStep → List FileStep → List UInt8 → Prop where
  | before (content : List UInt8) (steps : List FileStep) : CutOff content steps [] content
  | within {content bytes : List UInt8} {offset : Nat} {whole : Bool} {rest : List FileStep}
      (written : Nat) (long : strokeSize < bytes.length) :
      CutOff content (.write offset bytes whole :: rest) []
        (writeAt offset (bytes.take written) content)
  | behind {content left : List UInt8} {step : FileStep} {rest done : List FileStep}
      (cut : CutOff (step.effect content) rest done left) :
      CutOff content (step :: rest) (step :: done) left

/-- The steps that reach no byte below an offset. -/
def FileStep.Spares (offset : Nat) : FileStep → Prop
  | write start _ _ => offset ≤ start
  | truncate length => offset ≤ length
  | _ => True

/-- A step that reaches no byte below an offset leaves them in place. -/
theorem FileStep.take_effect {offset : Nat} {content : List UInt8}
    (inside : offset ≤ content.length) {step : FileStep} (spares : step.Spares offset) :
    (step.effect content).take offset = content.take offset := by
  cases step with
  | write start bytes whole => exact take_writeAt spares inside
  | truncate length => exact take_cutTo spares inside
  | seek => rfl
  | flush => rfl
  | sync => rfl

namespace CutOff

variable {content left : List UInt8} {steps done : List FileStep}

/-- The changes that were made are the first ones. -/
theorem done_prefix (cut : CutOff content steps done left) : done <+: steps := by
  induction cut with
  | before => exact List.nil_prefix
  | within => exact List.nil_prefix
  | behind _ inductionHypothesis => exact List.cons_prefix_cons.2 ⟨rfl, inductionHypothesis⟩

/-- Work that is done is left as it is. -/
theorem of_all (content : List UInt8) (steps : List FileStep) :
    CutOff content steps steps (steps.foldl FileStep.effect content) := by
  induction steps generalizing content with
  | nil => exact .before content []
  | cons step rest inductionHypothesis => exact .behind (inductionHypothesis _)

/-- Work in two parts stops in the first one, or in the second one once the first is done. -/
theorem append {first second : List FileStep} (cut : CutOff content (first ++ second) done left) :
    CutOff content first done left ∨
      ∃ rest, done = first ++ rest ∧
        CutOff (first.foldl FileStep.effect content) second rest left := by
  induction first generalizing content done with
  | nil => exact .inr ⟨done, rfl, cut⟩
  | cons step others inductionHypothesis =>
    cases cut with
    | before => exact .inl (.before _ _)
    | within written long => exact .inl (.within written long)
    | behind cut =>
      rcases inductionHypothesis cut with inside | ⟨rest, rfl, behindAll⟩
      · exact .inl (.behind inside)
      · exact .inr ⟨rest, rfl, behindAll⟩

/-- A stop in the first part of some work is one in the whole of it. -/
theorem of_prefix {first : List FileStep} (cut : CutOff content first done left)
    (part : first <+: steps) : CutOff content steps done left := by
  obtain ⟨second, rfl⟩ := part
  induction cut with
  | before content steps => exact .before content _
  | within written long => exact .within written long
  | behind _ inductionHypothesis => exact .behind inductionHypothesis

/-- Where no step reaches a byte below an offset, all of them are left. -/
theorem take_of_spares (cut : CutOff content steps done left) {offset : Nat}
    (inside : offset ≤ content.length) (spares : ∀ step ∈ steps, step.Spares offset) :
    left.take offset = content.take offset := by
  induction cut with
  | before => rfl
  | within written long =>
    have start := spares _ List.mem_cons_self
    exact take_writeAt start inside
  | behind cut inductionHypothesis =>
    have kept := FileStep.take_effect inside (spares _ List.mem_cons_self)
    rw [inductionHypothesis (le_length_of_take kept inside)
      fun step member => spares step (List.mem_cons_of_mem _ member), kept]

end CutOff

namespace EditLog

/-- The changes that the file of a log has kept account of from one moment to a later one, which
tell what has become of its content. -/
structure Accounts (log next : EditLog) (made : List FileStep) : Prop where
  account : next.file.made = log.file.made ++ made
  content : next.file.content = made.foldl FileStep.effect log.file.content

theorem Accounts.of_makeAll {log next : EditLog} {steps : List FileStep}
    (same : next.file = log.file.makeAll steps)
    (changes : ∀ step ∈ steps, step.isChange = true) : Accounts log next steps :=
  ⟨by rw [same, DeviceFile.made_makeAll _ changes], by rw [same, DeviceFile.content_makeAll]⟩

/-! ### Stops while settling -/

/-- The changes of settling a position; one that is no word is not written. -/
def settleSteps (position : Nat) : List FileStep :=
  match word? (position : Int) with
  | some position => [positionStep position]
  | none => []

theorem settleSteps_of_le {position : Nat} (small : position ≤ wordLimit) :
    settleSteps position = [positionStep (UInt64.ofNat position)] := by
  rw [settleSteps, word?_of_le small]

theorem settleSteps_of_gt {position : Nat} (large : wordLimit < position) :
    settleSteps position = [] := by
  rw [settleSteps, word?_of_gt large]

/-- Settling that stops has either left the content as it was or put the position into the
header. -/
theorem cutOff_settleSteps {content left : List UInt8} {position : Nat} {done : List FileStep}
    (cut : CutOff content (settleSteps position) done left) :
    (left = content ∧ done = []) ∨
      (position ≤ wordLimit ∧ left = settledContent content (UInt64.ofNat position) ∧
        done = [positionStep (UInt64.ofNat position)]) := by
  by_cases small : position ≤ wordLimit
  · rw [settleSteps_of_le small] at cut
    cases cut with
    | before => exact .inl ⟨rfl, rfl⟩
    | within written long =>
      -- the position is written at one stroke
      rw [length_wordBytes] at long
      exact absurd long (Nat.lt_irrefl _)
    | behind cut =>
      cases cut with
      | before => exact .inr ⟨small, rfl, rfl⟩
  · rw [settleSteps_of_gt (Nat.not_le.1 small)] at cut
    cases cut with
    | before => exact .inl ⟨rfl, rfl⟩

/-- Settling makes its changes, or there is nothing to settle that far behind. -/
theorem settle_cases {log : EditLog} (sound : log.file.faults = {}) :
    (∃ next, settle log = .ok () next ∧
        next.file = log.file.makeAll (settleSteps log.position) ∧
        next.position = log.position ∧ log.position ≤ wordLimit) ∨
      ∃ failure, settle log = .error failure log ∧ settleSteps log.position = [] ∧
        offsetLimit ≤ log.position + slotSize := by
  by_cases small : log.position ≤ wordLimit
  · refine .inl ⟨_, settle_of_le sound small, ?_, rfl, small⟩
    rw [settleSteps_of_le small]
    rfl
  · have large := Nat.not_le.1 small
    exact .inr ⟨_, settle_of_gt sound large, settleSteps_of_gt large,
      Nat.le_trans (Nat.le_trans (by decide) large) (Nat.le_add_right _ _)⟩

/-! ### Changes -/

/-- A change of a log that is settled afterwards. -/
inductive Change where
  | enter (record : EditRecord)
  | undo
  | redo
  deriving DecidableEq, Repr

namespace Change

/-- The operation that makes a change. -/
def operation : Change → LogOperation
  | enter record => .enter record
  | undo => .undo
  | redo => .redo

/-- The position behind a change. -/
def target (log : EditLog) : Change → Nat
  | enter _ => log.position + slotSize
  | undo => if log.canUndo then log.position - slotSize else log.position
  | redo => if log.canRedo then log.position + slotSize else log.position

/-- The records that are done behind a change. -/
def past (history : History) : Change → List EditRecord
  | enter record => history.past ++ [record]
  | undo => history.past.dropLast
  | redo => history.records.take (history.index + 1)

/-- What a change does to the file before it is settled. -/
def ownSteps (log : EditLog) : Change → List FileStep
  | enter record => enterSteps log.position record
  | _ => []

def steps (log : EditLog) (change : Change) : List FileStep :=
  change.ownSteps log ++ settleSteps (change.target log)

variable {log : EditLog} {history : History}

/-- A change of a log is one of its history. -/
theorem past_apply (change : Change) (history : History) :
    (change.operation.apply history).2.past = change.past history := by
  obtain ⟨records, index, within⟩ := history
  cases change with
  | enter record =>
    show (History.enter _ record).records.take (index + 1) = _
    refine List.take_of_length_le ?_
    show (History.past _ ++ [record]).length ≤ _
    rw [List.length_append, History.length_past]
    exact Nat.le_refl _
  | undo =>
    cases index with
    | zero => rfl
    | succ index =>
      have width : (records.take (index + 1)).length = index + 1 := by
        rw [List.length_take, Nat.min_eq_left within]
      show records.take index = (records.take (index + 1)).dropLast
      rw [List.dropLast_eq_take, width, List.take_take, Nat.add_sub_cancel,
        Nat.min_eq_left (Nat.le_succ index)]
  | redo =>
    by_cases more : index < records.length
    · show (History.redo ⟨records, index, within⟩).2.past = _
      rw [History.redo, dif_pos more]
      rfl
    · show (History.redo ⟨records, index, within⟩).2.past = records.take (index + 1)
      rw [History.redo, dif_neg more, History.past]
      rw [List.take_of_length_le (Nat.not_lt.1 more),
        List.take_of_length_le (Nat.le_succ_of_le (Nat.not_lt.1 more))]

/-- The position behind a change is that behind the records that are done then. -/
theorem target_eq (holds : log.Holds history) (change : Change) :
    change.target log = 16 + 16 * (change.operation.apply history).2.index := by
  have position := holds.position
  cases change with
  | enter record =>
    show log.position + slotSize = 16 + 16 * (history.index + 1)
    rw [position, slotSize]
    omega
  | undo =>
    show (if log.canUndo then _ else _) = 16 + 16 * history.undo.2.index
    rw [holds.shows_history.canUndo, position, slotSize]
    obtain ⟨records, index, within⟩ := history
    cases index with
    | zero => rfl
    | succ index =>
      rw [if_pos (decide_eq_true (Nat.succ_pos index))]
      show 16 + 16 * (index + 1) - 16 = 16 + 16 * index
      omega
  | redo =>
    show (if log.canRedo then _ else _) = 16 + 16 * history.redo.2.index
    rw [holds.shows_history.canRedo, position, slotSize, History.redo]
    by_cases more : history.index < history.records.length
    · rw [dif_pos more, if_pos (decide_eq_true more)]
      show 16 + 16 * history.index + 16 = 16 + 16 * (history.index + 1)
      omega
    · rw [dif_neg more, if_neg (by rw [decide_eq_true_iff]; exact more)]

/-- The own steps of a change reach no byte below the position, and do not write the header. -/
theorem ownSteps_spare (log : EditLog) (change : Change) :
    (∀ step ∈ change.ownSteps log, step.Spares log.position) ∧
      ∀ position, positionStep position ∉ change.ownSteps log := by
  cases change with
  | enter record =>
    refine ⟨fun step member => ?_, fun position member => ?_⟩
    · rcases List.mem_cons.1 member with rfl | member
      · exact Nat.le_refl _
      · rw [List.mem_singleton.1 member]
        exact Nat.le_add_right _ _
    · rcases List.mem_cons.1 member with same | member
      · exact absurd (FileStep.write.inj same).2.2 (by decide)
      · cases List.mem_singleton.1 member
  | _ => exact ⟨fun _ member => absurd member List.not_mem_nil, fun _ => List.not_mem_nil⟩

theorem isChange_of_steps {change : Change} {step : FileStep} (member : step ∈ change.steps log) :
    step.isChange = true := by
  rcases List.mem_append.1 member with own | settling
  · cases change with
    | enter record =>
      rcases List.mem_cons.1 own with rfl | own
      · rfl
      · rw [List.mem_singleton.1 own]
        rfl
    | _ => cases own
  · rw [settleSteps] at settling
    split at settling
    · rw [List.mem_singleton.1 settling]
      rfl
    · cases settling

/-- Behind its own steps and at its target, a log holds the history behind a change. -/
theorem holds_target (holds : log.Holds history) (change : Change) :
    ∃ next : EditLog, next.file = log.file.makeAll (change.ownSteps log) ∧
      next.position = change.target log ∧ next.Holds (change.operation.apply history).2 := by
  cases change with
  | enter record => exact ⟨_, rfl, rfl, holds.entered record⟩
  | undo =>
    exact ⟨log.movedTo (16 + 16 * history.undo.2.index) log.stop, rfl,
      (target_eq holds undo).symm, holds.undo.2⟩
  | redo =>
    exact ⟨log.movedTo (16 + 16 * history.redo.2.index) log.stop, rfl,
      (target_eq holds redo).symm, holds.redo.2⟩

/-- A change makes its own steps, or there is no room for it. -/
theorem run_cases (holds : log.Holds history) (change : Change) :
    (∃ next, change.operation.run log = .ok (change.operation.apply history).1 next ∧
        next.file = log.file.makeAll (change.ownSteps log) ∧
        next.position = change.target log ∧ next.Holds (change.operation.apply history).2) ∨
      ∃ failure, change.operation.run log = .error failure log ∧
        offsetLimit ≤ log.position + slotSize := by
  have target := target_eq holds change
  cases change with
  | enter record =>
    by_cases room : log.position + slotSize < offsetLimit
    · exact .inl ⟨_, Action.bind_of_ok (enter_of_room holds.sound record room), rfl, rfl,
        holds.entered record⟩
    · have full := Nat.not_lt.1 room
      exact .inr ⟨_, Action.bind_of_error (enter_of_full holds.sound record full), full⟩
  | undo => exact .inl ⟨_, holds.undo.1, rfl, target.symm, holds.undo.2⟩
  | redo => exact .inl ⟨_, holds.redo.1, rfl, target.symm, holds.redo.2⟩

/-- What a change that is settled makes are its steps, up to where there is no room. Where there is
room they end with that of the position. -/
theorem accounts_runAll (holds : log.Holds history) (change : Change) :
    ∃ made, made <+: change.steps log ∧
      Accounts log (Action.left (LogOperation.runAll [change.operation, .settle] log)) made ∧
      match LogOperation.runAll [change.operation, .settle] log with
      | .ok _ next => next.position = change.target log ∧ ∃ position, positionStep position ∈ made
      | .error _ stuck => offsetLimit ≤ stuck.position + slotSize := by
  rcases run_cases holds change with
    ⟨middle, ran, file, position, middleHolds⟩ | ⟨failure, failed, full⟩
  · rcases settle_cases middleHolds.sound with
      ⟨next, settled, settledFile, same, small⟩ | ⟨failure, failed, none, full⟩
    · have settledRun : LogOperation.run .settle middle = .ok none next := Action.bind_of_ok settled
      rw [LogOperation.runAll_of_ok ran (LogOperation.runAll_of_ok settledRun rfl)]
      refine ⟨change.steps log, List.prefix_rfl, .of_makeAll ?_ fun _ => isChange_of_steps,
        same.trans position, UInt64.ofNat middle.position, ?_⟩
      · show next.file = _
        rw [settledFile, file, position, steps, DeviceFile.makeAll_append]
      · refine List.mem_append_right _ ?_
        rw [← position, settleSteps_of_le small]
        exact List.mem_singleton_self _
    · have failedRun : LogOperation.run .settle middle = .error failure middle :=
        Action.bind_of_error failed
      rw [LogOperation.runAll_of_error_behind ran (LogOperation.runAll_of_error failedRun)]
      exact ⟨change.ownSteps log, List.prefix_append _ _,
        .of_makeAll file fun _ member => isChange_of_steps (List.mem_append_left _ member), full⟩
  · rw [LogOperation.runAll_of_error failed]
    exact ⟨[], List.nil_prefix, .of_makeAll rfl nofun, full⟩

end Change

/-! ### Opening what is left -/

/-- The records that are done. -/
def past (log : EditLog) : Except StorageFailure (List EditRecord) :=
  log.records.map fun records => records.take log.index

/-- Some content opens as a log at a position, with records below it. -/
def OpensAt (content : List UInt8) (position : Nat) (past : List EditRecord) : Prop :=
  ∃ log whole, openContent content = (.ok log, whole) ∧ log.position = position ∧
    log.past = .ok past

variable {log : EditLog} {history : History}

/-- Where the header holds the position, every content with the same bytes up to there opens at
this position, with the records that are done. -/
theorem Holds.opensAt (holds : log.Holds history)
    (settled : headerPosition log.file.content = log.position) {content : List UInt8}
    (same : content.take log.position = log.file.content.take log.position) :
    OpensAt content log.position history.past := by
  obtain ⟨first, inside⟩ := holds.bounds
  have long := le_length_of_take same inside
  have front : content.take 16 = log.file.content.take 16 := take_of_take first same
  have header : headerFault? content = none :=
    (headerFault?_eq_of_take front (le_length_of_header holds.header)).trans holds.header
  have held : headerPosition content = log.position :=
    (headerPosition_eq_of_take front).trans settled
  have filled := (slotsUp_bounds content.length).1
  have opened := openContent_of_header header held (by rw [holds.position]; omega) first
    (Nat.le_trans long filled)
  obtain ⟨_, _, reopenedHistory, reopened⟩ := holds_of_open opened
  refine ⟨_, _, opened, rfl, ?_⟩
  have index : reopenedHistory.index = history.index := by
    have there : log.position = 16 + 16 * reopenedHistory.index := reopened.position
    have here := holds.position
    omega
  have shown := reopened.shows_history
  rw [past, shown.records, shown.index]
  show Except.ok reopenedHistory.past = _
  rw [reopened.past_eq, index, holds.past_eq]
  refine congrArg Except.ok (recordsIn_congr ?_ (Nat.le_of_eq holds.position.symm))
  show slotBytes (cutTo (slotsUp content.length) content) log.position = _
  rw [slotBytes, take_cutTo (Nat.le_trans long filled) long, same, slotBytes]

/-- A change that stops before its position is written has not been made, and one that stops later
has been. -/
theorem Change.opensAt_of_steps (holds : log.Holds history)
    (settled : headerPosition log.file.content = log.position) (change : Change)
    {done : List FileStep} {left : List UInt8}
    (cut : CutOff log.file.content (change.steps log) done left) :
    ((∃ position, positionStep position ∈ done) →
        OpensAt left (change.target log) (change.past history)) ∧
      ((∀ position, positionStep position ∉ done) → OpensAt left log.position history.past) := by
  obtain ⟨spares, unwritten⟩ := ownSteps_spare log change
  have kept {done : List FileStep} {left : List UInt8}
      (cut : CutOff log.file.content (change.ownSteps log) done left) :
      OpensAt left log.position history.past :=
    holds.opensAt settled (cut.take_of_spares holds.bounds.2 spares)
  rw [Change.steps] at cut
  rcases cut.append with within | ⟨rest, rfl, behind⟩
  · -- the steps that were done are among the change's own ones, so the header is the old one
    refine ⟨fun ⟨position, member⟩ => ?_, fun _ => kept within⟩
    exact absurd (within.done_prefix.subset member) (unwritten position)
  · rcases cutOff_settleSteps behind with ⟨rfl, rfl⟩ | ⟨small, rfl, rfl⟩
    · refine ⟨fun ⟨position, member⟩ => ?_, fun _ => kept (.of_all _ _)⟩
      rw [List.append_nil] at member
      exact absurd member (unwritten position)
    · refine ⟨fun _ => ?_, fun none => ?_⟩
      · obtain ⟨next, file, position, nextHolds⟩ := holds_target holds change
        rw [← DeviceFile.content_makeAll, ← file, ← position]
        rw [← position] at small
        have held := headerPosition_settledContent (le_length_of_header nextHolds.header) small
        have lasting := (nextHolds.settled (UInt64.ofNat next.position)).opensAt held rfl
        rwa [past_apply] at lasting
      · exact absurd (List.mem_append_right _ (List.mem_singleton_self _)) (none _)

/-! ### Runs -/

/-- Where the last of some operations settles the log, its header holds its position. -/
theorem Holds.headerPosition_of_settled (holds : log.Holds history)
    {operations : List LogOperation} {answers : List (Option (UInt64 × UInt8))} {current : EditLog}
    (ran : LogOperation.runAll operations log = .ok answers current)
    (settled : ∀ operation ∈ operations.getLast?, operation = .settle)
    (before : operations = [] → headerPosition log.file.content = log.position) :
    headerPosition current.file.content = current.position := by
  induction operations generalizing log history answers with
  | nil =>
    cases ran
    exact before rfl
  | cons operation rest inductionHypothesis =>
    obtain ⟨answer, next, others, ranFirst, ranRest⟩ := LogOperation.ok_of_runAll ran
    have nextHolds : next.Holds (operation.apply history).2 := by
      rcases holds.run operation with ⟨_, same, nextHolds⟩ | ⟨_, failed, _⟩
      · rw [ranFirst] at same
        cases same
        exact nextHolds
      · rw [ranFirst] at failed
        cases failed
    cases rest with
    | nil =>
      refine inductionHypothesis nextHolds ranRest (fun _ member => by cases member) fun _ => ?_
      cases settled operation rfl
      obtain ⟨_, between, ranSettle, done⟩ := Action.ok_of_bind ranFirst
      cases done
      by_cases small : log.position ≤ wordLimit
      · rw [settle_of_le holds.sound small] at ranSettle
        cases ranSettle
        exact headerPosition_settledContent (le_length_of_header holds.header) small
      · rw [settle_of_gt holds.sound (Nat.not_le.1 small)] at ranSettle
        cases ranSettle
    | cons second others =>
      exact inductionHypothesis nextHolds ranRest settled fun empty => by cases empty

/-- A log that is settled after every change can be opened again wherever the work on it stops: at
its position with the records that are done, as long as the header is not rewritten, and from then
on at the new position with the records that are done behind the change. The stops are those among
the changes that the file keeps account of while the change is made and settled. -/
theorem opensAt_of_cut {content left : List UInt8} {log current : EditLog}
    {operations : List LogOperation} {answers : List (Option (UInt64 × UInt8))}
    (opened : openContent content = (.ok log, left))
    (ran : LogOperation.runAll operations log = .ok answers current)
    (settled : ∀ operation ∈ operations.getLast?, operation = .settle) :
    headerPosition current.file.content = current.position ∧
      ∃ history, current.Shows history ∧ ∀ change : Change, ∃ made,
        Accounts current (Action.left (LogOperation.runAll [change.operation, .settle] current))
          made ∧
        (∀ done remains, CutOff current.file.content made done remains →
          ((∃ position, positionStep position ∈ done) →
              OpensAt remains (change.target current) (change.past history)) ∧
            ((∀ position, positionStep position ∉ done) →
              OpensAt remains current.position history.past)) ∧
        match LogOperation.runAll [change.operation, .settle] current with
        | .ok _ next =>
          next.position = change.target current ∧ ∃ position, positionStep position ∈ made
        | .error _ stuck => offsetLimit ≤ stuck.position + slotSize := by
  obtain ⟨_, header, opening, openingHolds⟩ := holds_of_open opened
  have held := openingHolds.headerPosition_of_settled ran settled fun _ => header
  rcases openingHolds.runAll operations with ⟨_, same, holds⟩ | ⟨_, _, failed, _⟩
  · rw [ran] at same
    cases same
    refine ⟨held, _, holds.shows_history, fun change => ?_⟩
    obtain ⟨made, part, accounts, ended⟩ := Change.accounts_runAll holds change
    exact ⟨made, accounts, fun _ _ cut => Change.opensAt_of_steps holds held change
      (cut.of_prefix part), ended⟩
  · rw [ran] at failed
    cases failed

def freshLog : EditLog where
  file := { content := logHeader 16 }
  position := 16
  stop := 16

/-- The same log when an edit has been entered and settled. -/
def settledLog : EditLog where
  file :=
    { content := logHeader 32 ++ EditRecord.encode ⟨5, 1, 2⟩
      made := enterSteps 16 ⟨5, 1, 2⟩ ++ settleSteps 32 }
  position := 32
  stop := 32

theorem opensAt_of_cut_settledLog :
    openContent [] = (.ok freshLog, freshLog.file.content) ∧
      LogOperation.runAll [.enter ⟨5, 1, 2⟩, .settle] freshLog = .ok [none, none] settledLog ∧
      headerPosition settledLog.file.content = settledLog.position ∧
      ∃ history, settledLog.Shows history ∧ ∀ change : Change, ∃ made,
        Accounts settledLog
          (Action.left (LogOperation.runAll [change.operation, .settle] settledLog)) made ∧
        (∀ done remains, CutOff settledLog.file.content made done remains →
          ((∃ position, positionStep position ∈ done) →
              OpensAt remains (change.target settledLog) (change.past history)) ∧
            ((∀ position, positionStep position ∉ done) →
              OpensAt remains settledLog.position history.past)) ∧
        match LogOperation.runAll [change.operation, .settle] settledLog with
        | .ok _ next =>
          next.position = change.target settledLog ∧ ∃ position, positionStep position ∈ made
        | .error _ stuck => offsetLimit ≤ stuck.position + slotSize := by
  have opened : openContent [] = (.ok freshLog, freshLog.file.content) := rfl
  have ran : LogOperation.runAll [.enter ⟨5, 1, 2⟩, .settle] freshLog =
      .ok [none, none] settledLog := rfl
  exact ⟨opened, ran, opensAt_of_cut opened ran (by decide)⟩

end EditLog

end HexEditor
