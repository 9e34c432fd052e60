/-
What is left of a log whose header was not rewritten for some time. The position in the
header is then that of an earlier moment, and nothing but the length of the file keeps
it from being one of the file. Undoing and redoing do not change the length. Entering a
record cuts the file behind the record, so it is open to question what becomes of a
header that is further ahead: as long as it leads the position by one record at most it
stays inside the file, and if it leads by more the file does not open until the log is
settled.
-/

import HexEditor.Proofs.History.Crash

namespace HexEditor

/-- A step whose write starts inside the first bytes, or that cuts nothing off of them, leaves the
content as long as they are. -/
theorem FileStep.le_length_effect {bound : Nat} {content : List UInt8} {step : FileStep}
    (starts : ∀ offset bytes whole, step = .write offset bytes whole → offset ≤ bound)
    (cuts : ∀ length, step = .truncate length → bound ≤ length) (long : bound ≤ content.length) :
    bound ≤ (step.effect content).length := by
  cases step with
  | write offset bytes whole =>
    have inside := Nat.le_trans (starts offset bytes whole rfl) long
    rw [effect, length_writeAt inside]
    exact Nat.le_trans long (Nat.le_max_left _ _)
  | truncate length =>
    rw [effect, length_cutTo]
    exact cuts length rfl
  | seek => exact long
  | flush => exact long
  | sync => exact long

/-- Work whose writes start inside the first bytes, and that cuts nothing off of them, leaves the
content as long as they are wherever it stops. -/
theorem CutOff.le_length {bound : Nat} {content left : List UInt8} {steps done : List FileStep}
    (cut : CutOff content steps done left)
    (starts : ∀ offset bytes whole, .write offset bytes whole ∈ steps → offset ≤ bound)
    (cuts : ∀ length, .truncate length ∈ steps → bound ≤ length)
    (long : bound ≤ content.length) : bound ≤ left.length := by
  induction cut with
  | before => exact long
  | within written =>
    have inside := Nat.le_trans (starts _ _ _ List.mem_cons_self) long
    rw [length_writeAt inside]
    exact Nat.le_trans long (Nat.le_max_left _ _)
  | behind cut inductionHypothesis =>
    refine inductionHypothesis
      (fun offset bytes whole member => starts offset bytes whole (List.mem_cons_of_mem _ member))
      (fun length member => cuts length (List.mem_cons_of_mem _ member)) ?_
    refine FileStep.le_length_effect ?_ ?_ long
    · rintro offset bytes whole rfl
      exact starts _ _ _ List.mem_cons_self
    · rintro length rfl
      exact cuts _ List.mem_cons_self

namespace EditLog

/-! ### Content that opens -/

/-- Some content has a header with a position of the content. -/
structure Openable (content : List UInt8) : Prop where
  header : headerFault? content = none
  slot : 16 ∣ headerPosition content
  first : 16 ≤ headerPosition content
  inside : headerPosition content ≤ content.length

/-- Some content opens as a log. -/
def Opens (content : List UInt8) : Prop :=
  ∃ log left, openContent content = (.ok log, left)

variable {log : EditLog} {history : History} {content : List UInt8}

theorem Openable.opens (openable : Openable content) : Opens content :=
  ⟨_, _, openContent_of_header openable.header rfl (Nat.mod_eq_zero_of_dvd openable.slot)
    openable.first (Nat.le_trans openable.inside (slotsUp_bounds _).1)⟩

/-- Content with the same header opens if it is long enough. -/
theorem Openable.of_take (openable : Openable content) {other : List UInt8}
    (same : other.take 16 = content.take 16) (long : headerPosition content ≤ other.length) :
    Openable other := by
  have position := headerPosition_eq_of_take same
  refine ⟨?_, position ▸ openable.slot, position ▸ openable.first, position ▸ long⟩
  exact (headerFault?_eq_of_take same (le_length_of_header openable.header)).trans openable.header

/-- A log whose header holds its position has content that opens. -/
theorem Holds.openable (holds : log.Holds history)
    (settled : headerPosition log.file.content = log.position) : Openable log.file.content := by
  have shown := holds.shows_history
  refine ⟨holds.header, ?_, ?_, ?_⟩ <;> rw [settled]
  · exact shown.slots.1
  · exact shown.bounds.1
  · exact holds.bounds.2

/-- Content behind settling a log opens. -/
theorem Holds.openable_settled (holds : log.Holds history) (small : log.position ≤ wordLimit) :
    Openable (settledContent log.file.content (UInt64.ofNat log.position)) :=
  (holds.settled (UInt64.ofNat log.position)).openable
    (headerPosition_settledContent (le_length_of_header holds.header) small)

/-! ### Changes that may not be settled -/

/-- Settling a log that holds a history leaves one, with a file in which the changes are made. -/
theorem Holds.left_settle (holds : log.Holds history) :
    (Action.left (EditLog.settle log)).file = log.file.makeAll (settleSteps log.position) ∧
      (Action.left (EditLog.settle log)).Holds history := by
  rcases settle_cases holds.sound with ⟨next, settled, file, -, small⟩ | ⟨failure, failed, none, -⟩
  · obtain ⟨_, same, nextHolds, -⟩ := holds.settle small
    rw [settled] at same
    cases same
    rw [settled]
    exact ⟨file, nextHolds⟩
  · rw [failed, none]
    exact ⟨rfl, holds⟩

/-- The header of a log leads its position by one record at most. -/
def Near (log : EditLog) : Prop := headerPosition log.file.content ≤ log.position + slotSize

namespace Change

/-- The steps of a change on the file, which is settled if `settled` says so. -/
def stepsUntil (settled : Bool) (log : EditLog) (change : Change) : List FileStep :=
  change.ownSteps log ++ if settled then settleSteps (change.target log) else []

theorem isChange_of_stepsUntil {settled : Bool} {change : Change} {step : FileStep}
    (member : step ∈ change.stepsUntil settled log) : step.isChange = true := by
  refine isChange_of_steps
    (List.mem_append.2 ((List.mem_append.1 member).imp_right fun within => ?_))
  cases settled with
  | true => exact within
  | false => cases within

/-- The own steps of a change leave content that opens wherever they stop, unless a record is
entered while the header leads by more than one. -/
theorem openable_of_ownSteps (holds : log.Holds history) (openable : Openable log.file.content)
    (change : Change) (near : ∀ record, change = .enter record → log.Near) {done : List FileStep}
    {left : List UInt8} (cut : CutOff log.file.content (change.ownSteps log) done left) :
    Openable left := by
  obtain ⟨first, inside⟩ := holds.bounds
  have idle (none : change.ownSteps log = []) : Openable left := by
    rw [none] at cut
    cases cut
    exact openable
  cases change with
  | enter record =>
    have lead : headerPosition log.file.content ≤ log.position + slotSize := near record rfl
    refine openable.of_take ?_ ?_
    · exact take_of_take first
        (cut.take_of_spares inside (ownSteps_spare log (.enter record)).1)
    · -- the record is written at the position, and what is cut off lies behind both positions
      have long : max (headerPosition log.file.content) log.position ≤ left.length := by
        refine cut.le_length ?_ ?_ (Nat.max_le.2 ⟨openable.inside, inside⟩)
        · intro offset bytes whole member
          simp only [ownSteps, enterSteps, recordStep, List.mem_cons, FileStep.write.injEq,
            reduceCtorEq, List.not_mem_nil, or_false] at member
          rw [member.1]
          exact Nat.le_max_right _ _
        · intro length member
          simp only [ownSteps, enterSteps, recordStep, List.mem_cons, FileStep.truncate.injEq,
            reduceCtorEq, List.not_mem_nil, false_or, or_false] at member
          rw [member]
          exact Nat.max_le.2 ⟨lead, Nat.le_add_right _ _⟩
      exact Nat.le_trans (Nat.le_max_left _ _) long
  | undo => exact idle rfl
  | redo => exact idle rfl

/-- A change leaves content that opens wherever it stops, whether it is settled or not, unless a
record is entered while the header leads by more than one. -/
theorem openable_of_stepsUntil (holds : log.Holds history) (openable : Openable log.file.content)
    (change : Change) (settled : Bool) (near : ∀ record, change = .enter record → log.Near)
    {done : List FileStep} {left : List UInt8}
    (cut : CutOff log.file.content (change.stepsUntil settled log) done left) : Openable left := by
  rcases cut.append with within | ⟨rest, -, behind⟩
  · exact openable_of_ownSteps holds openable change near within
  have kept := openable_of_ownSteps holds openable change near (.of_all _ _)
  cases settled with
  | false =>
    rw [if_neg Bool.false_ne_true] at behind
    cases behind
    exact kept
  | true =>
    rw [if_pos rfl] at behind
    rcases cutOff_settleSteps behind with ⟨rfl, -⟩ | ⟨small, rfl, -⟩
    · exact kept
    · obtain ⟨next, file, position, nextHolds⟩ := holds_target holds change
      rw [← DeviceFile.content_makeAll, ← file, ← position]
      exact nextHolds.openable_settled (position ▸ small)

/-- A change that is made is settled or not, in its steps. -/
theorem stepsUntil_of_ok (holds : log.Holds history) (change : Change)
    {answer : Option (UInt64 × UInt8)} {next : EditLog}
    (ran : change.operation.run log = .ok answer next) (settled : Bool) :
    (if settled then Action.left (EditLog.settle next) else next).file =
        log.file.makeAll (change.stepsUntil settled log) ∧
      ∃ history, (if settled then Action.left (EditLog.settle next) else next).Holds history := by
  rcases run_cases holds change with ⟨_, same, file, position, nextHolds⟩ | ⟨_, failed, -⟩
  · rw [ran] at same
    cases same
    rw [stepsUntil, DeviceFile.makeAll_append, ← file, ← position]
    cases settled with
    | false => exact ⟨rfl, _, nextHolds⟩
    | true => exact ⟨nextHolds.left_settle.1, _, nextHolds.left_settle.2⟩
  · rw [ran] at failed
    cases failed

/-- A change that there is no room for changes nothing. -/
theorem eq_of_error (holds : log.Holds history) (change : Change) {failure : LogFailure}
    {next : EditLog} (failed : change.operation.run log = .error failure next) : next = log := by
  rcases run_cases holds change with ⟨_, ran, -⟩ | ⟨_, same, -⟩
  · rw [failed] at ran
    cases ran
  · rw [failed] at same
    cases same
    rfl

/-- A record that is entered while the header leads by more than one cuts off the slot at the
position in the header, and until the log is settled the file does not open. -/
theorem openContent_of_enter (holds : log.Holds history) (record : EditRecord)
    (far : log.position + slotSize < headerPosition log.file.content) :
    ∃ remains, CutOff log.file.content (ownSteps log (.enter record)) (ownSteps log (.enter record))
        remains ∧
      openContent remains =
        (.error (.position (headerPosition log.file.content)), remains) := by
  obtain ⟨first, inside⟩ := holds.bounds
  obtain ⟨next, file, position, nextHolds⟩ := holds_target holds (.enter record)
  have cut := CutOff.of_all log.file.content (ownSteps log (.enter record))
  rw [← DeviceFile.content_makeAll, ← file] at cut
  have front : next.file.content.take 16 = log.file.content.take 16 :=
    take_of_take first (cut.take_of_spares inside (ownSteps_spare log (.enter record)).1)
  have stop : next.stop = log.position + slotSize := by
    have count : (history.enter record).records.length = history.index + 1 := by
      show (history.past ++ [record]).length = _
      rw [List.length_append, History.length_past]
      rfl
    have there : next.stop = 16 + 16 * (history.enter record).records.length := nextHolds.stop
    rw [there, count, holds.position, slotSize]
    omega
  refine ⟨_, cut, ?_⟩
  rw [← headerPosition_eq_of_take front] at far ⊢
  exact nextHolds.openContent_of_far (stop ▸ far)

end Change

end EditLog

end HexEditor
