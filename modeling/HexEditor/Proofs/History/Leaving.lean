/-
What a call that fails leaves of the history. Undoing and redoing move the position only
once the record is read, and entering an edit moves it only once the record is written. So
a call that fails up to there leaves the position and the records below it as they were,
and the next undo gives what it would have given. There is one exception: entering an edit
cuts the file behind the record last of all, when the position has moved already. Where
that step is refused the call fails, and the edit stays in the history all the same: the
next undo gives the edit.
-/

import HexEditor.Proofs.History.Durability

namespace HexEditor

namespace DeviceFile

variable {file next : DeviceFile} {step : FileStep} {cause : StorageFailure}

/-- A step that fails is refused, or it is one that has to be done as a whole and is not. -/
theorem perform_eq_error (failed : file.perform step = (.error cause, next)) :
    (cause = .refused step.operation ∧ next = file) ∨
      (cause = .shortWrite ∧ step.isWhole = true ∧ file.faults.shortWrite.isSome = true ∧
        next = file.carry step) := by
  rw [perform] at failed
  split at failed
  · cases failed
    exact .inl ⟨rfl, rfl⟩
  · rw [Prod.mk.injEq] at failed
    obtain ⟨failed, rfl⟩ := failed
    split at failed
    · next short =>
      cases failed
      rw [Bool.and_eq_true] at short
      exact .inr ⟨rfl, short.1, short.2, rfl⟩
    · cases failed

/-- Any other step than one that has to be done as a whole fails only if it is refused. -/
theorem eq_of_lax (lax : step.isWhole = false)
    (failed : file.perform step = (.error cause, next)) :
    cause = .refused step.operation ∧ next = file := by
  rcases perform_eq_error failed with refused | ⟨-, whole, -⟩
  · exact refused
  · rw [lax] at whole
    cases whole

/-- Seeking leaves a file as it was. -/
theorem eq_of_seek (sought : file.perform .seek = (.ok (), next)) : next = file := by
  rw [perform] at sought
  split at sought
  · cases sought
  · rw [Prod.mk.injEq] at sought
    exact sought.2.symm

end DeviceFile

/-- A record of some numbers has these numbers. -/
theorem EditRecord.eq_of_ofInts? {address old new : Int} {record : EditRecord}
    (fits : ofInts? address old new = some record) :
    address = record.address.toNat ∧ old = record.old.toNat ∧ new = record.new.toNat := by
  unfold ofInts? at fits
  split at fits
  · next first second third =>
    cases fits
    exact ⟨toNat_of_word? first, (toNat_of_byte? second).symm, (toNat_of_byte? third).symm⟩
  · cases fits

namespace EditLog

variable {log after : EditLog}

/-! ### The records below the position -/

theorem Standing.position_eq (standing : log.Standing) : log.position = 16 + 16 * log.index := by
  obtain ⟨slots, bounds⟩ := And.intro standing.slots standing.bounds
  rw [index]
  omega

/-- The records below the position of a log that stands can be read as soon as nothing fails. -/
theorem Standing.past_eq (standing : log.Standing) :
    (log.withFaults {}).past = .ok (recordsIn log.file.content log.index) := by
  obtain ⟨slots, bounds⟩ := And.intro standing.slots standing.bounds
  have size := standing.carries.inside
  have inside : 16 + 16 * (log.withFaults {}).count ≤ log.file.content.length := by
    show 16 + 16 * ((log.stop - 16) / 16) ≤ _
    omega
  have within : log.index ≤ (log.withFaults {}).count := by
    show (log.position - 16) / 16 ≤ (log.stop - 16) / 16
    omega
  have read : (log.withFaults {}).records =
      .ok (recordsIn log.file.content (log.withFaults {}).count) :=
    records_of_sound rfl inside
  rw [past, read, ← take_recordsIn log.file.content within]
  rfl

/-- As soon as nothing fails, undoing gives the last one of the records below the position. -/
theorem Standing.undo_eq (standing : log.Standing) :
    ∃ next, EditLog.undo (log.withFaults {}) =
      .ok ((recordsIn log.file.content log.index).getLast?.map fun record =>
        (record.address, record.old)) next := by
  have here : (log.withFaults {}).position = 16 + 16 * log.index := standing.position_eq
  cases last : log.index with
  | zero => exact ⟨_, undo_of_first (by omega)⟩
  | succ number =>
    have inside : (log.withFaults {}).position ≤ (log.withFaults {}).file.content.length :=
      Nat.le_trans standing.bounds.2 standing.carries.inside
    rw [recordsIn_succ, List.getLast?_concat]
    exact ⟨_, undo_of_slot rfl (by omega) inside⟩

/-! ### Undoing and redoing -/

theorem eq_of_readRecord {slot : Nat} {failure : LogFailure}
    (failed : readRecord slot log = .error failure after) :
    after = log ∧ ∃ cause, failure = .notRead cause := by
  unfold readRecord at failed
  split at failed
  · cases failed
  · cases failed
    exact ⟨rfl, _, rfl⟩

/-- A move over a record that fails did not read the record, and leaves the log as it was. -/
theorem eq_of_moveOver {possible : Prop} [Decidable possible] {slot : Nat}
    {move : EditLog → EditLog} {answer : EditRecord → UInt64 × UInt8} {failure : LogFailure}
    (failed : (if possible then do
        let record ← readRecord slot
        modify move
        return some (answer record)
      else return none : Action (Option (UInt64 × UInt8))) log = .error failure after) :
    after = log ∧ ∃ cause, failure = .notRead cause := by
  split_ifs at failed
  · rcases Action.error_of_bind failed with failed | ⟨_, _, _, done⟩
    · exact eq_of_readRecord failed
    · cases done
  · cases failed

theorem undo_of_error {failure : LogFailure} (failed : undo log = .error failure after) :
    after = log ∧ ∃ cause, failure = .notRead cause := by
  rw [undo, Action.bind_get] at failed
  exact eq_of_moveOver failed

theorem redo_of_error {failure : LogFailure} (failed : redo log = .error failure after) :
    after = log ∧ ∃ cause, failure = .notRead cause := by
  rw [redo, Action.bind_get] at failed
  exact eq_of_moveOver failed

/-! ### Entering an edit -/

/-- A step that fails has left a file behind it. -/
theorem error_of_perform_one {kind : StorageFailure → LogFailure} {step : FileStep}
    {failure : LogFailure} (failed : perform kind [step] log = .error failure after) :
    ∃ cause file, log.file.perform step = (.error cause, file) ∧ failure = kind cause ∧
      after = { log with file } := by
  rcases performed : log.file.perform step with ⟨outcome, file⟩
  cases outcome with
  | ok =>
    rw [perform_cons_of_ok performed] at failed
    cases failed
  | error cause =>
    rw [perform_cons_of_error performed] at failed
    cases failed
    exact ⟨cause, file, rfl, rfl, rfl⟩

/-- A step that need not be done as a whole leaves the log as it was if it fails. -/
theorem error_of_perform_lax {kind : StorageFailure → LogFailure} {step : FileStep}
    {failure : LogFailure} (lax : step.isWhole = false)
    (failed : perform kind [step] log = .error failure after) :
    after = log ∧ failure = kind (.refused step.operation) := by
  obtain ⟨cause, file, refused, rfl, rfl⟩ := error_of_perform_one failed
  obtain ⟨rfl, rfl⟩ := DeviceFile.eq_of_lax lax refused
  exact ⟨rfl, rfl⟩

/-- Seeking leaves a log as it was. -/
theorem eq_of_seek {kind : StorageFailure → LogFailure}
    (sought : perform kind [.seek] log = .ok () after) : after = log := by
  obtain ⟨file, performed, rfl⟩ := eq_of_perform_one sought
  rw [DeviceFile.eq_of_seek performed]

/-- A log whose file has a record at the position, and whose position has moved over it. -/
def overRecord (log : EditLog) (file : DeviceFile) : EditLog :=
  { file, position := log.position + slotSize, stop := log.position + slotSize }

/-- Entering an edit that fails leaves the log as it was, unless a part of the record is written or
it fails at the last step: then the record is written and the position has moved over it. -/
theorem enter_of_error {address old new : Int} {failure : LogFailure}
    (failed : enter address old new log = .error failure after) :
    (after = log ∧ failure ≠ .notEntered (.refused .truncate)) ∨
      (failure = .notEntered .shortWrite ∧ log.file.faults.shortWrite.isSome = true ∧
        ∃ record, after = { log with file := log.file.carry (recordStep log.position record) }) ∨
      failure = .notEntered (.refused .truncate) ∧
        ∃ record file, EditRecord.ofInts? address old new = some record ∧
          log.file.perform (recordStep log.position record) = (.ok (), file) ∧
          after = log.overRecord file := by
  rw [enter] at failed
  rcases Action.error_of_bind failed with failed | ⟨_, between, sought, failed⟩
  · obtain ⟨same, rfl⟩ := error_of_perform_lax rfl failed
    exact .inl ⟨same, by rintro ⟨⟩⟩
  cases eq_of_seek sought
  cases fits : EditRecord.ofInts? address old new with
  | none =>
    rw [fits] at failed
    cases failed
    exact .inl ⟨rfl, LogFailure.noConfusion⟩
  | some record =>
    rw [fits] at failed
    dsimp only at failed
    rw [Action.bind_get] at failed
    rcases Action.error_of_bind failed with failed | ⟨_, between, written, failed⟩
    · obtain ⟨cause, file, stopped, rfl, rfl⟩ := error_of_perform_one failed
      rcases DeviceFile.perform_eq_error stopped with ⟨rfl, rfl⟩ | ⟨rfl, -, short, rfl⟩
      · exact .inl ⟨rfl, by rintro ⟨⟩⟩
      · exact .inr (.inl ⟨rfl, short, record, rfl⟩)
    · obtain ⟨file, performed, rfl⟩ := eq_of_perform_one written
      rw [Action.bind_modify] at failed
      obtain ⟨rfl, rfl⟩ := error_of_perform_lax rfl failed
      exact .inr (.inr ⟨rfl, record, file, rfl, performed, rfl⟩)

theorem Standing.overRecord (standing : log.Standing) {record : EditRecord} {file : DeviceFile}
    (written : log.file.perform (recordStep log.position record) = (.ok (), file)) :
    (log.overRecord file).Standing :=
  standing.entered (perform_cons_of_ok written)

/-- A record that is written and passed over is the last one below the position, and those below it
are the ones that there were. -/
theorem Standing.recordsIn_overRecord (standing : log.Standing) {record : EditRecord}
    {file : DeviceFile}
    (written : log.file.perform (recordStep log.position record) = (.ok (), file)) :
    recordsIn (log.overRecord file).file.content (log.overRecord file).index =
      recordsIn log.file.content log.index ++ [record] := by
  have here := standing.position_eq
  have inside := Nat.le_trans standing.bounds.2 standing.carries.inside
  have content : (log.overRecord file).file.content =
      writeAt log.position record.encode log.file.content := by
    rw [EditLog.overRecord, (DeviceFile.eq_make_of_whole rfl written).1]
    rfl
  have number : (log.overRecord file).index = log.index + 1 := by
    have there := (standing.overRecord written).position_eq
    have moved : (log.overRecord file).position = log.position + slotSize := rfl
    rw [moved, slotSize] at there
    omega
  have below : slotBytes (log.overRecord file).file.content log.position =
      slotBytes log.file.content log.position := by
    rw [slotBytes, slotBytes, content, take_writeAt (Nat.le_refl _) inside]
  have slot : slotAt (log.overRecord file).file.content log.index = record.encode := by
    rw [slotAt, ← here, content, ← length_encode record, take_drop_writeAt inside]
  rw [number, recordsIn_succ, recordsIn_congr below (Nat.le_of_eq here.symm), slot,
    EditRecord.decode_encode]

/-- Two logs at the same position, with the same records below it as soon as nothing fails, so that
the next undo gives the same. -/
structure UndoesAlike (log other : EditLog) : Prop where
  position : log.position = other.position
  past : ∃ past, (log.withFaults {}).past = .ok past ∧ (other.withFaults {}).past = .ok past
  undo : ∃ answer next otherNext, EditLog.undo (log.withFaults {}) = .ok answer next ∧
    EditLog.undo (other.withFaults {}) = .ok answer otherNext

/-- Logs that stand undo alike where the bytes below their position are the same. -/
theorem Standing.undoesAlike {other : EditLog} (standing : log.Standing)
    (otherStanding : other.Standing) (position : log.position = other.position)
    (below : log.file.content.take log.position = other.file.content.take log.position) :
    log.UndoesAlike other := by
  have here := standing.position_eq
  have number : log.index = other.index := by rw [index, index, position]
  have records : recordsIn log.file.content log.index =
      recordsIn other.file.content other.index := by
    rw [← number]
    exact recordsIn_congr (congrArg (List.drop 16) below) (Nat.le_of_eq here.symm)
  obtain ⟨next, undone⟩ := standing.undo_eq
  obtain ⟨otherNext, otherUndone⟩ := otherStanding.undo_eq
  exact ⟨position, ⟨_, records ▸ standing.past_eq, otherStanding.past_eq⟩,
    _, next, otherNext, records ▸ undone, otherUndone⟩

/-- A part of a record that is written is not below the position. -/
theorem Standing.take_of_carry (standing : log.Standing) (record : EditRecord) :
    (log.file.carry (recordStep log.position record)).content.take log.position =
      log.file.content.take log.position := by
  have inside := Nat.le_trans standing.bounds.2 standing.carries.inside
  rcases log.file.carry_cases (recordStep log.position record) with same | ⟨part, isPart, made⟩
  · rw [same]
  · rw [made, DeviceFile.content_make]
    cases isPart with
    | whole => exact take_writeAt (Nat.le_refl _) inside
    | write => exact take_writeAt (Nat.le_refl _) inside

end EditLog

/-! ### Calls -/

/-- A call that changes the history. The numbers of an edit may be any. -/
inductive LogCall where
  | enter (address old new : Int)
  | undo
  | redo
  deriving DecidableEq, Repr

/-- What a call does to a log, and the address and byte that it gives, if any. -/
def LogCall.run : LogCall → EditLog.Action (Option (UInt64 × UInt8))
  | enter address old new => do
    EditLog.enter address old new
    return none
  | undo => EditLog.undo
  | redo => EditLog.redo

namespace EditLog

variable {log after : EditLog}

/-- A call that fails leaves the position and the records below it as they were, and but for a
record that is written in part the whole log, unless an edit is entered and cutting the file behind
its record is refused: then the edit has come into the history and is what the next undo gives. -/
theorem left_by_failure (reachable : log.Reachable) {call : LogCall} {failure : LogFailure}
    (failed : call.run log = .error failure after) :
    if failure = .notEntered (.refused .truncate) then
      ∃ record : EditRecord,
        call = .enter record.address.toNat record.old.toNat record.new.toNat ∧
          after.position = log.position + slotSize ∧
          (∃ past, (log.withFaults {}).past = .ok past ∧
            (after.withFaults {}).past = .ok (past ++ [record])) ∧
          ∃ next, EditLog.undo (after.withFaults {}) = .ok (some (record.address, record.old)) next
    else
      log.UndoesAlike after ∧
        (after = log ∨
          failure = .notEntered .shortWrite ∧ ∃ count, log.file.faults.shortWrite = some count ∧
            0 < count) := by
  have standing := reachable.standing
  have alike : log.UndoesAlike log := standing.undoesAlike standing rfl rfl
  cases call with
  | enter address old new =>
    rcases Action.error_of_bind failed with failed | ⟨_, _, _, done⟩
    · rcases enter_of_error failed with ⟨rfl, other⟩ | ⟨rfl, short, record, rfl⟩ |
        ⟨rfl, record, file, fits, written, rfl⟩
      · rw [if_neg other]
        exact ⟨alike, .inl rfl⟩
      · rw [if_neg (by rintro ⟨⟩)]
        have stands := Standing.enter address old new _ standing
        rw [failed] at stands
        refine ⟨standing.undoesAlike stands rfl (standing.take_of_carry record).symm, ?_⟩
        obtain ⟨count, given⟩ := Option.isSome_iff_exists.1 short
        rcases Nat.eq_zero_or_pos count with rfl | some
        · -- where no byte can be written the file stays as it was
          left
          rw [recordStep, DeviceFile.carry_of_short given]
          rfl
        · exact .inr ⟨rfl, count, given, some⟩
      · rw [if_pos rfl]
        obtain ⟨rfl, rfl, rfl⟩ := EditRecord.eq_of_ofInts? fits
        have stands := standing.overRecord written
        have records := standing.recordsIn_overRecord written
        obtain ⟨next, undone⟩ := stands.undo_eq
        rw [records, List.getLast?_concat] at undone
        exact ⟨record, rfl, rfl, ⟨_, standing.past_eq, records ▸ stands.past_eq⟩, next, undone⟩
    · cases done
  | undo =>
    obtain ⟨rfl, cause, rfl⟩ := undo_of_error failed
    rw [if_neg (by rintro ⟨⟩)]
    exact ⟨alike, .inl rfl⟩
  | redo =>
    obtain ⟨rfl, cause, rfl⟩ := redo_of_error failed
    rw [if_neg (by rintro ⟨⟩)]
    exact ⟨alike, .inl rfl⟩

/-- The log in which one edit has been entered and settled can be reached. -/
theorem reachable_settledLog : settledLog.Reachable := .settled reachable_enteredLog

/-- A log with two records below the position, of which the second one was entered by a call that
failed. -/
def overrunLog : EditLog where
  file :=
    { content := logHeader 32 ++ EditRecord.encode ⟨5, 1, 2⟩ ++ EditRecord.encode ⟨6, 3, 4⟩
      faults := { refused := [.truncate] }
      made := settledLog.file.made ++ [recordStep 32 ⟨6, 3, 4⟩] }
  position := 48
  stop := 48

theorem left_by_failure_settledLog :
    (settledLog.withFaults { refused := [.truncate] }).Reachable ∧
      (LogCall.enter 6 3 4).run (settledLog.withFaults { refused := [.truncate] }) =
        .error (.notEntered (.refused .truncate)) overrunLog ∧
      ∃ record : EditRecord,
        LogCall.enter 6 3 4 = .enter record.address.toNat record.old.toNat record.new.toNat ∧
          overrunLog.position = settledLog.position + slotSize ∧
          (∃ past, settledLog.past = .ok past ∧
            (overrunLog.withFaults {}).past = .ok (past ++ [record])) ∧
          ∃ next, EditLog.undo (overrunLog.withFaults {}) =
            .ok (some (record.address, record.old)) next := by
  have reachable : (settledLog.withFaults { refused := [.truncate] }).Reachable :=
    .faulted _ reachable_settledLog
  have failed : (LogCall.enter 6 3 4).run (settledLog.withFaults { refused := [.truncate] }) =
      .error (.notEntered (.refused .truncate)) overrunLog := rfl
  have left := left_by_failure reachable failed
  rw [if_pos rfl] at left
  exact ⟨reachable, failed, left⟩

/-- An edit whose call fails is undone by the next undo, in place of the edit before it. -/
theorem undo_of_failure :
    (settledLog.withFaults { refused := [.truncate] }).Reachable ∧
      (LogCall.enter 6 3 4).run (settledLog.withFaults { refused := [.truncate] }) =
        .error (.notEntered (.refused .truncate)) overrunLog ∧
      overrunLog.position ≠ settledLog.position ∧
      settledLog.past = .ok [⟨5, 1, 2⟩] ∧
      (overrunLog.withFaults {}).past = .ok [⟨5, 1, 2⟩, ⟨6, 3, 4⟩] ∧
      EditLog.undo settledLog = .ok (some (5, 1)) (settledLog.movedTo 16 32) ∧
      EditLog.undo (overrunLog.withFaults {}) =
        .ok (some (6, 3)) ((overrunLog.withFaults {}).movedTo 32 48) :=
  ⟨.faulted _ reachable_settledLog, rfl, by decide, rfl, rfl, rfl, rfl⟩

end EditLog

end HexEditor
