/-
What operations on a log come to on a device that may fail in any way. As long as the log stands,
and no file is longer than files can be, an operation fails only for an error of the system and
with a failure of its own kind, and it leaves a log with which the next one can go on.
-/

import HexEditor.Proofs.History.Durability
import HexEditor.Proofs.Storage.Failures

namespace HexEditor

/-! ### Devices -/

/-- A step leaves content as long as it was, or as long as it reaches. -/
theorem FileStep.length_effect_le (step : FileStep) (content : List UInt8) :
    (step.effect content).length ≤ max content.length step.reach := by
  cases step with
  | write offset bytes whole =>
    simp only [effect, reach, writeAt, List.length_append, List.length_drop, length_cutTo]
    omega
  | truncate length =>
    rw [effect, length_cutTo]
    exact Nat.le_max_right _ _
  | _ => exact Nat.le_max_left _ _

/-- A part of a step reaches no further. -/
theorem FileStep.Part.reach_le {part step : FileStep} (isPart : Part part step) :
    part.reach ≤ step.reach := by
  cases isPart with
  | whole => exact Nat.le_refl _
  | write first => exact Nat.add_le_add_left first.length_le _

namespace DeviceFile

variable {file next : DeviceFile} {step : FileStep}

/-- No step makes a file longer than files can be. -/
theorem length_le_of_perform (small : file.content.length ≤ offsetLimit) (step : FileStep) :
    (file.perform step).2.content.length ≤ offsetLimit := by
  rcases file.perform_cases step with same | ⟨room, part, isPart, made⟩
  · rw [same]
    exact small
  · have within := Nat.le_trans isPart.reach_le (Nat.le_of_lt room)
    rw [made, content_make]
    exact Nat.le_trans (part.length_effect_le _) (Nat.max_le.2 ⟨small, within⟩)

theorem systemError_of_perform {cause : StorageFailure}
    (failed : file.perform step = (.error cause, next)) : cause.isSystemError = true := by
  rw [perform] at failed
  split at failed
  · cases failed
    rfl
  · rw [Prod.mk.injEq] at failed
    split at failed
    · cases failed.1
      rfl
    · cases failed.1

theorem systemError_of_read {offset count : Nat} {cause : StorageFailure}
    (failed : file.read offset count = .error cause) : cause.isSystemError = true := by
  unfold read at failed
  split at failed
  · cases failed
    rfl
  split at failed
  · cases failed
    rfl
  dsimp only at failed
  generalize (if file.faults.shortRead = true
    then ((file.content.drop offset).take count).dropLast
    else (file.content.drop offset).take count) = bytes at failed
  split at failed
  · cases failed
    rfl
  · cases failed

end DeviceFile

namespace EditLog

/-- A log in a file that is no longer than files can be. -/
def Fits (log : EditLog) : Prop := log.file.content.length ≤ offsetLimit

/-- A failure of an operation whose cause is an error of the system. -/
def IsDueTo (kind : StorageFailure → LogFailure) (failure : LogFailure) : Prop :=
  ∃ cause, cause.isSystemError = true ∧ failure = kind cause

/-- Steps on the file of a log fail for errors of the system. -/
theorem ends_perform (kind : StorageFailure → LogFailure) (steps : List FileStep) :
    Action.Ends Fits (IsDueTo kind) (perform kind steps) := by
  intro log fits
  induction steps generalizing log with
  | nil => exact fits
  | cons step rest inductionHypothesis =>
    have small := DeviceFile.length_le_of_perform fits step
    rcases performed : log.file.perform step with ⟨outcome, file⟩
    rw [performed] at small
    cases outcome with
    | error cause =>
      rw [perform_cons_of_error performed]
      exact ⟨small, cause, DeviceFile.systemError_of_perform performed, rfl⟩
    | ok =>
      rw [perform_cons_of_ok performed]
      exact inductionHypothesis { log with file } small

/-! ### Operations -/

/-- A log that stands, in a file that is no longer than files can be. -/
def Usable (log : EditLog) : Prop := log.Standing ∧ log.Fits

/-- An operation keeps a log usable, and has failures of one kind. -/
abbrev EndsUsable (kind : StorageFailure → LogFailure) {Value : Type}
    (operation : EditLog.Action Value) : Prop :=
  Action.Ends Usable (IsDueTo kind) operation

/-- An edit at an address that is a word fits into a record. -/
theorem ends_enter (address : UInt64) (old new : UInt8) :
    EndsUsable .notEntered (enter address.toNat old.toNat new.toNat) := by
  refine (Standing.enter _ _ _).ends fun log _ =>
    Action.ends_bind (ends_perform _ _) (fun _ => ?_) log
  rw [EditRecord.ofInts?_toNat ⟨address, old, new⟩]
  refine Action.ends_get_bind fun log => ?_
  refine Action.ends_bind (ends_perform _ _) fun _ => ?_
  exact Action.ends_bind (Action.ends_modify fun _ fits => fits) fun _ => ends_perform _ _

/-- The position of a log that stands is a word. -/
theorem ends_settle : EndsUsable .notSettled settle := by
  refine Standing.settle.ends fun log standing fits => ?_
  rw [settle_eq_perform standing.position_le_wordLimit]
  exact ends_perform _ _ log fits

theorem ends_readRecord (slot : Nat) :
    Action.Ends Fits (IsDueTo .notRead) (readRecord slot) := by
  intro log fits
  rw [readRecord, recordAt]
  cases found : log.file.read slot slotSize with
  | ok bytes => exact fits
  | error cause => exact ⟨fits, cause, DeviceFile.systemError_of_read found, rfl⟩

/-- A step through the records reads one of them, if there is one. -/
theorem ends_undo : EndsUsable .notRead undo := by
  refine Standing.undo.ends fun log _ => Action.ends_get_bind (fun log => ?_) log
  split
  · refine Action.ends_bind (ends_readRecord _) fun record => ?_
    exact Action.ends_bind (Action.ends_modify fun _ fits => fits) fun _ => Action.ends_pure _
  · exact Action.ends_pure none

theorem ends_redo : EndsUsable .notRead redo := by
  refine Standing.redo.ends fun log _ => Action.ends_get_bind (fun log => ?_) log
  split
  · refine Action.ends_bind (ends_readRecord _) fun record => ?_
    exact Action.ends_bind (Action.ends_modify fun _ fits => fits) fun _ => Action.ends_pure _
  · exact Action.ends_pure none

theorem Usable.withFaults {log : EditLog} (usable : log.Usable) (faults : DeviceFaults) :
    (log.withFaults faults).Usable :=
  ⟨⟨usable.1.carries, usable.1.slots, usable.1.bounds, usable.1.small⟩, usable.2⟩

/-- A log that is opened in a file of a possible length is usable. -/
theorem usable_of_open {content left : List UInt8} {log : EditLog}
    (possible : content.length ≤ offsetLimit)
    (opened : openContent content = (.ok log, left)) : log.Usable := by
  have standing := Standing.of_open possible opened
  obtain ⟨-, -, history, holds⟩ := holds_of_open opened
  refine ⟨standing, ?_⟩
  rw [Fits, holds.shows_history.size]
  exact standing.small

end EditLog

end HexEditor
