/-
What the operations of a log come to on a device without faults. There each step of an
operation succeeds unless the file would become too large, so an operation is told by
the content and the position that it leaves behind. Entering an edit fails only for
want of room, and settling only if the position is no word; the other operations do
not fail as long as the slot that they read is in the file. The account that the file
keeps is that of the steps that had their effect.
-/

import HexEditor.Proofs.Action
import HexEditor.Proofs.History.Content
import HexEditor.Proofs.Number.Word
import HexEditor.Proofs.Outcome

namespace HexEditor

/-! ### Devices without faults -/

namespace DeviceFile

variable {file : DeviceFile}

@[simp] theorem content_make (file : DeviceFile) (step : FileStep) :
    (file.make step).content = step.effect file.content := by
  cases step <;> rfl

@[simp] theorem faults_make (file : DeviceFile) (step : FileStep) :
    (file.make step).faults = file.faults := by
  cases step <;> rfl

/-- A file in which steps have had their effects. -/
def makeAll (file : DeviceFile) (steps : List FileStep) : DeviceFile := steps.foldl make file

@[simp] theorem content_makeAll (file : DeviceFile) (steps : List FileStep) :
    (file.makeAll steps).content = steps.foldl FileStep.effect file.content := by
  induction steps generalizing file with
  | nil => rfl
  | cons step rest inductionHypothesis =>
    rw [List.foldl_cons, ← content_make]
    exact inductionHypothesis (file.make step)

@[simp] theorem faults_makeAll (file : DeviceFile) (steps : List FileStep) :
    (file.makeAll steps).faults = file.faults := by
  induction steps generalizing file with
  | nil => rfl
  | cons step rest inductionHypothesis =>
    exact (inductionHypothesis (file.make step)).trans (file.faults_make step)

theorem makeAll_append (file : DeviceFile) (first second : List FileStep) :
    file.makeAll (first ++ second) = (file.makeAll first).makeAll second :=
  List.foldl_append

/-- The account grows by the changes. -/
theorem made_makeAll (file : DeviceFile) {steps : List FileStep}
    (changes : ∀ step ∈ steps, step.isChange = true) :
    (file.makeAll steps).made = file.made ++ steps := by
  induction steps generalizing file with
  | nil => exact (List.append_nil _).symm
  | cons step rest inductionHypothesis =>
    obtain ⟨here, behind⟩ := List.forall_mem_cons.1 changes
    have made : (file.make step).made = file.made ++ [step] := by rw [make, if_pos here]
    refine (inductionHypothesis (file.make step) behind).trans ?_
    rw [made, List.append_assoc, List.singleton_append]

/-- Where no write is short, each step that is carried out has its whole effect. -/
theorem carry_of_whole (whole : file.faults.shortWrite = none) (step : FileStep) :
    file.carry step = file.make step := by
  unfold carry
  rw [whole]
  cases step <;> rfl

theorem perform_of_sound (sound : file.faults = {}) {step : FileStep}
    (room : step.reach < offsetLimit) : file.perform step = (.ok (), file.make step) := by
  have allowed : ¬ (file.faults.refused.contains step.operation = true ∨
      offsetLimit ≤ step.reach) := by
    rw [sound]
    simpa using room
  have whole : file.faults.shortWrite = none := by rw [sound]
  rw [perform, if_neg allowed, carry_of_whole whole, whole, Option.isSome_none, Bool.and_false,
    if_neg Bool.false_ne_true]

/-- A step that takes the file too far is refused. -/
theorem perform_of_full {step : FileStep} (full : offsetLimit ≤ step.reach) :
    file.perform step = (.error (.refused step.operation), file) := by
  rw [perform, if_pos (.inr full)]

/-- Steps that the file has room for succeed one after the other. -/
theorem performAll_of_sound (sound : file.faults = {}) {steps : List FileStep}
    (room : ∀ step ∈ steps, step.reach < offsetLimit) :
    file.performAll steps = (.ok (), file.makeAll steps) := by
  induction steps generalizing file with
  | nil => rfl
  | cons step rest inductionHypothesis =>
    rw [performAll, perform_of_sound sound (room step List.mem_cons_self)]
    exact inductionHypothesis ((file.faults_make step).trans sound) fun other member =>
      room other (List.mem_cons_of_mem _ member)

theorem read_of_sound (sound : file.faults = {}) {offset count : Nat}
    (inside : offset + count ≤ file.content.length) :
    file.read offset count = .ok ((file.content.drop offset).take count) := by
  have enough : ¬ ((file.content.drop offset).take count).length < count := by
    rw [List.length_take, List.length_drop]
    omega
  simp only [read, sound, List.contains_nil, Bool.false_eq_true, if_false, if_neg enough]

end DeviceFile

/-! ### Records that fit -/

theorem EditRecord.ofInts?_toNat (record : EditRecord) :
    ofInts? record.address.toNat record.old.toNat record.new.toNat = some record := by
  rw [ofInts?, word?_toNat, byte?_toNat, byte?_toNat]

namespace EditLog

variable {log : EditLog}

/-! ### Steps on the file of a log -/

/-- A log in whose file steps have had their effects. -/
def carryOut (log : EditLog) (steps : List FileStep) : EditLog :=
  { log with file := log.file.makeAll steps }

/-- A log at another position, which may be behind its last record. -/
def movedTo (log : EditLog) (position stop : Nat) : EditLog := { log with position, stop }

/-- Steps that the file has room for have their effects, and nothing else happens. -/
theorem perform_of_sound (sound : log.file.faults = {}) (cause : StorageFailure → LogFailure)
    {steps : List FileStep} (room : ∀ step ∈ steps, step.reach < offsetLimit) :
    perform cause steps log = .ok () (log.carryOut steps) := by
  rw [perform, DeviceFile.performAll_of_sound sound room]
  rfl

/-- A step that the file has room for has its effect, and nothing else happens. -/
theorem perform_one_of_sound (sound : log.file.faults = {}) (cause : StorageFailure → LogFailure)
    (step : FileStep) (room : step.reach < offsetLimit) :
    perform cause [step] log = .ok () (log.carryOut [step]) :=
  perform_of_sound sound cause fun _ member => List.mem_singleton.1 member ▸ room

/-! ### Entering and settling -/

/-- The content behind entering a record at a position: nothing follows the record. -/
def enteredContent (content : List UInt8) (position : Nat) (record : EditRecord) : List UInt8 :=
  cutTo (position + slotSize) (writeAt position record.encode content)

/-- The changes that put a record at a position and leave none behind it. -/
def enterSteps (position : Nat) (record : EditRecord) : List FileStep :=
  [recordStep position record, .truncate (position + slotSize)]

/-- A log with a record at its position and none behind it. -/
def withRecord (log : EditLog) (record : EditRecord) : EditLog :=
  (log.carryOut (enterSteps log.position record)).movedTo
    (log.position + slotSize) (log.position + slotSize)

theorem reach_recordStep (position : Nat) (record : EditRecord) :
    (recordStep position record).reach = position + slotSize := by
  rw [recordStep, FileStep.reach, length_encode]

/-- Seeking and truncating take a file no further than the record between them. -/
theorem seek_of_sound (sound : log.file.faults = {}) (cause : StorageFailure → LogFailure) :
    perform cause [.seek] log = .ok () log :=
  perform_one_of_sound sound cause .seek (by decide)

theorem enter_of_room (sound : log.file.faults = {}) (record : EditRecord)
    (room : log.position + slotSize < offsetLimit) :
    enter record.address.toNat record.old.toNat record.new.toNat log =
      .ok () (log.withRecord record) := by
  have write := perform_one_of_sound sound .notEntered (recordStep log.position record)
    (by rw [reach_recordStep]; exact room)
  rw [enter]
  refine (Action.bind_of_ok (seek_of_sound sound .notEntered)).trans ?_
  rw [EditRecord.ofInts?_toNat]
  refine Action.bind_get.trans ?_
  refine (Action.bind_of_ok write).trans ?_
  rw [Action.bind_modify]
  have soundAfter : ((log.carryOut [recordStep log.position record]).movedTo
      (log.position + slotSize) (log.position + slotSize)).file.faults = {} :=
    (log.file.faults_makeAll _).trans sound
  exact perform_one_of_sound soundAfter .notEntered (.truncate (log.position + slotSize)) room

/-- An edit that there is no room for changes nothing. -/
theorem enter_of_full (sound : log.file.faults = {}) (record : EditRecord)
    (full : offsetLimit ≤ log.position + slotSize) :
    enter record.address.toNat record.old.toNat record.new.toNat log =
      .error (.notEntered (.refused .write)) log := by
  have refused : perform .notEntered [recordStep log.position record] log =
      .error (.notEntered (.refused .write)) log := by
    rw [perform, DeviceFile.performAll,
      DeviceFile.perform_of_full (by rw [reach_recordStep]; exact full)]
    rfl
  rw [enter]
  refine (Action.bind_of_ok (seek_of_sound sound .notEntered)).trans ?_
  rw [EditRecord.ofInts?_toNat]
  refine Action.bind_get.trans ?_
  exact Action.bind_of_error refused

/-- An edit at an address that is no word is not entered. -/
theorem enter_of_noWord (sound : log.file.faults = {}) {address : Int}
    (outside : word? address = none) (old new : Int) :
    EditLog.enter address old new log = .error .noRecord log := by
  have none : EditRecord.ofInts? address old new = none := by
    rw [EditRecord.ofInts?, outside]
  rw [EditLog.enter]
  refine (Action.bind_of_ok (seek_of_sound sound .notEntered)).trans ?_
  rw [none]
  rfl

/-- The content behind settling a position. -/
def settledContent (content : List UInt8) (position : UInt64) : List UInt8 :=
  writeAt positionOffset (wordBytes position) content

/-- The last bytes of the header of settled content are those of the position. -/
theorem positionBytes_settledContent {content : List UInt8} (long : 16 ≤ content.length)
    (position : UInt64) :
    ((settledContent content position).drop positionOffset).take 8 = wordBytes position := by
  have inside : positionOffset ≤ content.length := Nat.le_trans (by decide) long
  have bytes : ((settledContent content position).drop positionOffset).take
      (wordBytes position).length = wordBytes position :=
    take_drop_writeAt inside
  rwa [length_wordBytes] at bytes

/-- The header of settled content holds the position. -/
theorem headerPosition_settledContent {content : List UInt8} (long : 16 ≤ content.length)
    {position : Nat} (small : position ≤ wordLimit) :
    headerPosition (settledContent content (UInt64.ofNat position)) = position := by
  rw [headerPosition, positionBytes_settledContent long, littleEndian_wordBytes,
    toNat_ofNat_of_le small]

/-- There is always room for the header. -/
theorem reach_settling (position : UInt64) :
    ∀ step ∈ [positionStep position, .flush, .sync], step.reach < offsetLimit := by
  intro step member
  rcases List.mem_cons.1 member with rfl | member
  · rw [positionStep, FileStep.reach, length_wordBytes]
    decide
  rcases List.mem_cons.1 member with rfl | member
  · decide
  · rw [List.mem_singleton.1 member]
    decide

theorem settle_of_le (sound : log.file.faults = {}) (small : log.position ≤ wordLimit) :
    settle log =
      .ok () (log.carryOut [positionStep (UInt64.ofNat log.position)]) := by
  rw [settle]
  refine (Action.bind_of_ok (seek_of_sound sound .notSettled)).trans ?_
  rw [Action.bind_get]
  rw [word?_of_le small]
  exact perform_of_sound sound .notSettled (reach_settling _)

/-- A position that is no word is not settled, which changes nothing. -/
theorem settle_of_gt (sound : log.file.faults = {}) (large : wordLimit < log.position) :
    settle log = .error .noRecord log := by
  rw [settle]
  refine (Action.bind_of_ok (seek_of_sound sound .notSettled)).trans ?_
  rw [Action.bind_get]
  rw [word?_of_gt large]
  rfl

/-! ### Reading records -/

theorem recordAt_of_sound (sound : log.file.faults = {}) {number : Nat}
    (inside : 32 + 16 * number ≤ log.file.content.length) :
    log.recordAt (16 + 16 * number) =
      .ok (EditRecord.decode (slotAt log.file.content number)) := by
  rw [recordAt, DeviceFile.read_of_sound sound (by rw [slotSize]; omega)]
  rfl

/-- The records in the slots of a file that has them all. -/
theorem records_of_sound (sound : log.file.faults = {})
    (inside : 16 + 16 * log.count ≤ log.file.content.length) :
    log.records = .ok (recordsIn log.file.content log.count) := by
  refine mapM_of_ok fun number member => recordAt_of_sound sound ?_
  have lt := List.mem_range.1 member
  omega

/-- Undoing moves back over the record in front of the position. -/
theorem undo_of_slot (sound : log.file.faults = {}) {number : Nat}
    (position : log.position = 32 + 16 * number)
    (inside : log.position ≤ log.file.content.length) :
    undo log =
      .ok (some ((EditRecord.decode (slotAt log.file.content number)).address,
          (EditRecord.decode (slotAt log.file.content number)).old))
        (log.movedTo (16 + 16 * number) log.stop) := by
  have possible : log.canUndo = true := by
    rw [canUndo, decide_eq_true_iff]
    omega
  have slot : log.position - slotSize = 16 + 16 * number := by
    rw [position, slotSize]
    omega
  have found : readRecord (log.position - slotSize) log =
      .ok (EditRecord.decode (slotAt log.file.content number)) log := by
    rw [readRecord, slot, recordAt_of_sound sound (position ▸ inside)]
  rw [undo]
  rw [Action.bind_get]
  rw [if_pos possible]
  refine (Action.bind_of_ok found).trans ?_
  rw [slot]
  rfl

/-- Nothing is undone in front of the first record. -/
theorem undo_of_first (position : log.position ≤ 16) : undo log = .ok none log := by
  have impossible : ¬ log.canUndo = true := by
    rw [canUndo, decide_eq_true_iff]
    omega
  rw [undo]
  rw [Action.bind_get]
  rw [if_neg impossible]
  rfl

/-- Redoing moves forward over the record at the position. -/
theorem redo_of_slot (sound : log.file.faults = {}) {number : Nat}
    (position : log.position = 16 + 16 * number) (below : log.position < log.stop)
    (inside : 32 + 16 * number ≤ log.file.content.length) :
    redo log =
      .ok (some ((EditRecord.decode (slotAt log.file.content number)).address,
          (EditRecord.decode (slotAt log.file.content number)).new))
        (log.movedTo (32 + 16 * number) log.stop) := by
  have possible : log.canRedo = true := by
    rw [canRedo, decide_eq_true_iff]
    exact below
  have found : readRecord log.position log =
      .ok (EditRecord.decode (slotAt log.file.content number)) log := by
    rw [readRecord, position, recordAt_of_sound sound inside]
  have next : log.position + slotSize = 32 + 16 * number := by
    rw [position, slotSize]
    omega
  rw [redo]
  rw [Action.bind_get]
  rw [if_pos possible]
  refine (Action.bind_of_ok found).trans ?_
  show EStateM.Result.ok _ (log.movedTo (log.position + slotSize) log.stop) = _
  rw [next]

/-- Nothing is redone behind the last record. -/
theorem redo_of_last (position : log.stop ≤ log.position) : redo log = .ok none log := by
  have impossible : ¬ log.canRedo = true := by
    rw [canRedo, decide_eq_true_iff]
    omega
  rw [redo]
  rw [Action.bind_get]
  rw [if_neg impossible]
  rfl

end EditLog

end HexEditor
