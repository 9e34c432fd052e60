/-
What settling comes to on a device that may fail in any way. A log that was opened
keeps its header, and its position stays that of a slot of the file, whatever is done
to it and whatever the device refuses in between. So settling fails only where one of
its steps is refused, and then with a failure that says that it did not settle. Where
it succeeds the header holds the position and the log opens there again, but for one
fault: a write that is not done as a whole is no failure here, as it is where a record
is entered, and what is left then has a part of the position in the header, or none.
-/

import HexEditor.Proofs.History.Crash

namespace HexEditor

/-! ### Devices with faults -/

/-- The steps that may be made when a step is carried out: itself, or the writing of the first bytes
only. -/
inductive FileStep.Part : FileStep → FileStep → Prop where
  | whole (step : FileStep) : Part step step
  | write {offset : Nat} {part bytes : List UInt8} {whole : Bool} (first : part <+: bytes) :
      Part (.write offset part whole) (.write offset bytes whole)

namespace DeviceFile

variable {file next : DeviceFile} {step : FileStep} {steps : List FileStep}

/-- A step is made as a whole or in part, or nothing is made. -/
theorem carry_cases (file : DeviceFile) (step : FileStep) :
    file.carry step = file ∨
      ∃ part, FileStep.Part part step ∧ file.carry step = file.make part := by
  unfold carry
  split
  · next offset bytes whole count _ =>
    rw [writePart]
    split
    · exact .inl rfl
    · exact .inr ⟨_, .write ((List.take_prefix _ _).trans (List.dropLast_prefix _)), rfl⟩
  · exact .inr ⟨_, .whole _, rfl⟩

theorem carry_of_short {count : Nat} (short : file.faults.shortWrite = some count) (offset : Nat)
    (bytes : List UInt8) (whole : Bool) :
    file.carry (.write offset bytes whole) = file.writePart count offset bytes whole := by
  unfold carry
  rw [short]

@[simp] theorem faults_carry (file : DeviceFile) (step : FileStep) :
    (file.carry step).faults = file.faults := by
  rcases file.carry_cases step with same | ⟨part, -, made⟩
  · rw [same]
  · rw [made, faults_make]

theorem perform_of_refused (refused : step.operation ∈ file.faults.refused) :
    file.perform step = (.error (.refused step.operation), file) := by
  rw [perform, if_pos (.inl (List.contains_iff_mem.mpr refused))]

/-- A step that is not refused succeeds unless it has to be done as a whole. -/
theorem perform_of_allowed (allowed : step.operation ∉ file.faults.refused)
    (room : step.reach < offsetLimit) (lax : step.isWhole = false) :
    file.perform step = (.ok (), file.carry step) := by
  rw [perform, if_neg (by simp [allowed, room]), lax, Bool.false_and, if_neg Bool.false_ne_true]

/-- Steps of which none is refused succeed. -/
theorem performAll_of_allowed
    (allowed : ∀ step ∈ steps, step.operation ∉ file.faults.refused)
    (room : ∀ step ∈ steps, step.reach < offsetLimit)
    (lax : ∀ step ∈ steps, step.isWhole = false) :
    file.performAll steps = (.ok (), steps.foldl carry file) := by
  induction steps generalizing file with
  | nil => rfl
  | cons step rest inductionHypothesis =>
    rw [List.forall_mem_cons] at allowed room lax
    rw [performAll, perform_of_allowed allowed.1 room.1 lax.1]
    exact inductionHypothesis (by rw [faults_carry]; exact allowed.2) room.2 lax.2

/-- Steps of which one is refused fail at one that is. -/
theorem performAll_of_refused (refused : ∃ step ∈ steps, step.operation ∈ file.faults.refused)
    (room : ∀ step ∈ steps, step.reach < offsetLimit)
    (lax : ∀ step ∈ steps, step.isWhole = false) :
    ∃ operation ∈ file.faults.refused, ∃ next,
      file.performAll steps = (.error (.refused operation), next) := by
  induction steps generalizing file with
  | nil =>
    obtain ⟨step, member, _⟩ := refused
    cases member
  | cons step rest inductionHypothesis =>
    rw [List.forall_mem_cons] at room lax
    by_cases here : step.operation ∈ file.faults.refused
    · exact ⟨_, here, file, by rw [performAll, perform_of_refused here]⟩
    · obtain ⟨other, member, refused⟩ := refused
      have behind : other ∈ rest := by
        rcases List.mem_cons.1 member with rfl | behind
        · exact absurd refused here
        · exact behind
      rw [performAll, perform_of_allowed here room.1 lax.1]
      rw [← faults_carry file step] at refused ⊢
      exact inductionHypothesis ⟨other, behind, refused⟩ room.2 lax.2

/-- A step that has to be done as a whole and succeeds is done, in a file that has room for it. -/
theorem eq_make_of_whole (whole : step.isWhole = true)
    (performed : file.perform step = (.ok (), next)) :
    next = file.make step ∧ step.reach < offsetLimit := by
  rw [perform] at performed
  by_cases stopped : file.faults.refused.contains step.operation = true ∨ offsetLimit ≤ step.reach
  · rw [if_pos stopped] at performed
    cases performed
  rw [if_neg stopped, whole, Bool.true_and] at performed
  cases short : file.faults.shortWrite with
  | none =>
    rw [carry_of_whole short, short] at performed
    cases performed
    exact ⟨rfl, Nat.not_le.1 fun full => stopped (.inr full)⟩
  | some count =>
    rw [short] at performed
    cases performed

/-- A step is made as a whole or in part or not at all, and only in a file that has room for it. -/
theorem perform_cases (file : DeviceFile) (step : FileStep) :
    (file.perform step).2 = file ∨
      step.reach < offsetLimit ∧
        ∃ part, FileStep.Part part step ∧ (file.perform step).2 = file.make part := by
  rw [perform]
  split
  · exact .inl rfl
  · next free =>
    rcases file.carry_cases step with same | ⟨part, isPart, made⟩
    · exact .inl same
    · exact .inr ⟨Nat.not_le.1 fun full => free (.inr full), part, isPart, made⟩

/-- What no step takes from the content is kept, whatever the device refuses or loses. -/
theorem performAll_keeps {holds : List UInt8 → Prop}
    (keeps : ∀ step ∈ steps, ∀ part, FileStep.Part part step → ∀ content, holds content →
      holds (part.effect content))
    (here : holds file.content) : holds (file.performAll steps).2.content := by
  induction steps generalizing file with
  | nil => exact here
  | cons step rest inductionHypothesis =>
    rw [List.forall_mem_cons] at keeps
    have kept : holds (file.perform step).2.content := by
      rcases file.perform_cases step with same | ⟨-, part, isPart, made⟩
      · rw [same]
        exact here
      · rw [made, content_make]
        exact keeps.1 part isPart _ here
    rw [performAll]
    rcases performed : file.perform step with ⟨outcome, next⟩
    rw [performed] at kept
    cases outcome with
    | error failure => exact kept
    | ok => exact inductionHypothesis keeps.2 kept

end DeviceFile

namespace EditLog

variable {log : EditLog}

section

variable {cause : StorageFailure → LogFailure} {step : FileStep} {rest : List FileStep}

/-- Behind a step that succeeds the other ones are carried out on what it left. -/
theorem perform_cons_of_ok {file : DeviceFile} (done : log.file.perform step = (.ok (), file)) :
    perform cause (step :: rest) log = perform cause rest { log with file } := by
  rw [perform, DeviceFile.performAll, done]
  rfl

theorem perform_cons_of_error {failure : StorageFailure} {file : DeviceFile}
    (failed : log.file.perform step = (.error failure, file)) :
    perform cause (step :: rest) log = .error (cause failure) { log with file } := by
  rw [perform, DeviceFile.performAll, failed]

/-- A step on the file of a log that succeeds changes its file. -/
theorem eq_of_perform_one {next : EditLog} (performed : perform cause [step] log = .ok () next) :
    ∃ file, log.file.perform step = (.ok (), file) ∧ next = { log with file } := by
  rcases done : log.file.perform step with ⟨outcome, file⟩
  cases outcome with
  | ok =>
    rw [perform_cons_of_ok done] at performed
    cases performed
    exact ⟨file, rfl, rfl⟩
  | error failure =>
    rw [perform_cons_of_error done] at performed
    cases performed

end

/-! ### What a log keeps on any device -/

/-- Some content begins with a header and reaches as far as a log. -/
structure Carries (stop : Nat) (content : List UInt8) : Prop where
  header : headerFault? content = none
  inside : stop ≤ content.length

/-- A write behind the mark and the version takes nothing from a log. -/
theorem Carries.write {stop offset : Nat} {bytes content : List UInt8}
    (carries : Carries stop content) (behind : 8 ≤ offset) (inside : offset ≤ content.length) :
    Carries stop (writeAt offset bytes content) := by
  have long := le_length_of_header carries.header
  have longer : content.length ≤ (writeAt offset bytes content).length := by
    rw [length_writeAt inside]
    exact Nat.le_max_left _ _
  refine ⟨?_, Nat.le_trans carries.inside longer⟩
  refine (headerFault?_congr ?_ (Nat.le_trans long longer) long).trans carries.header
  exact take_writeAt behind (by omega)

theorem Carries.cut {stop length : Nat} {content : List UInt8} (carries : Carries stop content)
    (first : 16 ≤ length) (behind : stop ≤ length) : Carries stop (cutTo length content) := by
  have long := le_length_of_header carries.header
  refine ⟨?_, by rw [length_cutTo]; exact behind⟩
  refine (headerFault?_congr ?_ (by rw [length_cutTo]; exact first) long).trans carries.header
  exact take_cutTo (by omega) (by omega)

/-- A log with a header, the position of which is that of a slot of its file, or behind the last
one. -/
structure Standing (log : EditLog) : Prop where
  carries : Carries log.stop log.file.content
  slots : 16 ∣ log.position ∧ 16 ∣ log.stop
  bounds : 16 ≤ log.position ∧ log.position ≤ log.stop
  small : log.stop ≤ offsetLimit

namespace Standing

theorem position_le_wordLimit (standing : log.Standing) : log.position ≤ wordLimit :=
  Nat.le_trans standing.bounds.2 (Nat.le_trans standing.small (by decide))

theorem of_open {content left : List UInt8} (possible : content.length ≤ offsetLimit)
    (opened : openContent content = (.ok log, left)) : Standing log := by
  obtain ⟨-, -, history, holds⟩ := holds_of_open opened
  have shown := holds.shows_history
  refine ⟨⟨holds.header, Nat.le_of_eq shown.size.symm⟩, shown.slots, shown.bounds, ?_⟩
  rcases openContent_eq_ok opened with ⟨-, rfl, -⟩ | ⟨-, rfl, -⟩
  · decide
  · show slotsUp content.length ≤ offsetLimit
    have bounds := slotsUp_bounds content.length
    rw [offsetLimit] at possible ⊢
    omega

/-- Steps on the file that take nothing from a log leave it standing. -/
theorem perform (standing : log.Standing) (cause : StorageFailure → LogFailure)
    {steps : List FileStep}
    (keeps : ∀ step ∈ steps, ∀ part, FileStep.Part part step → ∀ content,
      Carries log.stop content → Carries log.stop (part.effect content)) :
    Standing (Action.left (EditLog.perform cause steps log)) := by
  have carries := DeviceFile.performAll_keeps keeps standing.carries
  rw [EditLog.perform]
  generalize log.file.performAll steps = performed at carries ⊢
  obtain ⟨outcome, file⟩ := performed
  cases outcome with
  | ok => exact ⟨carries, standing.slots, standing.bounds, standing.small⟩
  | error => exact ⟨carries, standing.slots, standing.bounds, standing.small⟩

theorem seek (cause : StorageFailure → LogFailure) :
    Action.Keeps Standing (EditLog.perform cause [.seek]) := fun _ standing =>
  standing.perform cause fun _ member _ part _ carries => by
    rw [List.mem_singleton.1 member] at part
    cases part
    exact carries

/-- Writing the header takes nothing from a log. -/
theorem settling (stop : Nat) (position : UInt64) :
    ∀ step ∈ [positionStep position, .flush, .sync], ∀ part, FileStep.Part part step →
      ∀ content, Carries stop content → Carries stop (part.effect content) := by
  intro step member part isPart content carries
  have long := le_length_of_header carries.header
  have inside : positionOffset ≤ content.length := by
    rw [positionOffset]
    omega
  rcases List.mem_cons.1 member with rfl | member
  · cases isPart with
    | whole => exact carries.write (Nat.le_refl _) inside
    | write => exact carries.write (Nat.le_refl _) inside
  rcases List.mem_cons.1 member with rfl | member
  · cases isPart
    exact carries
  · rw [List.mem_singleton.1 member] at isPart
    cases isPart
    exact carries

theorem settle : Action.Keeps Standing EditLog.settle := by
  refine Action.keeps_bind (seek _) fun _ => Action.keeps_get_bind fun state => ?_
  split
  · exact Action.keeps_throw _
  · next position _ => exact fun log standing => standing.perform _ (settling log.stop position)

/-- A record that is written takes the log with it. -/
theorem entered (standing : log.Standing) {record : EditRecord} {next : EditLog}
    (written : EditLog.perform .notEntered [recordStep log.position record] log = .ok () next) :
    Standing (next.movedTo (log.position + slotSize) (log.position + slotSize)) := by
  obtain ⟨file, performed, rfl⟩ := eq_of_perform_one written
  obtain ⟨made, room⟩ := DeviceFile.eq_make_of_whole rfl performed
  have content : file.content = writeAt log.position record.encode log.file.content := by
    rw [made]
    rfl
  have inside := Nat.le_trans standing.bounds.2 standing.carries.inside
  have behind : 8 ≤ log.position := Nat.le_trans (by decide) standing.bounds.1
  rw [reach_recordStep] at room
  refine ⟨⟨?_, ?_⟩, ?_, ?_, Nat.le_of_lt room⟩
  · show headerFault? file.content = none
    rw [content]
    exact (standing.carries.write behind inside).header
  · show log.position + slotSize ≤ file.content.length
    rw [content, length_writeAt inside, length_encode]
    exact Nat.le_max_right _ _
  · have slot : 16 ∣ log.position + slotSize := Nat.dvd_add standing.slots.1 (Nat.dvd_refl 16)
    exact ⟨slot, slot⟩
  · exact ⟨Nat.le_trans standing.bounds.1 (Nat.le_add_right _ _), Nat.le_refl _⟩

theorem enter (address old new : Int) : Action.Keeps Standing (EditLog.enter address old new) := by
  refine Action.keeps_bind (seek _) fun _ => ?_
  split
  · exact Action.keeps_throw _
  next record _ =>
  intro log standing
  rw [Action.bind_get]
  have kept : Standing (Action.left
      (EditLog.perform .notEntered [recordStep log.position record] log)) := by
    refine standing.perform .notEntered fun step member part isPart content carries => ?_
    rw [List.mem_singleton.1 member] at isPart
    have behind : 8 ≤ log.position := Nat.le_trans (by decide) standing.bounds.1
    have inside := Nat.le_trans standing.bounds.2 carries.inside
    cases isPart with
    | whole => exact carries.write behind inside
    | write => exact carries.write behind inside
  cases written : EditLog.perform .notEntered [recordStep log.position record] log with
  | error failure after =>
    rw [written] at kept
    rw [Action.bind_of_error written]
    exact kept
  | ok value after =>
    rw [Action.bind_of_ok written, Action.bind_modify]
    refine (standing.entered written).perform .notEntered
      fun step member part isPart content carries => ?_
    rw [List.mem_singleton.1 member] at isPart
    cases isPart
    exact carries.cut (Nat.le_trans standing.bounds.1 (Nat.le_add_right _ _)) (Nat.le_refl _)

/-- A move to a slot of the file, or behind the last one, leaves a log standing. -/
theorem movedTo (standing : log.Standing) {position : Nat} (slot : 16 ∣ position)
    (first : 16 ≤ position) (inside : position ≤ log.stop) :
    Standing (log.movedTo position log.stop) :=
  ⟨standing.carries, ⟨slot, standing.slots.2⟩, ⟨first, inside⟩, standing.small⟩

theorem undo : Action.Keeps Standing EditLog.undo := by
  intro log standing
  rw [EditLog.undo, Action.bind_get]
  by_cases possible : log.canUndo = true
  · rw [if_pos possible]
    have behind : 16 < log.position := of_decide_eq_true possible
    obtain ⟨slot, bounds⟩ := And.intro standing.slots standing.bounds
    cases found : log.recordAt (log.position - slotSize) with
    | error failure =>
      rw [Action.bind_of_error (by rw [readRecord, found])]
      exact standing
    | ok record =>
      rw [Action.bind_of_ok (by rw [readRecord, found])]
      exact standing.movedTo (by rw [slotSize]; omega) (by rw [slotSize]; omega)
        (by rw [slotSize]; omega)
  · rw [if_neg possible]
    exact standing

theorem redo : Action.Keeps Standing EditLog.redo := by
  intro log standing
  rw [EditLog.redo, Action.bind_get]
  by_cases possible : log.canRedo = true
  · rw [if_pos possible]
    have before : log.position < log.stop := of_decide_eq_true possible
    obtain ⟨slot, bounds⟩ := And.intro standing.slots standing.bounds
    cases found : log.recordAt log.position with
    | error failure =>
      rw [Action.bind_of_error (by rw [readRecord, found])]
      exact standing
    | ok record =>
      rw [Action.bind_of_ok (by rw [readRecord, found])]
      exact standing.movedTo (by rw [slotSize]; omega) (by rw [slotSize]; omega)
        (by rw [slotSize]; omega)
  · rw [if_neg possible]
    exact standing

end Standing

/-! ### Reachable logs -/

/-- A log on a device with other faults. -/
def withFaults (log : EditLog) (faults : DeviceFaults) : EditLog :=
  { log with file := { log.file with faults } }

/-- The logs that come about when a file of a possible length is opened and operated on, while the
device begins to fail and stops to fail in any way between the operations. -/
inductive Reachable : EditLog → Prop where
  | opened {content left : List UInt8} {log : EditLog} (possible : content.length < offsetLimit)
      (opened : openContent content = (.ok log, left)) : Reachable log
  | faulted {log : EditLog} (faults : DeviceFaults) (reachable : Reachable log) :
      Reachable (log.withFaults faults)
  | entered {log : EditLog} (address old new : Int) (reachable : Reachable log) :
      Reachable (Action.left (enter address old new log))
  | settled {log : EditLog} (reachable : Reachable log) : Reachable (Action.left (settle log))
  | undone {log : EditLog} (reachable : Reachable log) : Reachable (Action.left (undo log))
  | redone {log : EditLog} (reachable : Reachable log) : Reachable (Action.left (redo log))

theorem Reachable.standing {log : EditLog} (reachable : Reachable log) : log.Standing := by
  induction reachable with
  | opened possible opened => exact .of_open (Nat.le_of_lt possible) opened
  | faulted faults _ standing =>
    exact ⟨standing.carries, standing.slots, standing.bounds, standing.small⟩
  | entered address old new _ standing => exact Standing.enter address old new _ standing
  | settled _ standing => exact Standing.settle _ standing
  | undone _ standing => exact Standing.undo _ standing
  | redone _ standing => exact Standing.redo _ standing

/-! ### Settling -/

/-- All that is asked of the device in settling a position. -/
def settleCalls (position : UInt64) : List FileStep :=
  [.seek, positionStep position, .flush, .sync]

/-- A position that is a word is settled in these steps. -/
theorem settle_eq_perform (small : log.position ≤ wordLimit) :
    settle log = perform .notSettled (settleCalls (UInt64.ofNat log.position)) log := by
  rw [settle, settleCalls]
  rcases sought : log.file.perform .seek with ⟨outcome, file⟩
  cases outcome with
  | error failure =>
    rw [Action.bind_of_error (perform_cons_of_error sought), perform_cons_of_error sought]
  | ok =>
    have same : ({ log with file } : EditLog).position = log.position := rfl
    rw [Action.bind_of_ok (perform_cons_of_ok sought), Action.bind_get, same, word?_of_le small]
    exact (perform_cons_of_ok sought).symm

/-- What settling a position comes to, by what the device refuses. -/
theorem performAll_settleCalls (position : UInt64) (file : DeviceFile) :
    (∃ operation ∈ file.faults.refused, ∃ next,
        file.performAll (settleCalls position) = (.error (.refused operation), next)) ∨
      (∀ operation ∈ [.seek, .write, .flush, .sync], operation ∉ file.faults.refused) ∧
        file.performAll (settleCalls position) = (.ok (), file.carry (positionStep position)) := by
  have room : ∀ step ∈ settleCalls position, step.reach < offsetLimit := by
    rw [settleCalls, List.forall_mem_cons]
    exact ⟨by decide, reach_settling _⟩
  have lax : ∀ step ∈ settleCalls position, step.isWhole = false := by
    simp [settleCalls, positionStep, FileStep.isWhole]
  by_cases refused : ∃ step ∈ settleCalls position, step.operation ∈ file.faults.refused
  · exact .inl (DeviceFile.performAll_of_refused refused room lax)
  · have allowed : ∀ step ∈ settleCalls position, step.operation ∉ file.faults.refused :=
      fun step member here => refused ⟨step, member, here⟩
    refine .inr ⟨?_, ?_⟩
    · simpa [settleCalls, positionStep, FileStep.operation] using allowed
    · rw [DeviceFile.performAll_of_allowed allowed room lax]
      rfl

/-- Some content holds a position in its header, and opens there as a log. -/
def Lasts (content : List UInt8) (position : Nat) : Prop :=
  (content.drop positionOffset).take 8 = littleEndianBytes 8 position ∧
    ∃ reopened left, openContent content = (.ok reopened, left) ∧ reopened.position = position

/-- The position of a log lasts once it is in the header. -/
theorem Standing.lasts (standing : log.Standing) :
    Lasts (settledContent log.file.content (UInt64.ofNat log.position)) log.position := by
  have small := standing.position_le_wordLimit
  have long := le_length_of_header standing.carries.header
  have inside : positionOffset ≤ log.file.content.length := Nat.le_trans (by decide) long
  have kept : Carries log.stop
      (settledContent log.file.content (UInt64.ofNat log.position)) :=
    standing.carries.write (Nat.le_refl _) inside
  have filled := (slotsUp_bounds
    (settledContent log.file.content (UInt64.ofNat log.position)).length).1
  refine ⟨?_, _, _, openContent_of_header kept.header (headerPosition_settledContent long small)
    ?_ standing.bounds.1 ?_, rfl⟩
  · rw [positionBytes_settledContent long, wordBytes, toNat_ofNat_of_le small]
  · exact Nat.mod_eq_zero_of_dvd standing.slots.1
  · exact Nat.le_trans standing.bounds.2 (Nat.le_trans kept.inside filled)

/-- Where a device writes a part of what it is given, it writes the first bytes of the position, and
not all of them. -/
theorem Standing.content_carry (standing : log.Standing) {count : Nat}
    (short : log.file.faults.shortWrite = some count) :
    (log.file.carry (positionStep (UInt64.ofNat log.position))).content =
      writeAt positionOffset ((littleEndianBytes 8 log.position).take (min count 7))
        log.file.content := by
  have inside : positionOffset ≤ log.file.content.length :=
    Nat.le_trans (by decide) (le_length_of_header standing.carries.header)
  have part : (wordBytes (UInt64.ofNat log.position)).dropLast.take count =
      (littleEndianBytes 8 log.position).take (min count 7) := by
    rw [List.dropLast_eq_take, length_wordBytes, List.take_take, wordBytes,
      toNat_ofNat_of_le standing.position_le_wordLimit]
  rw [positionStep, DeviceFile.carry_of_short short, DeviceFile.writePart, part]
  split
  · next empty =>
    rw [List.isEmpty_iff.1 empty, writeAt_nil inside]
  · rfl

/-- Settling a log fails if one of its steps is refused, and says so. Otherwise the position lasts,
unless the device does not write what it is given: then the header is left with a part of it, which
may be none. -/
theorem settle_durable (reachable : Reachable log) :
    match settle log with
    | .ok _ next =>
      next.position = log.position ∧
        (∀ operation ∈ [.seek, .write, .flush, .sync], operation ∉ log.file.faults.refused) ∧
        match log.file.faults.shortWrite with
        | none => Lasts next.file.content log.position
        | some count =>
          next.file.content =
              writeAt positionOffset ((littleEndianBytes 8 log.position).take (min count 7))
                log.file.content ∧
            (count = 0 → next.file.content = log.file.content)
    | .error failure _ =>
      ∃ operation ∈ log.file.faults.refused, failure = .notSettled (.refused operation) := by
  have standing := reachable.standing
  have small := standing.position_le_wordLimit
  rw [settle_eq_perform small, perform]
  rcases performAll_settleCalls (UInt64.ofNat log.position) log.file with
    ⟨operation, refused, next, failed⟩ | ⟨allowed, performed⟩
  · rw [failed]
    exact ⟨operation, refused, rfl⟩
  · rw [performed]
    refine ⟨rfl, allowed, ?_⟩
    dsimp only
    cases short : log.file.faults.shortWrite with
    | none =>
      rw [DeviceFile.carry_of_whole short]
      exact standing.lasts
    | some count =>
      have part := standing.content_carry short
      refine ⟨part, ?_⟩
      rintro rfl
      have inside : positionOffset ≤ log.file.content.length :=
        Nat.le_trans (by decide) (le_length_of_header standing.carries.header)
      rw [part, Nat.zero_min, List.take_zero, writeAt_nil inside]

/-- A log in which an edit has been entered, and not settled yet. -/
def enteredLog : EditLog where
  file :=
    { content := logHeader 16 ++ EditRecord.encode ⟨5, 1, 2⟩
      made := enterSteps 16 ⟨5, 1, 2⟩ }
  position := 32
  stop := 32

theorem reachable_enteredLog : Reachable enteredLog := by
  have opened : openContent [] = (.ok freshLog, freshLog.file.content) := rfl
  show Reachable (Action.left (enter 5 1 2 freshLog))
  exact .entered 5 1 2 (.opened (by decide) opened)

theorem settle_durable_enteredLog :
    Reachable enteredLog ∧ settle enteredLog = .ok () settledLog ∧
      Lasts settledLog.file.content settledLog.position := by
  have settled : settle enteredLog = .ok () settledLog := rfl
  have durable := settle_durable reachable_enteredLog
  rw [settled] at durable
  exact ⟨reachable_enteredLog, settled, durable.2.2⟩

/-- Where the write is lost settling succeeds, and the log opens again in front of the edit. -/
theorem settle_of_lostWrite :
    Reachable (enteredLog.withFaults { shortWrite := some 0 }) ∧
      settle (enteredLog.withFaults { shortWrite := some 0 }) =
        .ok () (enteredLog.withFaults { shortWrite := some 0 }) ∧
      openContent enteredLog.file.content =
        (.ok (enteredLog.reopened.movedTo 16 32), enteredLog.file.content) ∧
      ¬ Lasts enteredLog.file.content enteredLog.position := by
  have reopened : openContent enteredLog.file.content =
      (.ok (enteredLog.reopened.movedTo 16 32), enteredLog.file.content) := rfl
  refine ⟨.faulted _ reachable_enteredLog, rfl, reopened, ?_⟩
  rintro ⟨-, log, left, opened, position⟩
  rw [reopened] at opened
  cases opened
  cases position

end EditLog

end HexEditor
