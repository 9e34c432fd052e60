/-
What writes to the file and its log. A key, a pointer or a new height of the screen writes
one byte of the file at most, whatever the devices refuse, and it writes to the file or the
log only if it is for work that the mode allows: the second digit of a byte while bytes are
replaced, or a step through the history unless the file is only read. What the device gets
with any other event is a byte that the file holds back since such a key. The file is only
read until one of two keys is pressed, so before that file and log stay as they are.
-/

import HexEditor.Proofs.History.Durability
import HexEditor.Proofs.Session.Changes
import HexEditor.Proofs.Session.Remembering
import HexEditor.Proofs.Session.Retrying

namespace HexEditor

open EditedFile (Kept Spared WrittenOnce)

namespace Session

variable {session : Session}

/-! ### Editing keys -/

/-- The keys that may write in a session. -/
inductive Edits (session : Session) : Key → Prop where
  /-- The second digit of a byte, while bytes are replaced. -/
  | digit {character : Char} {digit : Nat} {pending : PendingByte}
      (closed : session.commandLine = none) (replacing : session.mode = .replace)
      (value : hexDigit? character = some digit) (half : session.pendingByte = some pending) :
      Edits session (.char character)
  /-- The key of a step through the history, unless the file is only read. -/
  | step (step : HistoryStep) (closed : session.commandLine = none)
      (writable : session.mode ≠ .read) : Edits session step.key
  /-- The end of a command that is such a step. -/
  | command {line : List Char} {arguments : List String} (step : HistoryStep)
      (typed : session.commandLine = some line)
      (named : wordsOf (String.ofList line) = step.name :: arguments)
      (writable : session.mode ≠ .read) : Edits session .enter

theorem Edits.writable {key : Key} (edits : session.Edits key) : session.mode ≠ .read := by
  cases edits with
  | digit _ replacing => exact fun reading => Mode.noConfusion (reading.symm.trans replacing)
  | step _ _ writable => exact writable
  | command _ _ _ writable => exact writable

theorem exists_of_commandWork {line : String} {work : Work} (found : commandWork line = some work) :
    ∃ step arguments, work = .step step ∧ wordsOf line = HistoryStep.name step :: arguments := by
  unfold commandWork at found
  cases words : wordsOf line with
  | nil =>
    rw [words] at found
    cases found
  | cons command arguments =>
    rw [words] at found
    dsimp only at found
    split_ifs at found with undo redo <;> cases found
    · exact ⟨.undo, arguments, rfl, by rw [undo]; rfl⟩
    · exact ⟨.redo, arguments, rfl, by rw [redo]; rfl⟩

/-- A key that is for work may write, but for a step through the history of a file that is only
read. -/
theorem edits_of_workOf {key : Key} {work : Work} (found : session.workOf key = some work)
    (writable : ∀ step, work = .step step → session.mode ≠ .read) : session.Edits key := by
  unfold workOf at found
  split at found
  · next line typed =>
    split_ifs at found with entered
    obtain ⟨step, arguments, rfl, named⟩ := exists_of_commandWork found
    subst entered
    exact .command step typed named (writable step rfl)
  · next closed =>
    unfold keyWork at found
    split at found
    · next character =>
      split at found
      · next digit value =>
        split_ifs at found with editing
        obtain ⟨pending, half, rfl⟩ := Option.map_eq_some_iff.1 found
        exact .digit closed editing.1 value half
      · split_ifs at found with undo
        cases found
        subst undo
        exact .step .undo closed (writable .undo rfl)
    · split_ifs at found with redo
      cases found
      subst redo
      exact .step .redo closed (writable .redo rfl)
    · cases found

/-- A step through the history of a file that is only read changes nothing. -/
theorem left_stepHistory_of_read (reading : session.mode = .read) (step : HistoryStep) :
    Action.left (stepHistory step session) = session := by
  rw [stepHistory, Action.bind_get, if_pos reading]
  rfl

/-- A key gives one byte to the file at most, and none if it is not one that may write. -/
theorem writes_handleKey (session : Session) (key : Key) :
    WrittenOnce session.file (session.handleKey key).file ∧
      (Kept session.file (session.handleKey key).file ∧
          (session.handleKey key).log = session.log ∨
        session.Edits key) := by
  have quiet := quiet_handleKey session key
  rcases answers { session with status := none } key with
    ⟨_, same⟩ | ⟨_, digit, fresh, same⟩ | ⟨work, found, same⟩
  · have kept := same.file.trans quiet.file
    exact ⟨.kept kept, .inl ⟨kept, quiet.log.trans same.log⟩⟩
  · rw [same] at quiet
    have kept : Kept session.file (session.handleKey key).file := by
      refine Kept.trans ?_ quiet.file
      rcases typeDigit_of_fresh fresh digit with ⟨_, kept, same⟩ | ⟨_, _, same⟩ <;> rw [same]
      · exact kept
      · exact session.file.kept_behindRead _ _
    exact ⟨.kept kept, .inl ⟨kept, quiet.log.trans (log_of_fresh fresh digit)⟩⟩
  · rw [same] at quiet
    have once := work.writtenOnce (work.opening { session with status := none })
    have opening : (work.opening { session with status := none }).file = session.file := by
      cases work <;> rfl
    rw [opening] at once
    refine ⟨once.trans_kept quiet.file, ?_⟩
    by_cases idle : ∃ step, work = .step step ∧ session.mode = .read
    · obtain ⟨step, rfl, reading⟩ := idle
      have unchanged : Action.left ((Work.step step).run
          ((Work.step step).opening { session with status := none })) =
            { session with status := none, commandLine := none } := by
        have idle : { session with status := none, commandLine := none : Session }.mode = .read :=
          reading
        exact left_stepHistory_of_read idle step
      rw [unchanged] at quiet
      exact .inl ⟨quiet.file, quiet.log⟩
    · exact .inr (edits_of_workOf found fun step stepping reading =>
        idle ⟨step, stepping, reading⟩)

/-- An event gives one byte to the file at most, and none if it is not a key that may write. -/
theorem writes_apply (session : Session) {event : SessionEvent} (stays : event.StaysOpen) :
    ∃ next, event.apply session = .ok next ∧ WrittenOnce session.file next.file ∧
      (Kept session.file next.file ∧ next.log = session.log ∨
        ∃ key, event = .key key ∧ session.Edits key) := by
  cases event with
  | key key =>
    obtain ⟨once, spared | edits⟩ := writes_handleKey session key
    · exact ⟨_, rfl, once, .inl spared⟩
    · exact ⟨_, rfl, once, .inr ⟨key, rfl, edits⟩⟩
  | pointer report =>
    have quiet := quiet_handlePointer session report
    exact ⟨_, rfl, .kept quiet.file, .inl ⟨quiet.file, quiet.log⟩⟩
  | resize height =>
    have quiet := quiet_resize session height
    exact ⟨_, rfl, .kept quiet.file, .inl ⟨quiet.file, quiet.log⟩⟩
  | reopen structs height => cases stays

end Session

/-! ### Runs that only read -/

/-- Nothing but the faults of its device becomes of the log, and no key sets a mode that lets keys
write. -/
def Trial.Reads (trial : Trial) (session : Session) : Prop :=
  (trial.upset session.log).withFaults session.log.file.faults = session.log ∧
    match trial.event with
    | .key key => session.commandLine = none → key ≠ .char 'M' ∧ key ≠ .char 'R'
    | .pointer _ => True
    | .resize _ => True
    | .reopen _ _ => False

instance (trial : Trial) (session : Session) : Decidable (trial.Reads session) :=
  match trial with
  | ⟨.key _, _, _, _, _, _⟩ => inferInstanceAs (Decidable (_ ∧ (_ → _)))
  | ⟨.pointer _, _, _, _, _, _⟩ => inferInstanceAs (Decidable (_ ∧ True))
  | ⟨.resize _, _, _, _, _, _⟩ => inferInstanceAs (Decidable (_ ∧ True))
  | ⟨.reopen _ _, _, _, _, _, _⟩ => inferInstanceAs (Decidable (_ ∧ False))

namespace Session

/-- The file is only read, and it and its log are as given, whatever is wrong with their devices. -/
structure OnlyReads (file : EditedFile) (log : EditLog) (session : Session) : Prop where
  reading : session.mode = .read
  /-- What was held back at first may have reached the device. -/
  heldBack : session.file.heldBack = file.heldBack ∨ session.file.heldBack = none
  file : { session.file with
    refusesRead := file.refusesRead
    refusesWrite := file.refusesWrite
    refusesFlush := file.refusesFlush
    heldBack := file.heldBack } = file
  log : session.log.withFaults log.file.faults = log

variable {session : Session} {file : EditedFile} {log : EditLog}

/-- Changes that set no mode but the one in which the file is only read leave it. -/
theorem mode_of_changes {modes : Mode → Prop} {after : Session}
    (changes : Changes modes session after) (reads : ∀ mode, modes mode → mode = .read)
    (reading : session.mode = .read) : after.mode = .read := by
  refine changes.keep (fun before next (here : before.mode = .read) change => ?_) reading
  cases change with
  | mode allowed => exact reads _ allowed
  | _ => exact here

theorem mode_of_modeSetBy {key : Key} {mode : Mode} (set : session.modeSetBy key = some mode)
    (reads : session.commandLine = none → key ≠ .char 'M' ∧ key ≠ .char 'R') : mode = .read := by
  unfold modeSetBy at set
  split at set
  · cases set
  · next closed =>
    obtain ⟨modify, replace⟩ := reads closed
    rcases Key.of_mode? set with same | same | reading
    · exact absurd same modify
    · exact absurd same replace
    · exact reading

/-- An access leaves the file as it is given, but for what may have reached the device. -/
theorem OnlyReads.of_kept (only : OnlyReads file log session) {next : EditedFile}
    (kept : Kept session.file next) :
    { next with
      refusesRead := file.refusesRead
      refusesWrite := file.refusesWrite
      refusesFlush := file.refusesFlush
      heldBack := file.heldBack } = file ∧
      (next.heldBack = file.heldBack ∨ next.heldBack = none) := by
  rcases kept.eq_or with rfl | rfl
  · exact ⟨only.file, only.heldBack⟩
  · exact ⟨only.file, .inr rfl⟩

/-- A trial that only reads leaves file and log as they were. -/
theorem OnlyReads.apply {trial : Trial} (only : OnlyReads file log session)
    (reads : trial.Reads session) :
    ∃ next, trial.apply session = .ok next ∧ OnlyReads file log next := by
  obtain ⟨sound, harmless⟩ := reads
  have stays : trial.event.StaysOpen := by
    cases event : trial.event with
    | reopen structs height =>
      rw [event] at harmless
      cases harmless
    | _ => trivial
  have faced : OnlyReads file log (trial.facing session) := by
    refine ⟨only.reading, ?_, only.file, ?_⟩
    · rcases trial.heldBack_facing session with same | handed
      · rw [same]
        exact only.heldBack
      · exact .inr handed
    calc (trial.upset session.log).withFaults log.file.faults
        = ((trial.upset session.log).withFaults session.log.file.faults).withFaults
            log.file.faults := rfl
      _ = session.log.withFaults log.file.faults := by rw [sound]
      _ = log := only.log
  obtain ⟨next, applied, -, ⟨kept, log⟩ | ⟨key, -, edits⟩⟩ :=
    writes_apply (trial.facing session) stays
  · obtain ⟨file, heldBack⟩ := faced.of_kept kept
    refine ⟨next, applied, ?_, heldBack, file, log ▸ faced.log⟩
    have reads (modes : Mode → Prop) (changes : Changes modes (trial.facing session) next)
        (only : ∀ mode, modes mode → mode = .read) : next.mode = .read :=
      mode_of_changes changes only faced.reading
    cases event : trial.event with
    | key key =>
      rw [event] at applied harmless
      cases applied
      exact reads _ (changes_handleKey _ key) fun mode set => mode_of_modeSetBy set harmless
    | pointer report =>
      rw [event] at applied
      cases applied
      exact reads (fun _ => False) (changes_handlePointer _ report) fun _ => False.elim
    | resize height =>
      rw [event] at applied
      cases applied
      exact reads (fun _ => False) (changes_resize _ height) fun _ => False.elim
    | reopen structs height =>
      rw [event] at stays
      cases stays
  · exact absurd faced.reading edits.writable

theorem OnlyReads.applyAll {trials : List Trial} (only : OnlyReads file log session)
    (reads : Trial.Throughout Trial.Reads trials session) :
    ∃ last, Trial.applyAll trials session = .ok last ∧ OnlyReads file log last := by
  induction trials generalizing session with
  | nil => exact ⟨session, rfl, only⟩
  | cons trial rest inductionHypothesis =>
    obtain ⟨here, behind⟩ := reads
    obtain ⟨next, applied, onlyNext⟩ := only.apply here
    rw [applied] at behind
    obtain ⟨last, ran, onlyLast⟩ := inductionHypothesis onlyNext behind
    refine ⟨last, ?_, onlyLast⟩
    rw [Trial.applyAll, List.foldlM_cons, applied]
    exact ran

end Session

end HexEditor
