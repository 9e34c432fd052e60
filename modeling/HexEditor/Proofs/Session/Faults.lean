/-
Sessions on devices with faults. Before each event the file may begin or stop to refuse
what is read and written, and anything may have become of the log; an event that fails
leaves a session that the next one goes on with. What a step through the history comes
to on such devices is told by what the log and the file answer, one after the other.
-/

import HexEditor.Proofs.Session.Refusal

namespace HexEditor

namespace Session

variable {session : Session}

/-! ### Steps through the history -/

/-- What a step through the history comes to. -/
inductive Stepping (direction : HistoryStep) (session : Session) :
    EStateM.Result ActionFailure Session Unit → Prop where
  /-- The file is only read. -/
  | readOnly (reading : session.mode = .read) :
      Stepping direction session (.error (.command (.readOnly direction)) session)
  /-- The log does not give the record that is next. -/
  | unread {cause : LogFailure} {log : EditLog}
      (failed : logStep direction session.log = .error cause log) :
      Stepping direction session (.error (.log cause) { session with log })
  /-- There is no record next. -/
  | nothingLeft {log : EditLog} (answered : logStep direction session.log = .ok none log) :
      Stepping direction session (.error (.command (.nothingLeft direction)) { session with log })
  /-- The byte that the log gives is not written, but the file may hold it back. -/
  | refused {address : UInt64} {value : UInt8} {log : EditLog} {file : EditedFile}
      {cause : StorageFailure} (writable : session.mode ≠ .read)
      (answered : logStep direction session.log = .ok (some (address, value)) log)
      (refused : session.file.writeByte address.toNat value.toNat = (.error cause, file)) :
      Stepping direction session
        (.error (.command (.notWritten cause)) { session with file, log })
  /-- The byte is written, and the log is not settled. -/
  | unsettled {address : UInt64} {value : UInt8} {log last : EditLog} {file : EditedFile}
      {cause : LogFailure} (writable : session.mode ≠ .read)
      (answered : logStep direction session.log = .ok (some (address, value)) log)
      (taken : session.file.writeByte address.toNat value.toNat = (.ok (), file))
      (failed : EditLog.settle log = .error cause last) :
      Stepping direction session (.error (.log cause) { session with file, log := last })
  /-- The byte is written, the log is settled, and the cursor is where the byte is. -/
  | replayed {address : UInt64} {value : UInt8} {log last : EditLog} {file : EditedFile}
      (answered : logStep direction session.log = .ok (some (address, value)) log)
      (taken : session.file.writeByte address.toNat value.toNat = (.ok (), file))
      (settled : EditLog.settle log = .ok () last) :
      Stepping direction session
        (.ok () { session with
          file
          log := last
          jumps := session.window.cursor :: session.jumps
          window := session.window.goto address.toNat true })

theorem onLog_of_ok {Value : Type} {cause : LogFailure → ActionFailure}
    {action : EditLog.Action Value} {value : Value} {log : EditLog}
    (done : action session.log = .ok value log) :
    onLog cause action session = .ok value { session with log } := by
  rw [onLog, done]

theorem onLog_of_error {Value : Type} {cause : LogFailure → ActionFailure}
    {action : EditLog.Action Value} {failure : LogFailure} {log : EditLog}
    (failed : action session.log = .error failure log) :
    onLog cause action session = .error (cause failure) { session with log } := by
  rw [onLog, failed]

theorem stepping (direction : HistoryStep) (session : Session) :
    Stepping direction session (stepHistory direction session) := by
  rw [stepHistory, Action.bind_get]
  by_cases reading : session.mode = .read
  · rw [if_pos reading]
    exact .readOnly reading
  rw [if_neg reading]
  cases answered : logStep direction session.log with
  | error cause log =>
    rw [Action.bind_of_error (onLog_of_error answered)]
    exact .unread answered
  | ok answer log =>
    rw [Action.bind_of_ok (onLog_of_ok answered)]
    obtain _ | ⟨address, value⟩ := answer
    · exact .nothingLeft answered
    dsimp only
    rw [replay]
    rcases taken : session.file.writeByte address.toNat value.toNat with ⟨outcome, file⟩
    cases outcome with
    | error cause =>
      have failed : writeByte address.toNat value { session with log } =
          .error (.command (.notWritten cause)) { session with file, log } :=
        writeByte_of_error taken
      rw [Action.bind_of_error failed]
      exact .refused reading answered taken
    | ok =>
      have wrote : writeByte address.toNat value { session with log } =
          .ok () { session with file, log } := writeByte_of_ok taken
      rw [Action.bind_of_ok wrote]
      cases settled : EditLog.settle log with
      | error cause last =>
        have failed : onLog .log EditLog.settle { session with file, log } =
            .error (.log cause) { session with file, log := last } := onLog_of_error settled
        rw [Action.bind_of_error failed]
        exact .unsettled reading answered taken settled
      | ok value last =>
        have done : onLog .log EditLog.settle { session with file, log } =
            .ok () { session with file, log := last } := onLog_of_ok settled
        rw [Action.bind_of_ok done]
        exact .replayed answered taken settled

/-! ### Open files -/

/-- A session that is opened starts on its file. -/
theorem eq_of_openOn {content : Array UInt8} {logContent : List UInt8}
    {structs : List (String × Struct)} {height : Int}
    (opened : openOn content logContent structs height = .ok session) :
    ∃ log, session = start { content } log structs height := by
  rw [openOn] at opened
  cases found : (EditLog.openContent logContent).1 with
  | error corruption =>
    rw [found] at opened
    cases opened
  | ok log =>
    rw [found] at opened
    cases opened
    exact ⟨log, rfl⟩

/-- The file is open. -/
def Open (session : Session) : Prop := session.file.closed = false

/-- Writing a byte leaves a file in which one byte was written at most. -/
theorem left_writeByte (session : Session) (address : Int) (value : UInt8) :
    ∃ outcome file, session.file.writeByte address value.toNat = (outcome, file) ∧
      Action.left (writeByte address value session) = { session with file } := by
  rw [writeByte]
  rcases wrote : session.file.writeByte address value.toNat with ⟨outcome, file⟩
  cases outcome with
  | ok => exact ⟨_, file, rfl, rfl⟩
  | error cause => exact ⟨_, file, rfl, rfl⟩

/-- Work gives one byte to the file at most. -/
theorem Work.writtenOnce (work : Work) (session : Session) :
    session.file.WrittenOnce (Action.left (work.run session)).file := by
  cases work with
  | commit pending digit =>
    rw [run, left_thenRight, replaceByte]
    generalize withLowerDigit pending.value digit = value
    cases entered : EditLog.enter pending.address pending.old.toNat value.toNat session.log with
    | error failure log =>
      rw [Action.bind_of_error (onLog_of_error entered)]
      exact .kept .same
    | ok _ log =>
      rw [Action.bind_of_ok (onLog_of_ok entered), left_writeAndSettle]
      exact EditedFile.writtenOnce_of_writeByte (Prod.eta _).symm
  | step direction =>
    rw [run]
    have possible := stepping direction session
    generalize stepHistory direction session = outcome at possible ⊢
    cases possible with
    | refused _ _ refused => exact EditedFile.writtenOnce_of_writeByte refused
    | unsettled _ _ taken => exact EditedFile.writtenOnce_of_writeByte taken
    | replayed _ taken => exact EditedFile.writtenOnce_of_writeByte taken
    | _ => exact .kept .same

/-- Work leaves the file open. -/
theorem open_work (work : Work) : Action.Keeps Open work.run :=
  fun session opened => (work.writtenOnce session).closed_eq.trans opened

/-- A key leaves the file open. -/
theorem Open.handleKey (opened : session.Open) (key : Key) : (session.handleKey key).Open := by
  have kept : Open (Action.left (dispatch key { session with status := none })) := by
    rcases answers { session with status := none } key with
      ⟨_, quiet⟩ | ⟨_, digit, fresh, same⟩ | ⟨work, found, same⟩
    · exact quiet.file.closed_eq.trans opened
    · rw [same]
      rcases typeDigit_of_fresh fresh digit with ⟨_, kept, same⟩ | ⟨_, _, same⟩ <;> rw [same]
      · exact kept.closed_eq.trans opened
      · exact (EditedFile.kept_behindRead _ _ _).closed_eq.trans opened
    · rw [same]
      exact open_work work _ ((Work.quiet_opening _ work).file.closed_eq.trans opened)
  exact (quiet_handleKey session key).file.closed_eq.trans kept

end Session

/-! ### Runs -/

/-- Something that happens to a session, and what its devices are like meanwhile. -/
structure Trial where
  event : SessionEvent
  refusesRead : Bool := false
  refusesWrite : Bool := false
  refusesFlush : Bool := false
  /-- Whether a byte that was held back has been handed over by then, as by drawing the screen. -/
  arrived : Bool := false
  /-- What has become of the log by then; its device may have other faults, for instance. -/
  upset : EditLog → EditLog := id

namespace Trial

/-- The session that a trial meets. -/
def facing (trial : Trial) (session : Session) : Session :=
  { session with
    file := { session.file with
      refusesRead := trial.refusesRead
      refusesWrite := trial.refusesWrite
      refusesFlush := trial.refusesFlush
      heldBack := if trial.arrived then none else session.file.heldBack }
    log := trial.upset session.log }

/-- A byte that is held back stays so until a trial, or it has been handed over by then. -/
theorem heldBack_facing (trial : Trial) (session : Session) :
    (trial.facing session).file.heldBack = session.file.heldBack ∨
      (trial.facing session).file.heldBack = none := by
  cases arrived : trial.arrived with
  | true => exact .inr (if_pos arrived)
  | false => exact .inl (if_neg (ne_true_of_eq_false arrived))

def apply (trial : Trial) (session : Session) : Except LogCorruption Session :=
  trial.event.apply (trial.facing session)

def applyAll (trials : List Trial) (session : Session) : Except LogCorruption Session :=
  trials.foldlM (fun session trial => trial.apply session) session

theorem applyAll_append {first second : List Trial} {before next : Session}
    (ran : applyAll first before = .ok next) :
    applyAll (first ++ second) before = applyAll second next := by
  rw [applyAll] at ran
  rw [applyAll, List.foldlM_append, ran]
  rfl

/-- The work that a trial is for. -/
def work? (trial : Trial) (session : Session) : Option Session.Work :=
  match trial.event with
  | .key pressed => session.workOf pressed
  | _ => none

/-- What sessions have when they are opened, what is quiet keeps, and the key of a trial keeps is
kept by the trial. -/
theorem holds_of_apply {holds : Session → Prop} {trial : Trial} {session next : Session}
    (opens : ∀ {content logContent structs height opened},
      Session.openOn content logContent structs height = .ok opened → holds opened)
    (quiet : ∀ {before after : Session}, holds before → before.Quiet after → holds after)
    (facing : holds (trial.facing session))
    (keys : ∀ key, trial.event = .key key → holds ((trial.facing session).handleKey key))
    (applied : trial.apply session = .ok next) : holds next := by
  rw [apply] at applied
  cases event : trial.event with
  | key pressed =>
    rw [event] at applied
    cases applied
    exact keys pressed event
  | pointer report =>
    rw [event] at applied
    cases applied
    exact quiet facing (Session.quiet_handlePointer _ report)
  | resize height =>
    rw [event] at applied
    cases applied
    exact quiet facing (Session.quiet_resize _ height)
  | reopen structs height =>
    rw [event] at applied
    exact opens applied

/-- Every trial of some meets a condition in the session that it comes to. -/
def Throughout (condition : Trial → Session → Prop) : List Trial → Session → Prop
  | [], _ => True
  | trial :: rest, session =>
    condition trial session ∧
      match trial.apply session with
      | .ok next => Throughout condition rest next
      | .error _ => True

instance decidableThroughout {condition : Trial → Session → Prop}
    [∀ trial session, Decidable (condition trial session)] :
    (trials : List Trial) → (session : Session) → Decidable (Throughout condition trials session)
  | [], _ => .isTrue trivial
  | trial :: rest, session =>
    have : Decidable (match trial.apply session with
        | .ok next => Throughout condition rest next
        | .error _ => True) :=
      match trial.apply session with
      | .ok next => decidableThroughout rest next
      | .error _ => .isTrue trivial
    inferInstanceAs (Decidable (_ ∧ _))

/-- What holds at the beginning and is kept by every trial that meets a condition holds at the
end. -/
theorem holds_of_applyAll {holds : Session → Prop} {condition : Trial → Session → Prop}
    (keeps : ∀ trial before after, holds before → condition trial before →
      trial.apply before = .ok after → holds after)
    {trials : List Trial} {first last : Session} (here : holds first)
    (all : Throughout condition trials first) (ran : applyAll trials first = .ok last) :
    holds last := by
  induction trials generalizing first with
  | nil =>
    cases ran
    exact here
  | cons trial rest inductionHypothesis =>
    rw [applyAll, List.foldlM_cons] at ran
    obtain ⟨met, behind⟩ := all
    cases applied : trial.apply first with
    | error corruption =>
      rw [applied] at ran
      cases ran
    | ok next =>
      rw [applied] at ran behind
      exact inductionHypothesis (keeps trial first next here met applied) behind ran

end Trial

end HexEditor
