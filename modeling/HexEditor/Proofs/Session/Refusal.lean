/-
What becomes of the log when the file refuses a byte. The log has moved by then and is
not settled any more, so its header stays where it was and the position moves away from
it, one record with each edit, undo or redo whose byte is refused. The log opens at
every moment of such a run unless an edit is entered while the header is ahead of the
position by more than one record: then the file is cut in front of the position in the
header, and it stays so for as long as bytes are refused.
-/

import HexEditor.Proofs.History.Lag
import HexEditor.Proofs.Session.Events

namespace HexEditor

/-- The change of a log that a step through the history is. -/
def HistoryStep.change : HistoryStep → EditLog.Change
  | undo => .undo
  | redo => .redo

theorem HistoryStep.run_change (direction : HistoryStep) (log : EditLog) :
    direction.change.operation.run log = Session.logStep direction log := by
  cases direction <;> rfl

namespace Session

variable {session : Session} {history : History}

/-! ### The log under work -/

/-- The change of the log that work makes, with the byte that is written afterwards and its
address. -/
def Work.change? (session : Session) : Work → Option (EditLog.Change × Int × UInt8)
  | .commit pending digit =>
    (word? pending.address).map fun address =>
      let value := withLowerDigit pending.value digit
      (.enter ⟨address, pending.old, value⟩, pending.address, value)
  | .step direction =>
    if session.mode = .read then none
    else
      match logStep direction session.log with
      | .ok (some (address, value)) _ => some (direction.change, address.toNat, value)
      | _ => none

/-- Whether a byte is written without a failure. -/
def takes (session : Session) (address : Int) (value : UInt8) : Bool :=
  (session.file.writeByte address value.toNat).1.isOk

/-- The changes that work makes to the file of the log, which is settled if the file takes the byte.
Nothing is changed where there is no room for an edit. -/
def Work.logSteps (session : Session) (work : Work) : List FileStep :=
  match work.change? session with
  | some (change, address, value) =>
    match change.operation.run session.log with
    | .ok _ _ => change.stepsUntil (session.takes address value) session.log
    | .error _ _ => []
  | none => []

theorem Work.logSteps_of_ok {work : Work} {change : EditLog.Change} {address : Int} {value : UInt8}
    (found : work.change? session = some (change, address, value))
    {answer : Option (UInt64 × UInt8)} {next : EditLog}
    (ran : change.operation.run session.log = .ok answer next) :
    work.logSteps session = change.stepsUntil (session.takes address value) session.log := by
  rw [logSteps, found]
  dsimp only
  rw [ran]

theorem Work.logSteps_of_error {work : Work} {change : EditLog.Change} {address : Int}
    {value : UInt8} (found : work.change? session = some (change, address, value))
    {failure : LogFailure} {next : EditLog}
    (failed : change.operation.run session.log = .error failure next) :
    work.logSteps session = [] := by
  rw [logSteps, found]
  dsimp only
  rw [failed]

theorem Work.logSteps_of_none {work : Work} (idle : work.change? session = none) :
    work.logSteps session = [] := by
  rw [logSteps, idle]

/-- The changes of work are those of the change that it makes, or there are none. -/
theorem Work.logSteps_cases (work : Work) (session : Session) :
    work.logSteps session = [] ∨ ∃ change address value,
      work.change? session = some (change, address, value) ∧
        work.logSteps session = change.stepsUntil (session.takes address value) session.log := by
  cases found : work.change? session with
  | none => exact .inl (logSteps_of_none found)
  | some entry =>
    obtain ⟨change, address, value⟩ := entry
    cases ran : change.operation.run session.log with
    | ok answer next => exact .inr ⟨change, address, value, rfl, logSteps_of_ok found ran⟩
    | error failure next => exact .inl (logSteps_of_error found ran)

theorem Work.isChange_of_logSteps {work : Work} {step : FileStep}
    (member : step ∈ work.logSteps session) : step.isChange = true := by
  rcases work.logSteps_cases session with none | ⟨change, _, _, -, same⟩
  · rw [none] at member
    cases member
  · rw [same] at member
    exact EditLog.Change.isChange_of_stepsUntil member

theorem left_onLog {Value : Type} (cause : LogFailure → ActionFailure)
    (action : EditLog.Action Value) (session : Session) :
    Action.left (onLog cause action session) =
      { session with log := Action.left (action session.log) } := by
  rw [onLog]
  cases action session.log <;> rfl

/-- Writing a byte and settling leaves the file behind the byte, and a log that is settled if the
file takes the byte. -/
theorem left_writeAndSettle (session : Session) (address : Int) (value : UInt8) :
    Action.left ((do writeByte address value; onLog .log EditLog.settle : Action Unit) session) =
      { session with
        file := (session.file.writeByte address value.toNat).2
        log := if session.takes address value then Action.left (EditLog.settle session.log)
          else session.log } := by
  rw [takes]
  rcases written : session.file.writeByte address value.toNat with ⟨outcome, file⟩
  cases outcome with
  | error failure =>
    rw [Action.bind_of_error (writeByte_of_error written)]
    rfl
  | ok =>
    rw [Action.bind_of_ok (writeByte_of_ok written), left_onLog]
    rfl

/-- What is quiet behind an action leaves the log as the action left it. -/
theorem log_bind_of_quiet {action : Action Unit} {next : Unit → Action Unit}
    (quiet : ∀ value start, Action.Keeps (Quiet start) (next value)) (session : Session) :
    (Action.left ((action >>= next) session)).log = (Action.left (action session)).log := by
  cases ran : action session with
  | ok value after =>
    rw [Action.bind_of_ok ran]
    exact (quiet value after after .rfl).log
  | error failure after =>
    rw [Action.bind_of_error ran]

theorem log_replay (session : Session) (address : UInt64) (value : UInt8) :
    (Action.left (replay address value session)).log =
      if session.takes address.toNat value then Action.left (EditLog.settle session.log)
      else session.log := by
  have regrouped : replay address value =
      (do writeByte address.toNat value; onLog .log EditLog.settle : Action Unit) >>=
        fun _ => goto address.toNat := by
    rw [replay, bind_assoc]
  rw [regrouped, log_bind_of_quiet fun _ _ => quiet_goto _ _, left_writeAndSettle]

/-- Committing a byte makes the changes of the edit to the log file, and leaves a log that holds a
history. -/
theorem log_commit (holds : session.log.Holds history) (pending : PendingByte) (digit : Nat) :
    (Action.left ((Work.commit pending digit).run session)).log.file =
        session.log.file.makeAll ((Work.commit pending digit).logSteps session) ∧
      ∃ history, (Action.left ((Work.commit pending digit).run session)).log.Holds history := by
  have changes : (Work.commit pending digit).change? session =
      (word? pending.address).map fun address =>
        (.enter ⟨address, pending.old, withLowerDigit pending.value digit⟩, pending.address,
          withLowerDigit pending.value digit) := rfl
  rw [Work.run, left_thenRight, replaceByte]
  generalize withLowerDigit pending.value digit = value at changes ⊢
  cases found : word? pending.address with
  | none =>
    rw [found] at changes
    rw [Work.logSteps_of_none changes]
    have refused : onLog (fun cause => .command (.notLogged cause))
        (EditLog.enter pending.address pending.old.toNat value.toNat) session =
          .error (.command (.notLogged .noRecord)) session := by
      rw [onLog, EditLog.enter_of_noWord holds.sound found]
    rw [Action.bind_of_error refused]
    exact ⟨rfl, _, holds⟩
  | some address =>
    rw [found, toNat_of_word? found] at changes
    rw [toNat_of_word? found]
    cases ran : EditLog.enter address.toNat pending.old.toNat value.toNat session.log with
    | error failure after =>
      have failed : (EditLog.Change.enter ⟨address, pending.old, value⟩).operation.run session.log =
          .error failure after := Action.bind_of_error ran
      rw [Work.logSteps_of_error changes failed]
      have same := EditLog.Change.eq_of_error holds (.enter ⟨address, pending.old, value⟩) failed
      have refused : onLog (fun cause => .command (.notLogged cause))
          (EditLog.enter address.toNat pending.old.toNat value.toNat) session =
            .error (.command (.notLogged failure)) { session with log := after } := by
        rw [onLog, ran]
      rw [Action.bind_of_error refused]
      exact ⟨congrArg EditLog.file same, _, same ▸ holds⟩
    | ok entered after =>
      have done : (EditLog.Change.enter ⟨address, pending.old, value⟩).operation.run session.log =
          .ok none after := Action.bind_of_ok ran
      rw [Work.logSteps_of_ok changes done]
      have asked : onLog (fun cause => .command (.notLogged cause))
          (EditLog.enter address.toNat pending.old.toNat value.toNat) session =
            .ok () { session with log := after } := by
        rw [onLog, ran]
      rw [Action.bind_of_ok asked, left_writeAndSettle]
      exact EditLog.Change.stepsUntil_of_ok holds (.enter ⟨address, pending.old, value⟩) done
        (session.takes address.toNat value)

/-- A step through the history does the same with the changes of its own. -/
theorem log_stepHistory (holds : session.log.Holds history) (direction : HistoryStep) :
    (Action.left (stepHistory direction session)).log.file =
        session.log.file.makeAll ((Work.step direction).logSteps session) ∧
      ∃ history, (Action.left (stepHistory direction session)).log.Holds history := by
  have changes : (Work.step direction).change? session =
      if session.mode = .read then none
      else
        match logStep direction session.log with
        | .ok (some (address, value)) _ => some (direction.change, (address.toNat : Int), value)
        | _ => none := rfl
  rw [stepHistory, Action.bind_get]
  by_cases readOnly : session.mode = .read
  · rw [if_pos readOnly] at changes ⊢
    rw [Work.logSteps_of_none changes]
    exact ⟨rfl, _, holds⟩
  rw [if_neg readOnly] at changes ⊢
  obtain ⟨log, file, answered, moved⟩ : ∃ log : EditLog, log.file = session.log.file ∧
      logStep direction session.log = .ok (direction.apply history).1 log ∧
      log.Holds (direction.apply history).2 := by
    exact ⟨session.log.movedTo (16 + 16 * (direction.apply history).2.index) session.log.stop,
      rfl, holds.step direction⟩
  have asked : onLog .log (logStep direction) session =
      .ok (direction.apply history).1 { session with log } := by
    rw [onLog, answered]
  rw [Action.bind_of_ok asked]
  rw [answered] at changes
  cases found : (direction.apply history).1 with
  | none =>
    rw [found] at changes
    rw [Work.logSteps_of_none changes]
    exact ⟨file, _, moved⟩
  | some pair =>
    obtain ⟨address, value⟩ := pair
    rw [found] at answered changes
    have ran := (direction.run_change session.log).trans answered
    rw [Work.logSteps_of_ok changes ran]
    dsimp only
    rw [log_replay]
    exact EditLog.Change.stepsUntil_of_ok holds direction.change ran _

/-- Work makes its changes to the log file, and leaves a log that holds a history. -/
theorem Work.run_log (holds : session.log.Holds history) (work : Work) :
    (Action.left (work.run session)).log.file =
        session.log.file.makeAll (work.logSteps session) ∧
      ∃ history, (Action.left (work.run session)).log.Holds history := by
  cases work with
  | commit pending digit => exact log_commit holds pending digit
  | step direction => exact log_stepHistory holds direction

/-- Work leaves a log file that opens wherever it stops, unless a byte is committed while the header
is ahead of the position by more than one record. -/
theorem Work.openable_of_cut (holds : session.log.Holds history)
    (openable : EditLog.Openable session.log.file.content) (work : Work)
    (near : ∀ pending digit, work = .commit pending digit → session.log.Near)
    {done : List FileStep} {left : List UInt8}
    (cut : CutOff session.log.file.content (work.logSteps session) done left) :
    EditLog.Openable left := by
  rcases work.logSteps_cases session with none | ⟨change, address, value, found, same⟩
  · rw [none] at cut
    cases cut
    exact openable
  · rw [same] at cut
    refine EditLog.Change.openable_of_stepsUntil holds openable change _ ?_ cut
    rintro record rfl
    cases work with
    | commit pending digit => exact near pending digit rfl
    | step direction =>
      rw [Work.change?] at found
      split at found
      · cases found
      split at found
      · cases direction <;> cases found
      · cases found

end Session

/-! ### Runs in which bytes are refused -/

/-- Something that happens to a session, and whether bytes are refused meanwhile. -/
structure Attempt where
  event : SessionEvent
  /-- Whether the file refuses to take a byte. -/
  refuses : Bool := false
  /-- Whether the device refuses what the file has taken. -/
  refusesFlush : Bool := false
  /-- Whether a byte that was held back has been handed over by then, as by drawing the screen. -/
  arrived : Bool := false

namespace Attempt

/-- The session that an attempt meets. -/
def facing (attempt : Attempt) (session : Session) : Session :=
  { session with
    file := { session.file with
      refusesWrite := attempt.refuses
      refusesFlush := attempt.refusesFlush
      heldBack := if attempt.arrived then none else session.file.heldBack } }

def apply (attempt : Attempt) (session : Session) : Except LogCorruption Session :=
  attempt.event.apply (attempt.facing session)

def applyAll (attempts : List Attempt) (session : Session) : Except LogCorruption Session :=
  attempts.foldlM (fun session attempt => attempt.apply session) session

/-- The work that an attempt is for. -/
def work? (attempt : Attempt) (session : Session) : Option Session.Work :=
  match attempt.event with
  | .key pressed => session.workOf pressed
  | _ => none

/-- The changes that an attempt makes to the file of the log. -/
def logSteps (attempt : Attempt) (session : Session) : List FileStep :=
  match attempt.work? session with
  | some work => work.logSteps (attempt.facing session)
  | none => []

theorem isChange_of_logSteps {attempt : Attempt} {session : Session} {step : FileStep}
    (member : step ∈ attempt.logSteps session) : step.isChange = true := by
  rw [logSteps] at member
  split at member
  · exact Session.Work.isChange_of_logSteps member
  · cases member

/-- The changes that the file of the log has kept account of in an attempt, which tell what has
become of its content. Opening the log again begins a new account. -/
structure Makes (attempt : Attempt) (session next : Session) (made : List FileStep) : Prop where
  account : next.log.file.made =
    (match attempt.event with
      | .reopen _ _ => []
      | _ => session.log.file.made) ++ made
  content : next.log.file.content = made.foldl FileStep.effect session.log.file.content

/-- Whether an attempt commits a byte. -/
def commits (attempt : Attempt) (session : Session) : Bool :=
  match attempt.work? session with
  | some (.commit _ _) => true
  | _ => false

/-- If an attempt commits a byte, the header of the log is ahead of the position by one record at
most. -/
def Near (attempt : Attempt) (session : Session) : Prop :=
  attempt.commits session = true → session.log.Near

/-- No attempt commits a byte while the header of the log is ahead of the position by more than one
record. -/
def AllNear : List Attempt → Session → Prop
  | [], _ => True
  | attempt :: rest, session =>
    attempt.Near session ∧
      match attempt.apply session with
      | .ok next => AllNear rest next
      | .error _ => True

instance (attempt : Attempt) (session : Session) : Decidable (attempt.Near session) :=
  inferInstanceAs (Decidable (_ = true → _ ≤ _))

instance decidableAllNear :
    (attempts : List Attempt) → (session : Session) → Decidable (AllNear attempts session)
  | [], _ => .isTrue trivial
  | attempt :: rest, session =>
    have : Decidable (match attempt.apply session with
        | .ok next => AllNear rest next
        | .error _ => True) :=
      match attempt.apply session with
      | .ok next => decidableAllNear rest next
      | .error _ => .isTrue trivial
    inferInstanceAs (Decidable (_ ∧ _))

end Attempt

namespace Session

variable {session : Session} {attempt : Attempt}

/-- A log that holds a history, in a file that opens. -/
structure Recoverable (session : Session) : Prop where
  holds : ∃ history, session.log.Holds history
  openable : EditLog.Openable session.log.file.content

/-- A key leaves the log as it was, unless it is for work. -/
theorem log_handleKey (session : Session) (key : Key) :
    (session.handleKey key).log =
      match session.workOf key with
      | some work => (Action.left (work.run (work.opening { session with status := none }))).log
      | none => session.log := by
  rw [(quiet_handleKey session key).log]
  rcases answers { session with status := none } key with
    ⟨idle, quiet⟩ | ⟨idle, digit, fresh, same⟩ | ⟨work, found, same⟩
  · replace idle : session.workOf key = none := idle
    rw [idle]
    exact quiet.log
  · replace idle : session.workOf key = none := idle
    rw [idle, same]
    exact log_of_fresh fresh digit
  · replace found : session.workOf key = some work := found
    rw [found, same]

theorem Work.logSteps_opening (session : Session) (work : Work) :
    work.logSteps (work.opening { session with status := none }) = work.logSteps session := by
  cases work <;> rfl

/-- A session that is opened on files has a log file that opens. -/
theorem recoverable_openOn {content : Array UInt8} {logContent : List UInt8}
    {structs : List (String × Struct)} {height : Int}
    (opened : openOn content logContent structs height = .ok session) :
    session.Recoverable := by
  rw [openOn] at opened
  rcases found : EditLog.openContent logContent with ⟨outcome, left⟩
  rw [found] at opened
  cases outcome with
  | error failure => cases opened
  | ok log =>
    cases opened
    obtain ⟨-, settled, history, holds⟩ := EditLog.holds_of_open found
    exact ⟨⟨history, holds⟩, holds.openable settled⟩

/-- An attempt leaves a log file that opens wherever it stops, unless it commits a byte while the
header is ahead of the position by more than one record. -/
theorem Recoverable.openable_of_cut (recoverable : session.Recoverable)
    (near : attempt.Near session) {done : List FileStep} {left : List UInt8}
    (cut : CutOff session.log.file.content (attempt.logSteps session) done left) :
    EditLog.Openable left := by
  obtain ⟨history, holds⟩ := recoverable.holds
  rw [Attempt.logSteps] at cut
  cases found : attempt.work? session with
  | none =>
    rw [found] at cut
    cases cut
    exact recoverable.openable
  | some work =>
    rw [found] at cut
    have faced : (attempt.facing session).log.Holds history := holds
    exact Work.openable_of_cut faced recoverable.openable work
      (fun pending digit same => near (by rw [Attempt.commits, found, same])) cut

/-- Closing the files and opening a session on them leaves the content of the log file as it is, and
begins a new account of it. -/
theorem Recoverable.openOn (recoverable : session.Recoverable) (content : Array UInt8)
    (structs : List (String × Struct)) (height : Int) :
    ∃ next, Session.openOn content session.log.file.content structs height = .ok next ∧
      next.log.file = { content := session.log.file.content } := by
  obtain ⟨history, holds⟩ := recoverable.holds
  obtain ⟨size, same⟩ := holds.fill_eq
  have inside := Nat.le_trans recoverable.openable.inside
    (EditLog.slotsUp_bounds session.log.file.content.length).1
  have opened := EditLog.openContent_of_header recoverable.openable.header rfl
    (Nat.mod_eq_zero_of_dvd recoverable.openable.slot) recoverable.openable.first inside
  refine ⟨_, by rw [Session.openOn, opened]; rfl, ?_⟩
  exact congrArg (fun content => ({ content } : DeviceFile)) same

/-- Every attempt succeeds and makes its changes to the log file. -/
theorem Recoverable.carriesOut (recoverable : session.Recoverable) (attempt : Attempt) :
    ∃ next, attempt.apply session = .ok next ∧
      attempt.Makes session next (attempt.logSteps session) ∧
      ∃ history, next.log.Holds history := by
  obtain ⟨history, holds⟩ := recoverable.holds
  obtain ⟨event, refuses, refusesFlush, arrived⟩ := attempt
  have idle {next : Session} (same : next.log = session.log) :
      EditLog.Accounts session.log next.log [] :=
    .of_makeAll (congrArg EditLog.file same) nofun
  cases event with
  | key pressed =>
    let faced := Attempt.facing ⟨.key pressed, refuses, refusesFlush, arrived⟩ session
    have same : faced.workOf pressed = session.workOf pressed := rfl
    refine ⟨_, rfl, ?_⟩
    have accounts : EditLog.Accounts session.log (faced.handleKey pressed).log
          (Attempt.logSteps ⟨.key pressed, refuses, refusesFlush, arrived⟩ session) ∧
        ∃ history, (faced.handleKey pressed).log.Holds history := by
      rw [log_handleKey, same, Attempt.logSteps, Attempt.work?]
      dsimp only
      cases session.workOf pressed with
      | none => exact ⟨idle rfl, history, holds⟩
      | some work =>
        have opening := (Work.quiet_opening { faced with status := none } work).log
        have opened : (work.opening { faced with status := none }).log.Holds history := by
          rw [opening]
          exact holds
        have done := work.run_log opened
        rw [Work.logSteps_opening, opening] at done
        exact ⟨.of_makeAll done.1 fun _ => Work.isChange_of_logSteps, done.2⟩
    exact ⟨⟨accounts.1.account, accounts.1.content⟩, accounts.2⟩
  | pointer report =>
    have same := (quiet_handlePointer
      (Attempt.facing ⟨.pointer report, refuses, refusesFlush, arrived⟩ session) report).log
    exact ⟨_, rfl, ⟨(idle same).account, (idle same).content⟩, history, same ▸ holds⟩
  | resize height =>
    have same := (quiet_resize
      (Attempt.facing ⟨.resize height, refuses, refusesFlush, arrived⟩ session) height).log
    exact ⟨_, rfl, ⟨(idle same).account, (idle same).content⟩, history, same ▸ holds⟩
  | reopen structs height =>
    obtain ⟨next, ran, file⟩ := recoverable.openOn
      (Attempt.facing ⟨.reopen structs height, refuses, refusesFlush, arrived⟩
        session).file.leftBehind
      structs height
    exact ⟨next, ran, ⟨by rw [file]; rfl, by rw [file]; rfl⟩, (recoverable_openOn ran).holds⟩

/-- An attempt that commits no byte while the header is ahead by more than one record leaves a log
file that opens. -/
theorem Recoverable.apply (recoverable : session.Recoverable) (near : attempt.Near session) :
    ∃ next, attempt.apply session = .ok next ∧
      attempt.Makes session next (attempt.logSteps session) ∧ next.Recoverable := by
  obtain ⟨next, ran, makes, nextHolds⟩ := recoverable.carriesOut attempt
  refine ⟨next, ran, makes, nextHolds, ?_⟩
  rw [makes.content]
  exact recoverable.openable_of_cut near (.of_all _ _)

theorem Recoverable.applyAll (recoverable : session.Recoverable) {attempts : List Attempt}
    {behind : List Attempt} (near : Attempt.AllNear (attempts ++ behind) session) :
    ∃ last, Attempt.applyAll attempts session = .ok last ∧ last.Recoverable ∧
      Attempt.AllNear behind last := by
  induction attempts generalizing session with
  | nil => exact ⟨session, rfl, recoverable, near⟩
  | cons attempt rest inductionHypothesis =>
    obtain ⟨here, after⟩ := near
    obtain ⟨next, ran, -, nextRecoverable⟩ := recoverable.apply here
    obtain ⟨last, ranRest, lastRecoverable, nearBehind⟩ :=
      inductionHypothesis nextRecoverable (by rw [ran] at after; exact after)
    refine ⟨last, ?_, lastRecoverable, nearBehind⟩
    rw [Attempt.applyAll, List.foldlM_cons, ran]
    exact ranRest

/-- The log file opens at every moment of a session in which bytes are refused, also when the work
stops within a record, as long as no byte is committed while the header is ahead of the position by
more than one record. The moments are those between the changes that the file keeps account of. -/
theorem log_opens_at_every_moment {content : Array UInt8} {logContent : List UInt8}
    {structs : List (String × Struct)} {height : Int} {opened : Session}
    (start : Session.openOn content logContent structs height = .ok opened)
    {attempts : List Attempt} {attempt : Attempt}
    (near : Attempt.AllNear (attempts ++ [attempt]) opened) :
    ∃ session next made, Attempt.applyAll attempts opened = .ok session ∧
      attempt.apply session = .ok next ∧ attempt.Makes session next made ∧
      ∀ done remains, CutOff session.log.file.content made done remains →
        EditLog.Opens remains := by
  obtain ⟨session, ran, recoverable, nearHere⟩ := (recoverable_openOn start).applyAll near
  obtain ⟨next, ranNext, makes, -⟩ := recoverable.apply nearHere.1
  exact ⟨session, next, _, ran, ranNext, makes, fun _ _ cut =>
    (recoverable.openable_of_cut nearHere.1 cut).opens⟩

/-- An edit that is entered while the header is ahead of the position by more than one record leaves
a log file that does not open at some moment, whether the file takes the byte or not. -/
theorem Recoverable.shut_of_far (recoverable : session.Recoverable) {work : Work}
    (found : attempt.work? session = some work) {record : EditRecord} {address : Int}
    {value : UInt8}
    (entered : work.change? (attempt.facing session) = some (.enter record, address, value))
    (room : session.log.position + slotSize < offsetLimit) (far : ¬ session.log.Near) :
    ∃ next made, attempt.apply session = .ok next ∧ attempt.Makes session next made ∧
      ∃ done remains, CutOff session.log.file.content made done remains ∧
        EditLog.openContent remains =
          (.error (.position (EditLog.headerPosition session.log.file.content)), remains) := by
  obtain ⟨history, holds⟩ := recoverable.holds
  obtain ⟨next, ran, makes, -⟩ := recoverable.carriesOut attempt
  obtain ⟨remains, cut, shut⟩ :=
    EditLog.Change.openContent_of_enter holds record (Nat.not_le.1 far)
  have done : (EditLog.Change.enter record).operation.run (attempt.facing session).log =
      .ok none (session.log.withRecord record) :=
    Action.bind_of_ok (EditLog.enter_of_room holds.sound record room)
  have steps : attempt.logSteps session =
      (EditLog.Change.enter record).stepsUntil ((attempt.facing session).takes address value)
        session.log := by
    rw [Attempt.logSteps, found]
    exact Work.logSteps_of_ok entered done
  rw [steps] at makes
  exact ⟨next, _, ran, makes, _, remains, cut.of_prefix (List.prefix_append _ _), shut⟩

/-- The keys that edit two bytes, undo some edits and begin to edit a byte again, where the file
takes the first two bytes and none after them. -/
def refusedUndoing (steps : Nat) : List Attempt :=
  (['R', '0', 'a', '0', 'b'].map fun character => { event := .key (.char character) }) ++
    (List.replicate steps 'u' ++ ['0']).map fun character =>
      { event := .key (.char character), refuses := true }

/-- The second digit of that byte. -/
def refusedDigit : Attempt := { event := .key (.char 'c'), refuses := true }

theorem log_opens_at_every_moment_once :
    ∃ opened, Session.openOn #[1, 2, 3] [] [] 25 = .ok opened ∧
      Attempt.AllNear (refusedUndoing 1 ++ [refusedDigit]) opened ∧
      ∃ session next made, Attempt.applyAll (refusedUndoing 1) opened = .ok session ∧
        refusedDigit.apply session = .ok next ∧ refusedDigit.Makes session next made ∧
        ∀ done remains, CutOff session.log.file.content made done remains →
          EditLog.Opens remains := by
  have start : Session.openOn #[1, 2, 3] [] [] 25 =
      .ok (start { content := #[1, 2, 3] } EditLog.freshLog [] 25) := rfl
  have near : Attempt.AllNear (refusedUndoing 1 ++ [refusedDigit])
      (Session.start { content := #[1, 2, 3] } EditLog.freshLog [] 25) := by
    decide +kernel
  exact ⟨_, start, near, log_opens_at_every_moment start near⟩

/-- With one more step back the log file does not open any more. -/
theorem log_shut_by_refusals :
    ∃ opened session, Session.openOn #[1, 2, 3] [] [] 25 = .ok opened ∧
      Attempt.applyAll (refusedUndoing 2 ++ [refusedDigit]) opened = .ok session ∧
      session.log.position = 32 ∧
      EditLog.openContent session.log.file.content =
        (.error (.position 48), session.log.file.content) := by
  set_option maxRecDepth 20000 in
  exact ⟨_, _, rfl, rfl, rfl, rfl⟩

end Session

end HexEditor
