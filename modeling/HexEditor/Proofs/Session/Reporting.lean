/-
No failure ends the editor, and none is lost. A key makes a few calls to the log and to the file,
one after the other, and any of them may fail: the file gives the byte under the cursor, the log
takes an edit or gives a record, the file takes a byte, and the log is settled. Behind a call
that fails no other one is made; the key ends there, and its failure becomes the status. It is a
warning if the log was not settled, because the byte is in the file by then, and an error
otherwise. The rows beside the bytes may fail as well, but their failure does not hide another.
-/

import HexEditor.Proofs.Panel.Failures
import HexEditor.Proofs.Session.Steady

namespace HexEditor

/-- A failure that ends the editor, because nobody is prepared for it. -/
inductive Crash where
  | key (failure : ActionFailure)
  | rows (failure : AnnotationFailure)
  /-- There is no struct of the name of the one on show. -/
  | missing (name : String)
  deriving DecidableEq, Repr

namespace Session

variable {session : Session} {typed : Window → Option PendingByte → Prop} {height : Int}

/-! ### Handling a key, or ending there -/

/-- Recomputes the rows of the struct on show with some bytes. Only a foreseen failure leads to no
rows and to a status. -/
def refreshOrCrash (reader : ByteReader) (session : Session) : Except Crash Session :=
  match session.active with
  | none => .ok { session with rows := [] }
  | some name =>
    match session.structs.lookup name with
    | none => .error (.missing name)
    | some struct =>
      let file := session.behindRows struct
      match struct.annotate reader session.window.cursor session.window.height with
      | .ok (rows, struct) =>
        .ok { session with file, rows, structs := Table.set name struct session.structs }
      | .error failure =>
        if failure.isForeseen then
          .ok { session with
            file
            rows := []
            status := session.status.or (some ⟨.error, "struct: " ++ failure.message⟩) }
        else
          .error (.rows failure)

/-- Handles a key, with some view of the file for the rows. Only a foreseen failure becomes the
status. -/
def handleKeyOrCrash (view : EditedFile → ByteReader) (key : Key) (session : Session) :
    Except Crash Session :=
  match dispatch key { session with status := none } with
  | .ok _ after => after.refreshOrCrash (view after.file)
  | .error failure after =>
    if failure.isForeseen then
      refreshOrCrash (view after.file) { after with status := some failure.status }
    else
      .error (.key failure)

/-- Where the struct on show is there and bytes fail as foreseen, rows are recomputed. A status that
is there stays. -/
theorem Steady.refreshOrCrash (steady : session.Steady typed) {reader : ByteReader}
    (foreseen : reader.Foreseen) :
    ∃ after, session.refreshOrCrash reader = .ok after ∧ after.Steady typed ∧
      ∀ status, session.status = some status → after.status = some status := by
  unfold Session.refreshOrCrash
  split
  · exact ⟨_, rfl, steady.aside steady.shown, fun _ => id⟩
  · next name active =>
    obtain ⟨struct, found⟩ := Option.isSome_iff_exists.1 (steady.shown name active)
    have accessed := steady.access (kept_behindRows struct session)
    rw [found]
    dsimp only
    cases annotated : struct.annotate reader session.window.cursor session.window.height with
    | ok shown => exact ⟨_, rfl, accessed.aside (steady.shown_set _ _), fun _ => id⟩
    | error failure =>
      dsimp only
      rw [if_pos (Struct.foreseen_of_annotate foreseen annotated)]
      refine ⟨_, rfl, accessed.aside steady.shown, fun status there => ?_⟩
      rw [there]
      rfl

/-- With what there is to be seen of the file, nothing but the rows is computed. -/
theorem Steady.refreshOrCrash_reader (steady : session.Steady typed) :
    session.refreshOrCrash session.file.reader = .ok session.refresh := by
  rw [Session.refreshOrCrash, Session.refresh]
  cases active : session.active with
  | none => rfl
  | some name =>
    obtain ⟨struct, found⟩ := Option.isSome_iff_exists.1 (steady.shown name active)
    simp only [Option.bind_some, found, Option.map_some]
    cases annotated : struct.annotate session.file.reader session.window.cursor
        session.window.height with
    | ok shown => rfl
    | error failure =>
      dsimp only
      rw [if_pos (Struct.foreseen_of_annotate session.file.foreseen_reader annotated)]

/-- A key does not end the editor, and its failure is the status. -/
theorem Steady.handleKeyOrCrash (steady : session.Steady (Window.Remembered height)) (key : Key)
    {view : EditedFile → ByteReader} (foreseen : ∀ file, (view file).Foreseen) :
    ∃ after, session.handleKeyOrCrash view key = .ok after ∧
      after.Steady (Window.Remembered height) ∧
      ∀ failure stopped, dispatch key { session with status := none } = .error failure stopped →
        after.status = some failure.status := by
  have ended := ends_dispatch key { session with status := none } (steady.aside steady.shown)
  rw [Session.handleKeyOrCrash]
  cases ran : dispatch key { session with status := none } with
  | ok value after =>
    rw [ran] at ended
    obtain ⟨last, refreshed, kept, -⟩ := ended.refreshOrCrash (foreseen after.file)
    exact ⟨last, refreshed, kept, fun _ _ failed => by cases failed⟩
  | error failure after =>
    rw [ran] at ended
    have reported :
        Steady (Window.Remembered height) { after with status := some failure.status } :=
      ended.1.aside ended.1.shown
    obtain ⟨last, refreshed, kept, stays⟩ := reported.refreshOrCrash (foreseen after.file)
    refine ⟨last, (if_pos ended.2).trans refreshed, kept, fun _ _ failed => ?_⟩
    cases failed
    exact stays _ rfl

/-- With what there is to be seen of the file, a key comes to what it comes to. -/
theorem Steady.handleKeyOrCrash_reader (steady : session.Steady (Window.Remembered height))
    (key : Key) :
    session.handleKeyOrCrash EditedFile.reader key = .ok (session.handleKey key) := by
  have ended := ends_dispatch key { session with status := none } (steady.aside steady.shown)
  rw [Session.handleKeyOrCrash, Session.handleKey, reporting]
  cases ran : dispatch key { session with status := none } with
  | ok value after =>
    rw [ran] at ended
    exact ended.refreshOrCrash_reader
  | error failure after =>
    rw [ran] at ended
    have reported :
        Steady (Window.Remembered height) { after with status := some failure.status } :=
      ended.1.aside ended.1.shown
    exact (if_pos ended.2).trans reported.refreshOrCrash_reader

end Session

/-! ### Calls that fail -/

/-- A call to the file or the log that failed. -/
inductive FailedCall where
  /-- The file did not give the byte under the cursor. -/
  | read (cause : StorageFailure)
  /-- The log did not take an edit. -/
  | enter (cause : LogFailure)
  /-- The log did not give the record that is next. -/
  | step (cause : LogFailure)
  /-- The file did not take a byte. -/
  | write (cause : StorageFailure)
  | settle (cause : LogFailure)
  deriving DecidableEq, Repr

/-- The status that tells of a call. -/
def FailedCall.status : FailedCall → Status
  | read cause => ⟨.error, "Error: " ++ cause.message⟩
  | enter cause => ⟨.error, "Error: " ++ ("Undo log error: " ++ cause.message)⟩
  | step cause => ⟨.error, "Error: " ++ cause.message⟩
  | write cause => ⟨.error, "Error: " ++ ("Write error: " ++ cause.message)⟩
  | settle cause => ⟨.warning, "Warning: " ++ cause.message⟩

namespace Session

/-- The call that fails where a byte is written and the log is settled. -/
def failedWrite? (file : EditedFile) (log : EditLog) (address : Int) (value : UInt8) :
    Option FailedCall :=
  match file.writeByte address value.toNat with
  | (.error cause, _) => some (.write cause)
  | (.ok _, _) =>
    match EditLog.settle log with
    | .error cause _ => some (.settle cause)
    | .ok _ _ => none

/-- The call that fails where a byte is replaced, which is entered into the log first. -/
def failedReplacement? (session : Session) (address : Int) (old new : UInt8) :
    Option FailedCall :=
  match EditLog.enter address old.toNat new.toNat session.log with
  | .error cause _ => some (.enter cause)
  | .ok _ log => failedWrite? session.file log address new

/-- The call that fails in work. A step through the history takes the record that is next, unless
the file is only read, and it writes a byte only if there is one. -/
def Work.failed? (session : Session) : Work → Option FailedCall
  | .commit pending digit =>
    session.failedReplacement? pending.address pending.old (withLowerDigit pending.value digit)
  | .step direction =>
    if session.mode = .read then none
    else
      match logStep direction session.log with
      | .error cause _ => some (.step cause)
      | .ok none _ => none
      | .ok (some (address, value)) log => failedWrite? session.file log address.toNat value

/-- Whether a key is the first digit of a byte. -/
def begins (session : Session) : Key → Bool
  | .char character =>
    session.commandLine.isNone && session.mode == .replace && session.window.fileLength != 0 &&
      session.pendingByte.isNone && (hexDigit? character).isSome
  | _ => false

/-- The call to the file or the log that fails under a key. -/
def failed? (session : Session) (key : Key) : Option FailedCall :=
  match session.workOf key with
  | some work => work.failed? session
  | none =>
    if session.begins key then
      match session.file.byteAt session.window.cursor with
      | .error cause => some (.read cause)
      | .ok _ => none
    else
      none

variable {session : Session} {typed : Window → Option PendingByte → Prop} {height : Int}
  {call : FailedCall}

/-- A step through the records that fails does so where it reads one. -/
theorem status_of_logStep (usable : session.log.Usable) {direction : HistoryStep}
    {cause : LogFailure} {log : EditLog}
    (failed : logStep direction session.log = .error cause log) :
    (ActionFailure.log cause).status = (FailedCall.step cause).status := by
  have ended := ends_logStep direction session.log usable
  rw [failed] at ended
  obtain ⟨-, error, -, rfl⟩ := ended
  rfl

/-- A log that is usable is not settled, if so, for an error of the system. -/
theorem status_of_settle {log after : EditLog} (usable : log.Usable) {cause : LogFailure}
    (failed : EditLog.settle log = .error cause after) :
    (ActionFailure.log cause).status = (FailedCall.settle cause).status := by
  have ended := EditLog.ends_settle log usable
  rw [failed] at ended
  obtain ⟨-, error, -, rfl⟩ := ended
  rfl

/-- An action fails, and its failure tells of a call. -/
def Reports (call : FailedCall) (outcome : EStateM.Result ActionFailure Session Unit) : Prop :=
  ∃ failure after, outcome = .error failure after ∧ failure.status = call.status

/-- Moving on behind an action hides no failure. -/
theorem Reports.thenRight {action : Action Unit} (reports : Reports call (action session)) :
    Reports call (thenRight action session) := by
  obtain ⟨failure, after, failed, same⟩ := reports
  exact ⟨failure, _, by rw [Session.thenRight, failed], same⟩

/-- Replacing a byte reports the call that fails: entering the edit, writing the byte or settling
the log, whichever is the first. -/
theorem reports_replaceByte (usable : session.log.Usable) {address : UInt64} {old new : UInt8}
    (failed : session.failedReplacement? address.toNat old new = some call) :
    Reports call (replaceByte address.toNat old new session) := by
  have entering := EditLog.ends_enter address old new session.log usable
  rw [failedReplacement?] at failed
  rw [replaceByte]
  cases entered : EditLog.enter address.toNat old.toNat new.toNat session.log with
  | error cause log =>
    rw [entered] at failed
    cases failed
    exact ⟨_, _, Action.bind_of_error (onLog_of_error entered), rfl⟩
  | ok value log =>
    rw [entered] at failed entering
    rw [Action.bind_of_ok (onLog_of_ok entered)]
    dsimp only [failedWrite?] at failed
    rcases taken : session.file.writeByte address.toNat new.toNat with ⟨outcome, file⟩
    cases outcome with
    | error cause =>
      rw [taken] at failed
      cases failed
      exact ⟨_, _, Action.bind_of_error (writeByte_of_error taken), rfl⟩
    | ok =>
      rw [taken] at failed
      dsimp only at failed
      have wrote : writeByte address.toNat new { session with log } =
          .ok () { session with file, log } := writeByte_of_ok taken
      rw [Action.bind_of_ok wrote]
      cases settled : EditLog.settle log with
      | ok value last =>
        rw [settled] at failed
        cases failed
      | error cause last =>
        rw [settled] at failed
        cases failed
        exact ⟨_, _, onLog_of_error settled, status_of_settle entering settled⟩

/-- A step through the history reports the call that fails. -/
theorem reports_stepHistory (usable : session.log.Usable) {direction : HistoryStep}
    (failed : (Work.step direction).failed? session = some call) :
    Reports call (stepHistory direction session) := by
  have stepped := ends_logStep direction session.log usable
  have possible := stepping direction session
  generalize stepHistory direction session = outcome at possible ⊢
  rw [Work.failed?] at failed
  split at failed
  · cases failed
  next writable =>
  cases possible with
  | readOnly reading => exact absurd reading writable
  | unread unread =>
    rw [unread] at failed
    cases failed
    exact ⟨_, _, rfl, status_of_logStep usable unread⟩
  | nothingLeft answered =>
    rw [answered] at failed
    cases failed
  | refused _ answered refused =>
    rw [answered] at failed
    dsimp only [failedWrite?] at failed
    rw [refused] at failed
    cases failed
    exact ⟨_, _, rfl, rfl⟩
  | unsettled _ answered taken unsettled =>
    rw [answered] at failed stepped
    dsimp only [failedWrite?] at failed
    rw [taken] at failed
    dsimp only at failed
    rw [unsettled] at failed
    cases failed
    exact ⟨_, _, rfl, status_of_settle stepped unsettled⟩
  | replayed answered taken settled =>
    rw [answered] at failed
    dsimp only [failedWrite?] at failed
    rw [taken] at failed
    dsimp only at failed
    rw [settled] at failed
    cases failed

/-- The first digit of a byte reports that the byte was not read. -/
theorem reports_begin {key : Key} (begins : session.begins key = true) {cause : StorageFailure}
    (refused : session.file.byteAt session.window.cursor = .error cause) :
    Reports (.read cause) (dispatch key session) := by
  cases key with
  | char character =>
    simp only [Session.begins, Bool.and_eq_true, Option.isNone_iff_eq_none, beq_iff_eq,
      bne_iff_ne] at begins
    obtain ⟨⟨⟨⟨closed, replacing⟩, bytes⟩, fresh⟩, digits⟩ := begins
    obtain ⟨digit, value⟩ := Option.isSome_iff_exists.1 digits
    have typed : dispatch (.char character) session = typeDigit digit session := by
      rw [dispatch, Action.bind_get, closed]
      dsimp only
      rw [typeKey_char, value]
      dsimp only
      rw [if_pos replacing]
    rw [typed, typeDigit, Action.bind_get, if_pos bytes, fresh]
    exact ⟨_, _, Action.bind_of_error (by rw [readByte, refused]), rfl⟩
  | _ => cases begins

/-- A key reports the call that fails. -/
theorem Steady.reports (steady : session.Steady typed) {key : Key}
    (failed : session.failed? key = some call) : Reports call (dispatch key session) := by
  rw [failed?] at failed
  cases found : session.workOf key with
  | none =>
    rw [found] at failed
    dsimp only at failed
    split at failed
    · next begins =>
      split at failed
      · next refused =>
        cases failed
        exact reports_begin begins refused
      · cases failed
    · cases failed
  | some work =>
    rw [found] at failed
    rw [dispatch_of_workOf found]
    cases work with
    | step direction =>
      show Reports call (stepHistory direction { session with commandLine := none })
      refine reports_stepHistory ?_ ?_
      · exact steady.log
      · exact failed
    | commit pending digit =>
      have half : session.pendingByte = some pending := (of_workOf_commit found).2.2
      obtain ⟨address, word⟩ := steady.address pending (Option.filter_eq_some_iff.1 half).1
      replace failed : session.failedReplacement? pending.address pending.old
        (withLowerDigit pending.value digit) = some call := failed
      rw [word] at failed
      rw [Work.run, word]
      refine Reports.thenRight (reports_replaceByte ?_ ?_)
      · exact steady.log
      · exact failed

/-! ### Keys -/

/-- No failure ends the editor, and none is lost. Whatever has happened to a session so far, a key
is handled to its end, whatever the log and the file refuse meanwhile and however the bytes fail
that the rows are computed from. If a call of the key fails, the status tells of it: with a warning
if the log was not settled, and with an error otherwise. Behind the key the session is placed, the
cursor is on the screen if there are bytes, and a digit that is typed belongs to a byte. With the
bytes that there are to be seen of the file, the session is the one that the key leads to. -/
theorem failures_reported {content : Array UInt8} {logContent : List UInt8}
    {structs : List (String × Struct)} {opened : Session} (possible : content.size ≤ offsetLimit)
    (logPossible : logContent.length ≤ offsetLimit)
    (start : openOn content logContent structs height = .ok opened) {trials : List Trial}
    (spare : ∀ trial ∈ trials, trial.SparesLog)
    (ran : Trial.applyAll trials opened = .ok session) (room : 3 ≤ session.window.height)
    {trial : Trial} (spares : trial.SparesLog) (key : Key) {view : EditedFile → ByteReader}
    (foreseen : ∀ file, (view file).Foreseen) :
    (trial.facing session).handleKeyOrCrash EditedFile.reader key =
        .ok ((trial.facing session).handleKey key) ∧
      ∃ after, (trial.facing session).handleKeyOrCrash view key = .ok after ∧
        (∀ call, (trial.facing session).failed? key = some call →
          after.status = some call.status) ∧
        after.Placed ∧
        (0 < after.file.size → after.window.base ≤ after.window.cursor ∧
          after.window.cursor < after.window.endOffset) ∧
        (after.window.nibble = 1 → after.pending ≠ none) := by
  have faced := (steady_of_run possible logPossible start spare ran).facing spares
  refine ⟨faced.handleKeyOrCrash_reader key, ?_⟩
  obtain ⟨after, handled, kept, told⟩ := faced.handleKeyOrCrash key foreseen
  have tall : 3 ≤ after.window.height := kept.typed.height_eq.symm ▸ room
  refine ⟨after, handled, fun call failed => ?_, kept.placed, fun bytes => ?_, kept.typed.byte⟩
  · have cleared : Steady (Window.Remembered session.window.height)
        { trial.facing session with status := none } :=
      faced.aside faced.shown
    have reports : Reports call (dispatch key { trial.facing session with status := none }) :=
      cleared.reports failed
    obtain ⟨failure, stopped, dispatched, same⟩ := reports
    rw [told failure stopped dispatched, same]
  · have length := kept.placed.length_eq
    exact kept.placed.window.visible tall (by omega)

/-- The first digit of a byte. -/
def beginning : List Trial :=
  ['R', '0'].map fun character => { event := .key (.char character) }

/-- A device on which the log cannot be flushed. -/
def unflushed : Trial where
  event := .key (.char 'a')
  upset log := log.withFaults { refused := [.flush] }

theorem failures_reported_unflushed :
    ∃ opened session after, openOn #[1, 2, 3] [] [] 25 = .ok opened ∧
      Trial.applyAll beginning opened = .ok session ∧ 3 ≤ session.window.height ∧
      unflushed.SparesLog ∧
      (unflushed.facing session).handleKeyOrCrash (fun _ => .refusing) (.char 'a') = .ok after ∧
      after.status = some ⟨.warning,
        "Warning: injected flush failure - the log is inconsistent now, proceed with care!"⟩ := by
  have spare : ∀ trial ∈ beginning, trial.SparesLog := by
    intro trial member
    obtain ⟨character, -, rfl⟩ := List.mem_map.1 member
    exact fun log => ⟨log.file.faults, rfl⟩
  have spares : unflushed.SparesLog := fun log => ⟨{ refused := [.flush] }, rfl⟩
  have start : openOn #[1, 2, 3] [] [] 25 =
      .ok (Session.start { content := #[1, 2, 3] } EditLog.freshLog [] 25) := rfl
  obtain ⟨session, ran⟩ : ∃ session, Trial.applyAll beginning
      (Session.start { content := #[1, 2, 3] } EditLog.freshLog [] 25) = .ok session := ⟨_, rfl⟩
  have room : 3 ≤ session.window.height := by cases ran; decide
  have failed : (unflushed.facing session).failed? (.char 'a') =
      some (.settle (.notSettled (.refused .flush))) := by
    cases ran
    rfl
  obtain ⟨-, after, handled, told, -⟩ := failures_reported (by decide) (by decide) start spare ran
    room spares (.char 'a') fun _ => ByteReader.foreseen_refusing
  exact ⟨_, session, after, start, ran, room, spares, handled, told _ failed⟩

end Session

end HexEditor
