/-
What becomes of a byte that is refused, by the file or by its device. The log has moved by
then and does not move back, so to the log the byte is written: the next step in the same
direction goes on to the record behind it, or finds none behind an edit that was just
entered. One step in the other direction comes back first, and from there the step is made
again. So a refused byte can always be written later, by two steps and not by one.
-/

import HexEditor.Proofs.Session.Faults

namespace HexEditor

/-! ### Steps there and back -/

namespace HistoryStep

def opposite : HistoryStep → HistoryStep
  | undo => redo
  | redo => undo

/-- The key that is pressed for a step. -/
def key : HistoryStep → Key
  | undo => .char 'u'
  | redo => .control 'r'

variable {history next : History} {direction : HistoryStep} {address : UInt64} {value : UInt8}

/-- A step that finds a record is taken back by one in the other direction, which finds the same
record. -/
theorem apply_opposite (found : direction.apply history = (some (address, value), next)) :
    ∃ other, direction.opposite.apply next = (some (address, other), history) := by
  obtain ⟨records, index, within⟩ := history
  cases direction with
  | undo =>
    cases index with
    | zero => cases found
    | succ index =>
      cases found
      exact ⟨records[index].new, dif_pos within⟩
  | redo =>
    by_cases more : index < records.length
    · rw [apply, History.redo, dif_pos more] at found
      cases found
      exact ⟨records[index].old, rfl⟩
    · rw [apply, History.redo, dif_neg more] at found
      cases found

/-- Behind a new edit there is nothing to redo. -/
theorem redo_enter (history : History) (record : EditRecord) :
    redo.apply (history.enter record) = (none, history.enter record) := by
  have last : (history.enter record).records.length = (history.enter record).index := by
    rw [History.enter, List.length_append, history.length_past]
    rfl
  exact dif_neg (Nat.not_lt.2 (Nat.le_of_eq last))

/-- A new edit is what redoing it makes of the history in front of it. -/
theorem exists_redo_enter (history : History) (record : EditRecord) :
    ∃ before, redo.apply before = (some (record.address, record.new), history.enter record) := by
  have more : history.index < (history.enter record).records.length :=
    (history.enter record).index_le
  have there : (history.enter record).records[history.index] = record := by
    simp only [History.enter, ← history.length_past, List.getElem_concat_length]
  refine ⟨⟨(history.enter record).records, history.index, Nat.le_of_lt more⟩, ?_⟩
  rw [apply, History.redo, dif_pos more, there]
  rfl

end HistoryStep

namespace Session

/-- The content behind what the log gives, if it gives something. -/
def writtenBy (answer : Option (UInt64 × UInt8)) (content : Array UInt8) : Array UInt8 :=
  match answer with
  | some (address, value) => content.setIfInBounds address.toNat value
  | none => content

/-- The step that makes work again: what was committed is redone. -/
def Work.again : Work → HistoryStep
  | commit _ _ => .redo
  | step direction => direction

variable {session : Session} {history : History} {content : Array UInt8}

/-- What work makes of a history is what its step again makes of some history, with the byte of the
work. -/
theorem Work.exists_again (holds : session.log.Holds history) {work : Work}
    {change : EditLog.Change} {address : Int} {value : UInt8}
    (changes : work.change? session = some (change, address, value)) :
    ∃ before word, address = UInt64.toNat word ∧
      work.again.apply before = (some (word, value), (change.operation.apply history).2) := by
  cases work with
  | commit pending digit =>
    obtain ⟨word, found, same⟩ := Option.map_eq_some_iff.1 changes
    cases same
    obtain ⟨before, redone⟩ := HistoryStep.exists_redo_enter history
      ⟨word, pending.old, withLowerDigit pending.value digit⟩
    exact ⟨before, word, toNat_of_word? found, redone⟩
  | step direction =>
    rw [change?] at changes
    split at changes
    · cases changes
    rw [(holds.step direction).1] at changes
    cases answer : (direction.apply history).1 with
    | none =>
      rw [answer] at changes
      cases changes
    | some pair =>
      obtain ⟨word, byte⟩ := pair
      rw [answer] at changes
      cases changes
      refine ⟨history, word, rfl, ?_⟩
      cases direction <;> exact Prod.ext answer rfl

/-! ### Sessions that take steps -/

/-- A session that takes steps through a history. -/
structure Ready (session : Session) (history : History) : Prop where
  closed : session.commandLine = none
  writable : session.mode ≠ .read
  opened : session.Open
  holds : session.log.Holds history

/-- The file behind the attempt to write what the log gives, if it gives something. -/
def tried (answer : Option (UInt64 × UInt8)) (file : EditedFile) : EditedFile :=
  match answer with
  | some (address, value) => (file.writeByte address.toNat value.toNat).2
  | none => file

/-- A step through the history moves on in it and tries to write the byte that it gives. -/
theorem Ready.stepHistory (ready : session.Ready history) (direction : HistoryStep) :
    (Action.left (stepHistory direction session)).Ready (direction.apply history).2 ∧
      (Action.left (Session.stepHistory direction session)).file =
        tried (direction.apply history).1 session.file := by
  obtain ⟨given, moved⟩ := ready.holds.step direction
  have opened := open_work (.step direction) session ready.opened
  rw [Work.run] at opened
  have possible := stepping direction session
  generalize Session.stepHistory direction session = outcome at possible opened ⊢
  cases possible with
  | readOnly reading => exact absurd reading ready.writable
  | unread failed =>
    rw [given] at failed
    cases failed
  | nothingLeft answered =>
    rw [given] at answered
    obtain ⟨none, rfl⟩ := EStateM.Result.ok.inj answered
    rw [none]
    exact ⟨⟨ready.closed, ready.writable, opened, moved⟩, rfl⟩
  | refused _ answered refused =>
    rw [given] at answered
    obtain ⟨found, rfl⟩ := EStateM.Result.ok.inj answered
    rw [found, tried, refused]
    exact ⟨⟨ready.closed, ready.writable, opened, moved⟩, rfl⟩
  | unsettled _ answered taken failed =>
    rw [given] at answered
    obtain ⟨found, rfl⟩ := EStateM.Result.ok.inj answered
    have settled := moved.left_settle.2
    rw [failed] at settled
    rw [found, tried, taken]
    exact ⟨⟨ready.closed, ready.writable, opened, settled⟩, rfl⟩
  | replayed answered taken done =>
    rw [given] at answered
    obtain ⟨found, rfl⟩ := EStateM.Result.ok.inj answered
    have settled := moved.left_settle.2
    rw [done] at settled
    rw [found, tried, taken]
    exact ⟨⟨ready.closed, ready.writable, opened, settled⟩, rfl⟩

/-- A byte that replaces another is entered, and then it is tried to write it. -/
theorem Ready.replaceByte (ready : session.Ready history) (record : EditRecord) {log : EditLog}
    (entered : EditLog.enter record.address.toNat record.old.toNat record.new.toNat session.log =
      .ok () log) :
    (Action.left (replaceByte record.address.toNat record.old record.new session)).Ready
        (history.enter record) ∧
      (Action.left
          (Session.replaceByte record.address.toNat record.old record.new session)).file =
        (session.file.writeByte record.address.toNat record.new.toNat).2 := by
  have moved : log.Holds (history.enter record) := by
    have ran : (LogOperation.enter record).run session.log = .ok none log :=
      Action.bind_of_ok entered
    rcases ready.holds.run (.enter record) with ⟨_, done, moved⟩ | ⟨_, failed, -⟩
    · cases ran.symm.trans done
      exact moved
    · cases ran.symm.trans failed
  rw [Session.replaceByte, Action.bind_of_ok (onLog_of_ok entered), left_writeAndSettle]
  refine ⟨⟨ready.closed, ready.writable, ?_, ?_⟩, rfl⟩
  · exact (EditedFile.writtenOnce_of_writeByte (Prod.eta _).symm).closed_eq.trans ready.opened
  · dsimp only
    split
    · exact moved.left_settle.2
    · exact moved

/-- Work moves the log on as its change does, and tries to write its byte. -/
theorem Ready.work {work : Work} (ready : (work.opening session).Ready history)
    {change : EditLog.Change} {address : Int} {value : UInt8}
    (changes : work.change? session = some (change, address, value))
    {answer : Option (UInt64 × UInt8)} {log : EditLog}
    (logged : change.operation.run session.log = .ok answer log) :
    (Action.left (work.run (work.opening session))).Ready (change.operation.apply history).2 ∧
      (Action.left (work.run (work.opening session))).file =
        (session.file.writeByte address value.toNat).2 := by
  cases work with
  | commit pending digit =>
    obtain ⟨word, same, made⟩ := Option.map_eq_some_iff.1 changes
    cases made
    obtain ⟨_, next, entered, done⟩ := Action.ok_of_bind logged
    cases done
    rw [Work.run, left_thenRight, toNat_of_word? same]
    obtain ⟨⟨closed, writable, opened, holds⟩, file⟩ :=
      ready.replaceByte ⟨word, pending.old, withLowerDigit pending.value digit⟩ entered
    exact ⟨⟨closed, writable, opened, holds⟩, file⟩
  | step direction =>
    obtain ⟨moved, file⟩ := ready.stepHistory direction
    rw [Work.change?] at changes
    split at changes
    · cases changes
    have given : logStep direction session.log = .ok (direction.apply history).1 _ :=
      (ready.holds.step direction).1
    rw [given] at changes
    cases found : (direction.apply history).1 with
    | none =>
      rw [found] at changes
      cases changes
    | some pair =>
      rw [found] at changes file
      cases changes
      cases direction <;> exact ⟨moved, file⟩

/-- A session whose work changes the log is ready for it. -/
theorem ready_opening {key : Key} {work : Work} (found : session.workOf key = some work)
    (holds : session.log.Holds history) (opened : session.Open)
    {entry : EditLog.Change × Int × UInt8} (changes : work.change? session = some entry) :
    (work.opening { session with status := none }).Ready history := by
  cases work with
  | commit pending digit =>
    obtain ⟨closed, mode, _⟩ := of_workOf_commit found
    exact ⟨closed, fun reading => Mode.noConfusion (reading.symm.trans mode), opened, holds⟩
  | step direction =>
    rw [Work.change?] at changes
    split at changes
    · cases changes
    next writable => exact ⟨rfl, writable, opened, holds⟩

/-- What is shown has nothing to do with the mode and the command line. -/
theorem commandLine_refresh (session : Session) :
    session.refresh.commandLine = session.commandLine ∧ session.refresh.mode = session.mode := by
  dsimp only [refresh]
  split
  · exact ⟨rfl, rfl⟩
  split <;> exact ⟨rfl, rfl⟩

/-- A key leaves a session ready for what the work that it is for does, and its file is accessed at
most. -/
theorem Ready.handleKey {key : Key} {work : Work} (found : session.workOf key = some work)
    (ready : (Action.left (work.run (work.opening { session with status := none }))).Ready
      history) :
    (session.handleKey key).Ready history ∧
      EditedFile.Kept (Action.left (work.run (work.opening { session with status := none }))).file
        (session.handleKey key).file := by
  have dispatched : dispatch key { session with status := none } =
      work.run (work.opening { session with status := none }) := dispatch_of_workOf found
  rw [← dispatched] at ready ⊢
  have quiet := quiet_handleKey session key
  obtain ⟨commandLine, mode⟩ :=
    commandLine_refresh (reporting (dispatch key) { session with status := none })
  have reported :
      (reporting (dispatch key) { session with status := none }).commandLine = none ∧
        (reporting (dispatch key) { session with status := none }).mode ≠ .read := by
    rw [reporting]
    cases ran : dispatch key { session with status := none } with
    | ok value after =>
      rw [ran] at ready
      exact ⟨ready.closed, ready.writable⟩
    | error failure after =>
      rw [ran] at ready
      exact ⟨ready.closed, ready.writable⟩
  refine ⟨⟨commandLine.trans reported.1, ?_, quiet.file.closed_eq.trans ready.opened, ?_⟩,
    quiet.file⟩
  · intro reading
    exact reported.2 (mode.symm.trans reading)
  · rw [quiet.log]
    exact ready.holds

/-! ### Pressed keys -/

/-- The session with a file that takes bytes, on a device that does. -/
def willing (session : Session) : Session :=
  { session with file := { session.file with refusesWrite := false, refusesFlush := false } }

/-- Presses the key of a step while bytes can be written. -/
def press (direction : HistoryStep) (session : Session) : Session :=
  session.willing.handleKey direction.key

theorem Ready.press (ready : session.Ready history) (direction : HistoryStep) :
    (session.press direction).Ready (direction.apply history).2 ∧
      EditedFile.Kept (tried (direction.apply history).1 session.willing.file)
        (session.press direction).file := by
  have found : session.willing.workOf direction.key = some (.step direction) := by
    have closed : session.willing.commandLine = none := ready.closed
    rw [workOf, closed]
    cases direction <;> rfl
  have opening : ((Work.step direction).opening { session.willing with status := none }).Ready
      history := ⟨rfl, ready.writable, ready.opened, ready.holds⟩
  obtain ⟨moved, file⟩ := opening.stepHistory direction
  obtain ⟨next, kept⟩ := Ready.handleKey found moved
  refine ⟨next, ?_⟩
  have same : (Action.left ((Work.step direction).run ((Work.step direction).opening
      { session.willing with status := none }))).file =
        tried (direction.apply history).1 session.willing.file := file
  rw [← same]
  exact kept

/-- What a willing file gives behind what the log gave. -/
theorem content_tried {file : EditedFile} (willing : file.Willing)
    (answer : Option (UInt64 × UInt8)) :
    (tried answer file).content = writtenBy answer file.content := by
  obtain _ | ⟨address, value⟩ := answer
  · rfl
  rw [tried, writtenBy]
  by_cases inside : address.toNat < file.size
  · rw [willing.writeByte_of_lt inside]
  · have outside : file.size ≤ address.toNat := Nat.le_of_not_lt inside
    rw [willing.writeByte_of_le outside]
    exact (Array.setIfInBounds_eq_of_size_le outside).symm

/-- Nothing is held back behind a byte that was written, or that has no place. -/
theorem heldBack_tried {file : EditedFile} (willing : file.Willing) (address : UInt64)
    (value : UInt8) : (tried (some (address, value)) file).heldBack = none := by
  rw [tried]
  by_cases inside : address.toNat < file.size
  · rw [willing.writeByte_of_lt inside]
  · rw [willing.writeByte_of_le (Nat.le_of_not_lt inside)]

theorem Ready.willing (ready : session.Ready history) : session.willing.file.Willing :=
  ⟨ready.opened, rfl, rfl⟩

/-- A step that is pressed while bytes can be written writes the byte that it gives. -/
theorem Ready.content_press (ready : session.Ready history) (direction : HistoryStep) :
    (session.press direction).file.content =
      writtenBy (direction.apply history).1 session.file.content := by
  rw [(ready.press direction).2.content_eq, content_tried ready.willing]
  rfl

/-- A step that is pressed while bytes can be written hands over what was held back, if it finds a
record. -/
theorem Ready.heldBack_press (ready : session.Ready history) {direction : HistoryStep}
    {address : UInt64} {value : UInt8}
    (found : (direction.apply history).1 = some (address, value)) :
    (session.press direction).file.heldBack = none := by
  have none := heldBack_tried ready.willing address value
  obtain ⟨-, kept⟩ := ready.press direction
  rw [found] at kept
  rcases kept.eq_or with same | same
  · rw [same]
    exact none
  · rw [same]

/-- A key whose byte is refused leaves the log as if the byte were written. -/
theorem ready_of_refused {key : Key} {work : Work} (found : session.workOf key = some work)
    (holds : session.log.Holds history) (opened : session.Open) {change : EditLog.Change}
    {address : Int} {value : UInt8}
    (changes : work.change? session = some (change, address, value))
    {answer : Option (UInt64 × UInt8)} {log : EditLog}
    (logged : change.operation.run session.log = .ok answer log) {cause : StorageFailure}
    {left : EditedFile}
    (refused : session.file.writeByte address value.toNat = (.error cause, left)) :
    (session.handleKey key).Ready (change.operation.apply history).2 ∧
      session.file.Refused address.toNat value (session.handleKey key).file := by
  have cleared : work.change? { session with status := none } = some (change, address, value) := by
    rw [← changes]
    cases work <;> rfl
  obtain ⟨ready, file⟩ :=
    Ready.work (ready_opening found holds opened changes) cleared logged
  obtain ⟨failed, kept⟩ := Ready.handleKey found ready
  have tried : (Action.left (work.run (work.opening { session with status := none }))).file =
      left := by
    rw [file]
    exact congrArg Prod.snd refused
  rw [tried] at kept
  exact ⟨failed, EditedFile.refused_of_error refused kept⟩

/-! ### Sound sessions -/

/-- The log of a session holds a history, and its file is open. -/
def Sound (session : Session) : Prop := (∃ history, session.log.Holds history) ∧ session.Open

end Session

/-- The log is what it was. -/
def Trial.Calm (trial : Trial) (session : Session) : Prop :=
  trial.upset session.log = session.log

instance (trial : Trial) (session : Session) : Decidable (trial.Calm session) :=
  inferInstanceAs (Decidable (_ = _))

namespace Session

variable {session : Session} {history : History} {content : Array UInt8}

/-- A session that is opened is sound. -/
theorem sound_openOn {logContent : List UInt8} {structs : List (String × Struct)} {height : Int}
    (opened : openOn content logContent structs height = .ok session) : session.Sound := by
  obtain ⟨history, holds⟩ := (recoverable_openOn opened).holds
  obtain ⟨log, rfl⟩ := eq_of_openOn opened
  exact ⟨⟨history, holds⟩, rfl⟩

theorem Sound.of_quiet {after : Session} (sound : session.Sound) (quiet : Quiet session after) :
    after.Sound := by
  rw [Sound, Open, quiet.log, quiet.file.closed_eq]
  exact sound

theorem Sound.handleKey (sound : session.Sound) (key : Key) : (session.handleKey key).Sound := by
  obtain ⟨⟨history, holds⟩, opened⟩ := sound
  refine ⟨?_, opened.handleKey key⟩
  rw [log_handleKey]
  cases session.workOf key with
  | none => exact ⟨history, holds⟩
  | some work =>
    have opening := (Work.quiet_opening { session with status := none } work).log
    exact (work.run_log (opening.symm ▸ holds)).2

/-- A trial that leaves the log alone leaves a sound session. -/
theorem Sound.apply {trial : Trial} {next : Session} (sound : session.Sound)
    (calm : trial.Calm session) (applied : trial.apply session = .ok next) : next.Sound := by
  have facing : (trial.facing session).Sound := by
    refine ⟨?_, sound.2⟩
    show ∃ history, (trial.upset session.log).Holds history
    rw [calm]
    exact sound.1
  exact Trial.holds_of_apply sound_openOn Sound.of_quiet facing
    (fun key _ => facing.handleKey key) applied

/-! ### Retrying -/

/-- How a byte that was refused comes to be written. -/
structure Retried (session failed : Session) (direction : HistoryStep) (history next : History)
    (address : Int) (value : UInt8) : Prop where
  /-- The log moves from one history to another although the byte is refused. -/
  before : session.log.Shows history
  moved : failed.log.Shows next
  refused : session.file.Refused address.toNat value failed.file
  /-- So the step is made from there, and not the one that was refused. -/
  onward : (failed.press direction).file.content =
    writtenBy (direction.apply next).1 failed.file.content
  /-- Behind a step in the other direction it is the one that was refused. -/
  retried : ((failed.press direction.opposite).press direction).file.content =
    session.file.content.setIfInBounds address.toNat value
  arrived : ((failed.press direction.opposite).press direction).file.heldBack = none

/-- A byte that is refused is written by a step in the other direction and the step again, whatever
the session was, whether an edit, an undo or a redo was to write it, and whether the file does not
take it or its device does not. The step alone goes on from the history behind the refused one;
behind an edit there is nothing to redo. -/
theorem retried_of_refused {content : Array UInt8} {logContent : List UInt8}
    {structs : List (String × Struct)} {height : Int} {opened session : Session}
    (start : openOn content logContent structs height = .ok opened) {trials : List Trial}
    (calm : Trial.Throughout Trial.Calm trials opened)
    (ran : Trial.applyAll trials opened = .ok session) {trial : Trial}
    (calmHere : trial.Calm session) {key : Key} (pressed : trial.event = .key key) {work : Work}
    (found : session.workOf key = some work) {change : EditLog.Change} {address : Int}
    {value : UInt8} (changes : work.change? session = some (change, address, value))
    {answer : Option (UInt64 × UInt8)} {log : EditLog}
    (logged : change.operation.run session.log = .ok answer log) {cause : StorageFailure}
    {left : EditedFile}
    (refused : (trial.facing session).file.writeByte address value.toNat = (.error cause, left)) :
    ∃ failed history, trial.apply session = .ok failed ∧
      Retried (trial.facing session) failed work.again history
        (change.operation.apply history).2 address value ∧
      ∀ record, change = .enter record →
        (HistoryStep.redo.apply (change.operation.apply history).2).1 = none := by
  obtain ⟨⟨history, holds⟩, isOpen⟩ : session.Sound :=
    Trial.holds_of_applyAll (fun _ _ _ sound calm applied => sound.apply calm applied)
      (sound_openOn start) calm ran
  have same : (trial.facing session).log = session.log := calmHere
  have faced : work.change? (trial.facing session) = some (change, address, value) := by
    rw [← changes]
    cases work with
    | commit => rfl
    | step =>
      rw [Work.change?, Work.change?, same]
      rfl
  have works : (trial.facing session).workOf key = some work := found
  rw [← same] at holds logged
  obtain ⟨failed, left⟩ := ready_of_refused works holds isOpen faced logged refused
  obtain ⟨before, word, rfl, again⟩ := Work.exists_again holds faced
  obtain ⟨other, back⟩ := HistoryStep.apply_opposite again
  have returned := (failed.press work.again.opposite).1
  rw [back] at returned
  refine ⟨(trial.facing session).handleKey key, history, by rw [Trial.apply, pressed]; rfl,
    ⟨holds.shows_history, failed.holds.shows_history, left, failed.content_press _, ?_,
      returned.heldBack_press (congrArg Prod.fst again)⟩, ?_⟩
  · rw [returned.content_press, failed.content_press, again, back, writtenBy, writtenBy,
      Array.setIfInBounds_setIfInBounds]
    exact left.setIfInBounds_eq value
  · rintro record rfl
    exact congrArg Prod.fst (HistoryStep.redo_enter history record)

/-- Keys that are pressed one after the other while the file takes bytes or refuses them. -/
def pressing (refuses : Bool) (keys : List Key) : List Trial :=
  keys.map fun key => { event := .key key, refusesWrite := refuses }

/-- The keys that replace two bytes of a file. -/
def twoEdits : List Key := ['R', '0', 'a', '0', 'b'].map .char

/-- The second edit is undone, and the device refuses the byte. -/
def heldBackUndo : Trial := { event := .key (.char 'u'), refusesFlush := true }

theorem retried_of_refused_undo :
    ∃ opened session, openOn #[1, 2, 3] [] [] 25 = .ok opened ∧
      Trial.Throughout Trial.Calm (pressing false twoEdits) opened ∧
      Trial.applyAll (pressing false twoEdits) opened = .ok session ∧
      heldBackUndo.Calm session ∧
      session.workOf (.char 'u') = some (.step .undo) ∧
      (Work.step .undo).change? session = some (.undo, 1, 2) ∧
      (∃ answer log, LogOperation.undo.run session.log = .ok answer log) ∧
      (∃ left, (heldBackUndo.facing session).file.writeByte 1 2 =
        (.error (.refused .flush), left) ∧ left.content = #[10, 2, 3] ∧
          left.stored = #[10, 11, 3]) ∧
      ∃ failed history, heldBackUndo.apply session = .ok failed ∧
        Retried (heldBackUndo.facing session) failed .undo history history.undo.2 1 2 := by
  have started : openOn #[1, 2, 3] [] [] 25 =
      .ok (start { content := #[1, 2, 3] } EditLog.freshLog [] 25) := rfl
  have calm : Trial.Throughout Trial.Calm (pressing false twoEdits)
      (start { content := #[1, 2, 3] } EditLog.freshLog [] 25) := by
    decide +kernel
  obtain ⟨session, left, ran, found, changes, ⟨answer, log, logged⟩, refused, content, stored⟩ :
      ∃ session left, Trial.applyAll (pressing false twoEdits)
          (start { content := #[1, 2, 3] } EditLog.freshLog [] 25) = .ok session ∧
        session.workOf (.char 'u') = some (.step .undo) ∧
        (Work.step .undo).change? session = some (.undo, 1, 2) ∧
        (∃ answer log, LogOperation.undo.run session.log = .ok answer log) ∧
        (heldBackUndo.facing session).file.writeByte 1 2 = (.error (.refused .flush), left) ∧
        left.content = #[10, 2, 3] ∧ left.stored = #[10, 11, 3] := by
    set_option maxRecDepth 20000 in
    exact ⟨_, _, rfl, rfl, rfl, ⟨_, _, rfl⟩, rfl, rfl, rfl⟩
  have calmHere : heldBackUndo.Calm session := rfl
  have pressed : heldBackUndo.event = .key (.char 'u') := rfl
  obtain ⟨failed, history, applied, retried, -⟩ :=
    retried_of_refused started calm ran calmHere pressed found changes logged refused
  exact ⟨_, session, started, calm, ran, calmHere, found, changes, ⟨answer, log, logged⟩,
    ⟨left, refused, content, stored⟩, failed, history, applied, retried⟩

/-- The content of a file of three bytes behind keys. -/
def contentBehind (trials : List Trial) : Option (Array UInt8) :=
  ((openOn #[1, 2, 3] [] [] 25).bind (Trial.applyAll trials)).toOption.map fun session =>
    session.file.content

/-- The step alone does not write the byte that was refused: behind an edit there is nothing to
redo, undoing goes on to the edit before, also where the file holds the byte back, and redoing to
the one behind. -/
theorem not_retried_by_step_alone :
    contentBehind (pressing false [.char 'R', .char '0'] ++ pressing true [.char 'a'] ++
        pressing false [HistoryStep.redo.key]) = some #[1, 2, 3] ∧
      contentBehind (pressing false twoEdits ++ pressing true [HistoryStep.undo.key] ++
        pressing false [HistoryStep.undo.key]) = some #[1, 11, 3] ∧
      contentBehind (pressing false twoEdits ++ [heldBackUndo] ++
        pressing false [HistoryStep.undo.key]) = some #[1, 2, 3] ∧
      contentBehind (pressing false (twoEdits ++ [HistoryStep.undo.key, HistoryStep.undo.key]) ++
        pressing true [HistoryStep.redo.key] ++ pressing false [HistoryStep.redo.key]) =
          some #[1, 11, 3] := by
  decide +kernel

end Session

end HexEditor
