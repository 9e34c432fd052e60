/-
What a half-typed byte remembers. The first digit of a byte takes the byte from the file,
and the second one enters it into the log as the old one. In between it has to stay what
the file holds: keys that move the cursor or change the mode give the half-typed byte up,
and so does a step through the history that comes to its end. A step that breaks off, as
the file holds the byte back or the log is not settled, leaves the byte half-typed, and
remembered as it was, also where it has just written another one; with that exception
every edit is entered with the byte that the file holds.
-/

import HexEditor.Proofs.History.Durability
import HexEditor.Proofs.Session.Faults

namespace HexEditor

namespace Session

/-- A half-typed byte remembers what the file holds at its address. -/
def Remembers (session : Session) : Prop :=
  ∀ pending, session.pending = some pending → session.window.nibble = 1 →
    ∃ address : UInt64, pending.address = address.toNat ∧
      session.file.Holds address.toNat pending.old

variable {session after : Session}

/-! ### Half-typed bytes -/

/-- There is nothing to remember where no digit is typed. -/
theorem remembers_of_nibble (untyped : session.window.nibble = 0) : session.Remembers := by
  intro pending half typed
  rw [untyped] at typed
  cases typed

theorem Remembers.of_quiet (remembers : session.Remembers) (quiet : Quiet session after) :
    after.Remembers := by
  rcases quiet.nibble with digit | untyped
  · intro pending half typed
    rcases quiet.pending with same | none
    · obtain ⟨address, place, holds⟩ := remembers pending (same ▸ half) (digit ▸ typed)
      exact ⟨address, place, holds.of_kept quiet.file⟩
    · rw [none] at half
      cases half
  · exact remembers_of_nibble untyped

/-- A session that is opened has no half-typed byte. -/
theorem remembers_openOn {content : Array UInt8} {logContent : List UInt8}
    {structs : List (String × Struct)} {height : Int}
    (opened : openOn content logContent structs height = .ok session) : session.Remembers := by
  obtain ⟨log, rfl⟩ := eq_of_openOn opened
  exact remembers_of_nibble rfl

/-- The first digit of a byte remembers the byte that it takes from the file. -/
theorem Remembers.begin (remembers : session.Remembers) (fresh : session.pendingByte = none)
    (digit : Nat) : (Action.left (typeDigit digit session)).Remembers := by
  rcases typeDigit_of_fresh fresh digit with ⟨file, kept, same⟩ | ⟨old, taken, same⟩
  · rw [same]
    exact remembers.of_quiet ⟨kept, rfl, .inl rfl, .inl rfl⟩
  · rw [same]
    intro pending half _
    cases half
    obtain ⟨address, word, there⟩ := EditedFile.getElem?_of_byteAt taken
    refine ⟨address, word, .of_none ?_ (EditedFile.heldBack_of_byteAt taken)⟩
    rw [(session.file.kept_behindRead _ _).content_eq]
    exact there

/-- Behind the second digit no byte is half-typed, whether it was committed or not. -/
theorem remembers_commit (pending : PendingByte) (digit : Nat) (session : Session) :
    (Action.left ((Work.commit pending digit).run session)).Remembers := by
  refine remembers_of_nibble ?_
  rw [Work.run, left_thenRight]
  exact Window.nibble_right _

/-! ### Steps that break off -/

/-- Whether a log is settled when it is asked to. -/
def settles (log : EditLog) : Bool :=
  match EditLog.settle log with
  | .ok _ _ => true
  | .error _ _ => false

/-- Whether the file gives a byte behind the attempt to write it. The byte may be held back. -/
def lands (session : Session) (address : Int) (value : UInt8) : Bool :=
  (session.file.writeByte address value.toNat).2.content[address.toNat]? == some value

/-- Whether a step through the history brings another byte over the half-typed one and does not come
to its end: the byte is held back, or the log is not settled. -/
def clashes (direction : HistoryStep) (session : Session) : Bool :=
  match logStep direction session.log, session.pending with
  | .ok (some (address, value)) log, some pending =>
    session.mode != .read && session.lands address.toNat value &&
      !(session.takes address.toNat value && settles log) &&
      session.window.nibble == 1 && pending.address == address.toNat && pending.old != value
  | _, _ => false

/-- A byte that is written leaves the half-typed one remembered, if it is not another one that lands
at its address. -/
theorem Remembers.writeByte (remembers : session.Remembers) {address : UInt64} {value : UInt8}
    {outcome : Except StorageFailure Unit} {file : EditedFile}
    (wrote : session.file.writeByte address.toNat value.toNat = (outcome, file))
    (spared : session.lands address.toNat value = true → ∀ pending,
      session.pending = some pending → session.window.nibble = 1 →
        pending.address = address.toNat → pending.old = value) :
    Remembers { session with file } := by
  intro pending half typed
  obtain ⟨place, meets, holds⟩ := remembers pending half typed
  refine ⟨place, meets, holds.of_writeByte wrote ?_⟩
  rcases EditedFile.content_of_writeByte wrote with same | same
  · rw [same]
    exact holds.given
  rw [Int.toNat_natCast] at same
  obtain ⟨inside, _⟩ := Array.getElem?_eq_some_iff.1 holds.given
  rw [same]
  by_cases apart : address.toNat = place.toNat
  · have given : (session.file.content.setIfInBounds address.toNat value)[address.toNat]? =
        some value := Array.getElem?_setIfInBounds_self_of_lt (apart ▸ inside)
    have landed : session.lands address.toNat value = true := by
      rw [lands, wrote, same, Int.toNat_natCast, given]
      exact beq_self_eq_true _
    rw [spared landed pending half typed (meets.trans (congrArg Int.ofNat apart.symm)), ← apart]
    exact given
  · rw [Array.getElem?_setIfInBounds_ne apart]
    exact holds.given

/-- A step through the history that does not clash with the half-typed byte leaves it remembered or
gives it up. -/
theorem Remembers.stepHistory (remembers : session.Remembers) {direction : HistoryStep}
    (spared : clashes direction session = false) :
    (Action.left (stepHistory direction session)).Remembers := by
  have sparing {address : UInt64} {value : UInt8} {log : EditLog} (writable : session.mode ≠ .read)
      (answered : logStep direction session.log = .ok (some (address, value)) log)
      (broken : (session.takes address.toNat value && settles log) = false)
      (landed : session.lands address.toNat value = true) (pending : PendingByte)
      (half : session.pending = some pending) (typed : session.window.nibble = 1)
      (meets : pending.address = address.toNat) : pending.old = value := by
    rw [clashes, answered, half] at spared
    simpa [writable, broken, landed, typed, meets] using spared
  have possible := stepping direction session
  generalize Session.stepHistory direction session = outcome at possible ⊢
  cases possible with
  | refused writable answered refused =>
    refine remembers.writeByte refused (sparing writable answered ?_)
    rw [Session.takes, refused]
    rfl
  | unsettled writable answered taken failed =>
    refine remembers.writeByte taken (sparing writable answered ?_)
    rw [settles, failed, Bool.and_false]
  | replayed => exact remembers_of_nibble (Window.nibble_goto _ _ _)
  | _ => exact remembers

/-- A byte that lands over the half-typed one is given by the file from then on. -/
theorem not_remembers_of_lands {address : UInt64} {value : UInt8}
    {outcome : Except StorageFailure Unit} {file : EditedFile}
    (wrote : session.file.writeByte address.toNat value.toNat = (outcome, file))
    (landed : session.lands address.toNat value = true) {pending : PendingByte}
    (half : session.pending = some pending) (typed : session.window.nibble = 1)
    (meets : pending.address = address.toNat) (differs : pending.old ≠ value) :
    ¬ Remembers { session with file } := by
  intro stale
  rw [lands, wrote, beq_iff_eq, Int.toNat_natCast] at landed
  obtain ⟨here, same, holds⟩ := stale pending half typed
  have given := holds.given
  rw [Int.ofNat.inj (same.symm.trans meets)] at given
  exact differs (Option.some.inj (given.symm.trans landed))

/-- A step that clashes with the half-typed byte leaves it remembered as it was, and the file with
another byte there. -/
theorem not_remembers_of_clash {direction : HistoryStep}
    (clash : clashes direction session = true) :
    ¬ (Action.left (Session.stepHistory direction session)).Remembers := by
  have possible := stepping direction session
  generalize Session.stepHistory direction session = outcome at possible ⊢
  rw [clashes] at clash
  split at clash
  · next address value log pending answered half =>
    simp only [Bool.and_eq_true, bne_iff_ne, beq_iff_eq, Bool.not_eq_true'] at clash
    obtain ⟨⟨⟨⟨⟨writable, landed⟩, broken⟩, typed⟩, meets⟩, differs⟩ := clash
    cases possible with
    | readOnly reading => exact absurd reading writable
    | unread failed => cases answered.symm.trans failed
    | nothingLeft other => cases answered.symm.trans other
    | refused _ other refused =>
      cases answered.symm.trans other
      exact not_remembers_of_lands refused landed half typed meets differs
    | unsettled _ other taken _ =>
      cases answered.symm.trans other
      exact not_remembers_of_lands taken landed half typed meets differs
    | replayed other taken settled =>
      cases answered.symm.trans other
      rw [Session.takes, taken, settles, settled] at broken
      cases broken
  · cases clash

/-! ### The log -/

/-- What an edit does with the log: it is entered, and the log is settled if the file takes the
byte. -/
def logEdit (address old new : Int) (takes : Bool) : EditLog.Action Unit := do
  EditLog.enter address old new
  if takes then EditLog.settle

/-- What a step through the history does with the log: the record that is next is read, and the log
is settled if the file takes the byte. -/
def logReplay (direction : HistoryStep) (takes : Int → UInt8 → Bool) : EditLog.Action Unit := do
  match ← logStep direction with
  | none => pure ()
  | some (address, value) => if takes address.toNat value then EditLog.settle

/-- Settling at most leaves the log that it leaves if it is done. -/
theorem left_settleIf (takes : Bool) (log : EditLog) :
    Action.left ((if takes then EditLog.settle else pure () : EditLog.Action Unit) log) =
      if takes then Action.left (EditLog.settle log) else log := by
  cases takes <;> rfl

theorem log_replaceByte (session : Session) (address : Int) (old new : UInt8) :
    (Action.left (replaceByte address old new session)).log =
      Action.left
        (logEdit address old.toNat new.toNat (session.takes address new) session.log) := by
  rw [replaceByte, logEdit]
  cases entered : EditLog.enter address old.toNat new.toNat session.log with
  | error failure log =>
    rw [Action.bind_of_error (onLog_of_error entered), Action.bind_of_error entered]
    rfl
  | ok value log =>
    rw [Action.bind_of_ok (onLog_of_ok entered), Action.bind_of_ok entered, left_writeAndSettle,
      left_settleIf]
    rfl

theorem log_stepHistory_eq (writable : session.mode ≠ .read) (direction : HistoryStep) :
    (Action.left (Session.stepHistory direction session)).log =
      Action.left (logReplay direction session.takes session.log) := by
  rw [Session.stepHistory, Action.bind_get, if_neg writable, logReplay]
  cases answered : logStep direction session.log with
  | error failure log =>
    rw [Action.bind_of_error (onLog_of_error answered), Action.bind_of_error answered]
    rfl
  | ok answer log =>
    rw [Action.bind_of_ok (onLog_of_ok answered), Action.bind_of_ok answered]
    obtain _ | ⟨address, value⟩ := answer
    · rfl
    · dsimp only
      rw [log_replay, left_settleIf]
      rfl

end Session

/-! ### Runs -/

/-- A trial is no step through the history that clashes with the half-typed byte. -/
def Trial.Spares (trial : Trial) (session : Session) : Prop :=
  (match trial.work? session with
    | some (.step direction) => Session.clashes direction (trial.facing session)
    | _ => false) = false

instance (trial : Trial) (session : Session) : Decidable (trial.Spares session) :=
  inferInstanceAs (Decidable (_ = _))

namespace Session

variable {session : Session}

/-- A key leaves the half-typed byte remembered or gives it up, unless it is for a step that clashes
with it. -/
theorem Remembers.handleKey (remembers : session.Remembers) {key : Key}
    (spared : ∀ direction, session.workOf key = some (.step direction) →
      clashes direction session = false) :
    (session.handleKey key).Remembers := by
  have cleared : Remembers { session with status := none } := remembers
  refine Remembers.of_quiet ?_ (quiet_handleKey session key)
  rcases answers { session with status := none } key with
    ⟨_, quiet⟩ | ⟨_, digit, fresh, same⟩ | ⟨work, found, same⟩
  · exact cleared.of_quiet quiet
  · rw [same]
    exact cleared.begin fresh digit
  · rw [same]
    cases work with
    | commit pending digit => exact remembers_commit pending digit _
    | step direction =>
      have opening := cleared.of_quiet (Work.quiet_opening _ (.step direction))
      exact opening.stepHistory (spared direction found)

/-- Whatever becomes of the devices, and of a byte that is held back, the half-typed byte stays
remembered. -/
theorem Remembers.facing (remembers : session.Remembers) (trial : Trial) :
    (trial.facing session).Remembers := by
  intro pending half typed
  obtain ⟨address, place, holds⟩ := remembers pending half typed
  refine ⟨address, place, holds.given, ?_⟩
  rcases trial.heldBack_facing session with same | none
  · rw [EditedFile.stored, same]
    exact holds.stored
  · rw [EditedFile.stored_of_none none]
    exact holds.given

/-- A trial that spares the half-typed byte leaves it remembered or gives it up. -/
theorem Remembers.apply (remembers : session.Remembers) {trial : Trial} {next : Session}
    (spared : trial.Spares session) (applied : trial.apply session = .ok next) :
    next.Remembers := by
  have facing := remembers.facing trial
  refine Trial.holds_of_apply remembers_openOn Remembers.of_quiet facing
    (fun key event => ?_) applied
  refine facing.handleKey fun direction found => ?_
  have works : trial.work? session = some (.step direction) := by
    rw [Trial.work?, event]
    exact found
  rwa [Trial.Spares, works] at spared

/-- What an event does with the log of a session, whatever the log is. The arguments that an edit is
entered with are told by what it does to every log there may be. -/
inductive UsesLog (session : Session) (event : SessionEvent) : Prop where
  /-- Nothing. -/
  | idle
      (same : ∀ log next, event.apply { session with log } = .ok next → next.log = log)
  /-- It steps through the records. -/
  | steps (direction : HistoryStep)
      (same : ∀ log next, event.apply { session with log } = .ok next →
        next.log = Action.left (logReplay direction session.takes log))
  /-- It enters an edit, whose old byte is what the file holds. -/
  | enters {address : UInt64} {old : UInt8} (new : UInt8)
      (same : ∀ log next, event.apply { session with log } = .ok next →
        next.log = Action.left
          (logEdit address.toNat old.toNat new.toNat (session.takes address.toNat new) log))
      (holds : session.file.Holds address.toNat old)
  /-- It opens it again. -/
  | reopens
      (same : ∀ log next, event.apply { session with log } = .ok next →
        (EditLog.openContent log.file.content).1 = .ok next.log)

/-- The log of a session that is opened is the one that was found. -/
theorem log_of_openOn {content : Array UInt8} {logContent : List UInt8}
    {structs : List (String × Struct)} {height : Int}
    (opened : openOn content logContent structs height = .ok session) :
    (EditLog.openContent logContent).1 = .ok session.log := by
  rw [openOn] at opened
  cases found : (EditLog.openContent logContent).1 with
  | error corruption =>
    rw [found] at opened
    cases opened
  | ok log =>
    rw [found] at opened
    cases opened
    rfl

/-- Work enters the byte that the file holds, or it steps through the records, or it refuses to. -/
theorem Remembers.usesLog_of_work (remembers : session.Remembers) {key : Key} {work : Work}
    (found : session.workOf key = some work) : session.UsesLog (.key key) := by
  have left (log : EditLog) : (Session.handleKey key { session with log }).log =
      (Action.left (work.run (work.opening { session with log, status := none }))).log := by
    have same : Session.workOf { session with log } key = some work := found
    rw [log_handleKey, same]
  cases work with
  | commit pending digit =>
    obtain ⟨here, valid⟩ := Option.filter_eq_some_iff.1 (of_workOf_commit found).2.2
    rw [Bool.and_eq_true, beq_iff_eq] at valid
    obtain ⟨address, place, holds⟩ := remembers pending here valid.1
    refine .enters (withLowerDigit pending.value digit) (fun log next applied => ?_) holds
    cases applied
    rw [left, Work.run, left_thenRight, place]
    exact log_replaceByte _ _ _ _
  | step direction =>
    by_cases reading : session.mode = .read
    · refine .idle fun log next applied => ?_
      cases applied
      rw [left]
      show (Action.left (Session.stepHistory direction
        { session with log, status := none, commandLine := none })).log = log
      rw [Session.stepHistory, Action.bind_get, if_pos reading]
      rfl
    · refine .steps direction fun log next applied => ?_
      cases applied
      have writable : { session with log, status := none, commandLine := none : Session }.mode ≠
        .read := reading
      rw [left]
      exact log_stepHistory_eq writable direction

/-- Every edit that is entered while the half-typed byte is remembered has the byte that the file
holds. -/
theorem Remembers.usesLog (remembers : session.Remembers) (event : SessionEvent) :
    session.UsesLog event := by
  cases event with
  | key key =>
    cases found : session.workOf key with
    | none =>
      refine .idle fun log next applied => ?_
      cases applied
      replace found : Session.workOf { session with log } key = none := found
      rw [log_handleKey, found]
    | some work => exact remembers.usesLog_of_work found
  | pointer report =>
    refine .idle fun log next applied => ?_
    cases applied
    exact (quiet_handlePointer { session with log } report).log
  | resize height =>
    refine .idle fun log next applied => ?_
    cases applied
    exact (quiet_resize { session with log } height).log
  | reopen structs height => exact .reopens fun _ _ applied => log_of_openOn applied

/-- The old bytes in the log are true. In a session on a file that nobody else writes, whatever its
devices refuse and whatever becomes of its log, every edit is entered with the byte that the file
holds at that moment, as long as no step through the history brings another byte over a half-typed
one and breaks off. -/
theorem entered_bytes_held {content : Array UInt8} {logContent : List UInt8}
    {structs : List (String × Struct)} {height : Int} {opened session : Session}
    (start : openOn content logContent structs height = .ok opened) {trials : List Trial}
    (spared : Trial.Throughout Trial.Spares trials opened)
    (ran : Trial.applyAll trials opened = .ok session) (trial : Trial) :
    (trial.facing session).UsesLog trial.event := by
  have remembers : session.Remembers :=
    Trial.holds_of_applyAll (fun _ _ _ remembers spared applied => remembers.apply spared applied)
      (remembers_openOn start) spared ran
  exact (remembers.facing trial).usesLog trial.event

/-- Keys that are pressed while the log can be flushed, or cannot and so is not settled. -/
def flushing (flushes : Bool) (keys : List Key) : List Trial :=
  let faults : DeviceFaults := { refused := if flushes then [] else [.flush] }
  keys.map fun key => { event := .key key, upset := fun log => log.withFaults faults }

/-- A byte is half-typed while the edit before it is undone and not settled. -/
def undoneElsewhere : List Trial :=
  flushing true [.char 'R', .char '0', .char 'a', .char '0'] ++ flushing false [.char 'u']

theorem entered_bytes_held_undoneElsewhere :
    ∃ opened session, openOn #[1, 2, 3] [] [] 25 = .ok opened ∧
      Trial.Throughout Trial.Spares undoneElsewhere opened ∧
      Trial.applyAll undoneElsewhere opened = .ok session ∧
      session.workOf (.char 'b') = some (.commit ⟨1, 2, 2⟩ 11) ∧
      ∀ trial : Trial, (trial.facing session).UsesLog trial.event := by
  have started : openOn #[1, 2, 3] [] [] 25 =
      .ok (start { content := #[1, 2, 3] } EditLog.freshLog [] 25) := rfl
  have spared : Trial.Throughout Trial.Spares undoneElsewhere
      (start { content := #[1, 2, 3] } EditLog.freshLog [] 25) := by
    decide +kernel
  obtain ⟨session, ran, found⟩ : ∃ session, Trial.applyAll undoneElsewhere
        (start { content := #[1, 2, 3] } EditLog.freshLog [] 25) = .ok session ∧
      session.workOf (.char 'b') = some (.commit ⟨1, 2, 2⟩ 11) := by
    set_option maxRecDepth 20000 in
    exact ⟨_, rfl, rfl⟩
  exact ⟨_, session, started, spared, ran, found,
    fun trial => entered_bytes_held started spared ran trial⟩

/-- Where the edit that is undone is one of the half-typed byte, and it cannot be settled, the next
edit is entered with a byte that the file does not hold any more. -/
theorem entered_byte_stale :
    ∃ opened session last, openOn #[1, 2, 3] [] [] 25 = .ok opened ∧
      Trial.applyAll (flushing true [.char 'R', .char '0', .char 'a', .left, .char 'f'] ++
        flushing false [.char 'u']) opened = .ok session ∧
      session.file.content[0]? = some 1 ∧
      Trial.applyAll (flushing true [.char '5']) session = .ok last ∧
      last.log.records = .ok [⟨0, 10, 245⟩] := by
  set_option maxRecDepth 20000 in
  exact ⟨_, _, _, rfl, rfl, rfl, rfl, rfl⟩

end Session

end HexEditor
