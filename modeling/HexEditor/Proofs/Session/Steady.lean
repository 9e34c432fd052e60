/-
What keeps a session going. The log stands in a file of a possible length, a half-typed byte has
an address that a record can hold, a digit that is typed is remembered, and the struct on show is
one of those that there are. Every key keeps all this, whatever the devices refuse meanwhile, and
so nothing but a foreseen failure can arise from it: an operation on the log that a device
refused, an error of the operating system, or a command that is refused for what it says.
-/

import HexEditor.Proofs.History.Usable
import HexEditor.Proofs.Session.Placing

namespace HexEditor

/-! ### Foreseen failures -/

def LogFailure.isForeseen : LogFailure → Bool
  | notEntered cause => cause.isSystemError
  | notRead cause => cause.isSystemError
  | notSettled cause => cause.isSystemError
  | noRecord => false

def CommandFailure.isForeseen : CommandFailure → Bool
  | notLogged cause => cause.isForeseen
  | notWritten cause => cause.isSystemError
  | _ => true

/-- Whether a key that fails so can be reported. -/
def ActionFailure.isForeseen : ActionFailure → Bool
  | command failure => failure.isForeseen
  | log failure => failure.isForeseen
  | storage failure => failure.isSystemError

namespace Window

/-- A move that takes no new length leaves the digit that is typed, or gives it up. -/
theorem Move.nibble_apply {move : Move} (stays : ∀ height length, move ≠ .resize height length)
    (window : Window) :
    (move.apply window).nibble = window.nibble ∨ (move.apply window).nibble = 0 := by
  cases move with
  | up => exact .inr window.nibble_up
  | down => exact .inr window.nibble_down
  | left => exact .inr window.nibble_left
  | right => exact .inr window.nibble_right
  | rowStart => exact .inr rfl
  | rowEnd => exact .inr rfl
  | pageUp => exact .inr rfl
  | pageDown => exact .inr rfl
  | scrollUp rows => exact .inl (window.nibble_scrollUp _)
  | scrollDown rows => exact .inl (window.nibble_scrollDown _)
  | reveal recenter => exact .inl (window.nibble_reveal recenter)
  | goto target recenter => exact .inr (window.nibble_goto target recenter)
  | resize height length => exact absurd rfl (stays height length)
  | point report => exact window.nibble_point report

/-- On a screen of some height, a digit that is typed belongs to a byte. -/
structure Remembered (height : Int) (window : Window) (pending : Option PendingByte) : Prop where
  height_eq : window.height = height
  byte : window.nibble = 1 → pending ≠ none

end Window

namespace Session

/-- What keeps a session going; what holds of the window and the half-typed byte besides is left
open. -/
structure Steady (typed : Window → Option PendingByte → Prop) (session : Session) : Prop where
  placed : session.Placed
  size_le : session.file.size ≤ offsetLimit
  log : session.log.Usable
  address : ∀ pending, session.pending = some pending →
    ∃ address : UInt64, pending.address = address.toNat
  shown : ∀ name, session.active = some name → (session.structs.lookup name).isSome = true
  typed : typed session.window session.pending

variable {typed : Window → Option PendingByte → Prop} {height : Int} {session after : Session}

theorem Steady.placed_of_change (steady : session.Steady typed)
    (change : Change (fun _ => True) session after) : after.Placed :=
  steady.placed.change change

/-- An action keeps a session going and fails as foreseen. -/
abbrev EndsSteady (typed : Window → Option PendingByte → Prop) {Value : Type}
    (action : Action Value) : Prop :=
  Action.Ends (Steady typed) (fun failure => failure.isForeseen = true) action

/-! ### The file and the log -/

theorem ends_onLog {Value : Type} {cause : LogFailure → ActionFailure}
    {kind : StorageFailure → LogFailure} {operation : EditLog.Action Value}
    (ends : EditLog.EndsUsable kind operation)
    (foreseen : ∀ error, error.isSystemError = true → (cause (kind error)).isForeseen = true) :
    EndsSteady typed (onLog cause operation) := by
  intro session steady
  have placed (log : EditLog) : Placed { session with log } :=
    steady.placed_of_change (.log session log)
  have ended := ends session.log steady.log
  rw [onLog]
  cases ran : operation session.log with
  | ok value log =>
    rw [ran] at ended
    exact ⟨placed log, steady.size_le, ended, steady.address, steady.shown, steady.typed⟩
  | error failure log =>
    rw [ran] at ended
    obtain ⟨usable, error, system, rfl⟩ := ended
    exact ⟨⟨placed log, steady.size_le, usable, steady.address, steady.shown, steady.typed⟩,
      foreseen error system⟩

theorem ends_writeByte (address : Int) (value : UInt8) :
    EndsSteady typed (writeByte address value) := by
  intro session steady
  rw [writeByte]
  rcases wrote : session.file.writeByte address value.toNat with ⟨outcome, file⟩
  have size := (EditedFile.writtenOnce_of_writeByte wrote).size_eq
  have kept : Steady typed { session with file } :=
    ⟨steady.placed_of_change (.write wrote), size ▸ steady.size_le, steady.log, steady.address,
      steady.shown, steady.typed⟩
  cases outcome with
  | ok => exact kept
  | error cause =>
    exact ⟨kept, EditedFile.systemError_of_writeByte steady.placed.opened wrote⟩

/-- An access keeps a session going. -/
theorem Steady.access (steady : session.Steady typed) {file : EditedFile}
    (kept : session.file.Kept file) : Steady typed { session with file } :=
  ⟨steady.placed_of_change (.access kept), kept.size_eq ▸ steady.size_le, steady.log,
    steady.address, steady.shown, steady.typed⟩

theorem ends_replaceByte (address : UInt64) (old new : UInt8) :
    EndsSteady typed (replaceByte address.toNat old new) := by
  refine Action.ends_bind (ends_onLog (EditLog.ends_enter address old new) fun _ system => system)
    fun _ => ?_
  refine Action.ends_bind (ends_writeByte _ _) fun _ => ?_
  exact ends_onLog EditLog.ends_settle fun _ system => system

/-! ### Steps of actions -/

/-- What has nothing to do with the file, the window and the half-typed byte is steady as long as
the struct on show is there. -/
theorem Steady.aside (steady : session.Steady typed) {structs : List (String × Struct)}
    {commandLine : Option (List Char)} {status : Option Status} {jumps : List Int}
    {active : Option String} {rows : List PanelRow} {quit : Bool}
    (shown : ∀ name, active = some name → (structs.lookup name).isSome = true) :
    Steady typed { session with structs, commandLine, status, jumps, active, rows, quit } :=
  ⟨steady.placed_of_change (.aside structs commandLine status jumps active rows quit),
    steady.size_le, steady.log, steady.address, shown, steady.typed⟩

theorem ends_refuse {Value : Type} {failure : CommandFailure}
    (foreseen : failure.isForeseen = true) :
    EndsSteady typed (refuse failure : Action Value) :=
  Action.ends_throw foreseen

theorem ends_pushJump : EndsSteady typed pushJump :=
  Action.ends_modify fun _ steady => steady.aside steady.shown

theorem ends_setCommandLine (line : Option (List Char)) : EndsSteady typed (setCommandLine line) :=
  Action.ends_modify fun _ steady => steady.aside steady.shown

theorem ends_quit :
    EndsSteady typed (modify fun session => { session with quit := true } : Action PUnit) :=
  Action.ends_modify fun _ steady => steady.aside steady.shown

/-- Only a struct that is there is put on show. -/
theorem ends_activate (name : String) : EndsSteady typed (activate name) := by
  intro session steady
  rw [activate, Action.bind_get]
  by_cases known : (session.structs.lookup name).isSome = true
  · rw [if_pos known]
    exact steady.aside fun _ same => Option.some.inj same ▸ known
  · rw [if_neg known]
    exact ⟨steady, rfl⟩

/-- A move of the window leaves what is typed, or gives it up. -/
theorem ends_onWindow (move : Window.Move) (stays : ∀ height length, move ≠ .resize height length) :
    EndsSteady (Window.Remembered height) (onWindow move.apply) :=
  Action.ends_modify fun session steady => by
    have height := (move.alike_apply session.window stays).height.trans steady.typed.height_eq
    refine ⟨steady.placed_of_change (.move move stays), steady.size_le, steady.log,
      steady.address, steady.shown, height, fun typed => steady.typed.byte ?_⟩
    rcases move.nibble_apply stays session.window with same | untyped
    · exact same.symm.trans typed
    · cases untyped.symm.trans typed

theorem ends_goto (target : Int) (recenter : Bool) :
    EndsSteady (Window.Remembered height) (goto target recenter) :=
  Action.ends_bind ends_pushJump fun _ => ends_onWindow (.goto target recenter) nofun

theorem ends_jumpBack : EndsSteady (Window.Remembered height) jumpBack := by
  refine Action.ends_get_bind fun session => ?_
  cases session.jumps with
  | nil => exact ends_refuse rfl
  | cons target rest =>
    refine Action.ends_bind (Action.ends_modify fun _ steady => steady.aside steady.shown)
      fun _ => ?_
    exact ends_onWindow (.goto target true) nofun

theorem ends_setMode (mode : Mode) : EndsSteady (Window.Remembered height) (setMode mode) :=
  Action.ends_modify fun _ steady =>
    ⟨steady.placed_of_change (.mode trivial), steady.size_le, steady.log, nofun, steady.shown,
      steady.typed.height_eq, nofun⟩

/-! ### Work -/

/-- Behind a commit no digit is typed, and before it the byte is given up. -/
theorem ends_commit {pending : PendingByte} {address : UInt64}
    (word : pending.address = address.toNat) (digit : Nat) {session : Session}
    (steady : session.Steady (Window.Remembered height)) :
    Steady (Window.Remembered height)
        (Action.left ((Work.commit pending digit).run { session with pending := none })) ∧
      ∀ failure after,
        (Work.commit pending digit).run { session with pending := none } = .error failure after →
          failure.isForeseen = true := by
  have given : Steady (fun window _ => window.height = height) { session with pending := none } :=
    ⟨steady.placed_of_change .giveUp, steady.size_le, steady.log, nofun, steady.shown,
      steady.typed.height_eq⟩
  -- the cursor moves on whatever has happened, and nothing is typed there
  have moved {after : Session} (kept : after.Steady fun window _ => window.height = height) :
      Steady (Window.Remembered height) { after with window := after.window.right } := by
    refine ⟨kept.placed_of_change (.move .right nofun), kept.size_le, kept.log, kept.address,
      kept.shown, after.window.alike_right.height.trans kept.typed, fun typed => ?_⟩
    cases after.window.nibble_right.symm.trans typed
  have ended := ends_replaceByte address pending.old (withLowerDigit pending.value digit) _ given
  rw [Work.run, thenRight, word]
  cases ran : replaceByte address.toNat pending.old (withLowerDigit pending.value digit)
      { session with pending := none } with
  | ok value after =>
    rw [ran] at ended
    refine ⟨moved ended, fun _ _ failed => ?_⟩
    cases failed
  | error failure after =>
    rw [ran] at ended
    refine ⟨moved ended.1, fun _ _ failed => ?_⟩
    cases failed
    exact ended.2

theorem ends_logStep (direction : HistoryStep) :
    EditLog.EndsUsable .notRead (logStep direction) := by
  cases direction with
  | undo => exact EditLog.ends_undo
  | redo => exact EditLog.ends_redo

theorem ends_stepHistory (direction : HistoryStep) :
    EndsSteady (Window.Remembered height) (stepHistory direction) := by
  refine Action.ends_get_bind fun session => ?_
  split
  · exact ends_refuse rfl
  refine Action.ends_bind (ends_onLog (ends_logStep direction) fun _ system => system)
    fun answer => ?_
  obtain _ | ⟨address, value⟩ := answer
  · exact ends_refuse rfl
  refine Action.ends_bind (ends_writeByte _ _) fun _ => ?_
  refine Action.ends_bind (ends_onLog EditLog.ends_settle fun _ system => system) fun _ => ?_
  exact ends_goto _ _

/-! ### Keys -/

/-- In a file with bytes, the cursor is at a possible offset. -/
theorem Steady.cursor_lt (steady : session.Steady typed) (bytes : session.window.fileLength ≠ 0) :
    session.window.cursor < offsetLimit := by
  have inside := steady.placed.window.cursor_le
  have nonneg := steady.placed.window.length_nonneg
  have last := (session.window.lastOffset_spec).2.1 (by omega)
  have length := steady.placed.length_eq
  have size := steady.size_le
  omega

theorem ends_typeDigit (digit : Nat) : EndsSteady (Window.Remembered height) (typeDigit digit) := by
  intro session steady
  by_cases empty : session.window.fileLength = 0
  · rw [typeDigit_of_empty digit empty]
    exact steady
  cases half : session.pendingByte with
  | some pending =>
    have remembered : session.pending = some pending := (Option.filter_eq_some_iff.1 half).1
    obtain ⟨address, word⟩ := steady.address pending remembered
    obtain ⟨kept, foreseen⟩ := ends_commit word digit steady
    rw [typeDigit_of_pending digit empty half]
    generalize (Work.commit pending digit).run { session with pending := none } = outcome
      at kept foreseen ⊢
    cases outcome with
    | ok value after => exact kept
    | error failure after => exact ⟨kept, foreseen failure after rfl⟩
  | none =>
    rw [typeDigit, Action.bind_get, if_pos empty, half]
    dsimp only
    cases taken : session.file.byteAt session.window.cursor with
    | error cause =>
      rw [Action.bind_of_error (by rw [readByte, taken])]
      exact ⟨steady.access (session.file.kept_behindRead _ _),
        EditedFile.systemError_of_byteAt steady.placed.opened (steady.cursor_lt empty) taken⟩
    | ok old =>
      rw [Action.bind_of_ok (by rw [readByte, taken])]
      have kept := session.file.kept_behindRead session.window.cursor 1
      have begun := steady.placed_of_change (.begin (withUpperDigit old digit) taken)
      refine ⟨begun.change (@Change.access (fun _ => True) _ _ kept), kept.size_eq ▸ steady.size_le,
        steady.log, ?_, steady.shown, steady.typed.height_eq, fun _ => Option.some_ne_none _⟩
      rintro _ ⟨⟩
      obtain ⟨address, word, _⟩ := EditedFile.getElem?_of_byteAt taken
      exact ⟨address, word⟩

theorem ends_execute (line : String) : EndsSteady (Window.Remembered height) (execute line) := by
  unfold execute
  split
  · exact Action.ends_pure _
  split
  · split
    · split
      · exact ends_goto _ _
      · exact ends_refuse rfl
    · exact ends_refuse rfl
  split
  · exact ends_quit
  split
  · split
    · exact ends_activate _
    · exact ends_refuse rfl
  split
  · exact ends_stepHistory .undo
  split
  · exact ends_stepHistory .redo
  · exact ends_refuse rfl

theorem ends_typeCommand (line : List Char) (key : Key) :
    EndsSteady (Window.Remembered height) (typeCommand line key) := by
  cases key with
  | enter => exact Action.ends_bind (ends_setCommandLine none) fun _ => ends_execute _
  | escape => exact ends_setCommandLine _
  | backspace => exact ends_setCommandLine _
  | char character => exact ends_setCommandLine _
  | control character => exact ends_setCommandLine _
  | _ => exact Action.ends_pure ()

theorem ends_typeCharacter (character : Char) :
    EndsSteady (Window.Remembered height) (typeCharacter character) := by
  unfold typeCharacter
  split
  · exact ends_setCommandLine _
  split
  · exact ends_setMode _
  split
  · exact ends_setMode _
  split
  · exact ends_quit
  split
  · exact ends_pushJump
  split
  · exact ends_stepHistory .undo
  · exact Action.ends_pure _

theorem ends_typeKey (mode : Mode) (key : Key) :
    EndsSteady (Window.Remembered height) (typeKey mode key) := by
  cases key with
  | char character =>
    rw [typeKey_char]
    split
    · split
      · exact ends_typeDigit _
      · exact ends_typeCharacter character
    · exact ends_typeCharacter character
  | control character =>
    show EndsSteady _ (if character = 't' then jumpBack
      else if character = 'r' then stepHistory .redo else pure ())
    split
    · exact ends_jumpBack
    split
    · exact ends_stepHistory .redo
    · exact Action.ends_pure ()
  | up => exact ends_onWindow .up nofun
  | down => exact ends_onWindow .down nofun
  | left => exact ends_onWindow .left nofun
  | right => exact ends_onWindow .right nofun
  | home => exact ends_onWindow .rowStart nofun
  | finish => exact ends_onWindow .rowEnd nofun
  | pageUp => exact ends_onWindow .pageUp nofun
  | pageDown => exact ends_onWindow .pageDown nofun
  | controlHome => exact ends_goto 0 true
  | controlFinish => exact ends_goto wordLimit true
  | escape => exact ends_setMode .read
  | enter => exact Action.ends_pure ()
  | backspace => exact Action.ends_pure ()
  | tab => exact Action.ends_pure ()
  | other name => exact Action.ends_pure ()

/-- A key keeps a session going and fails as foreseen. -/
theorem ends_dispatch (key : Key) : EndsSteady (Window.Remembered height) (dispatch key) := by
  refine Action.ends_get_bind fun session => ?_
  cases session.commandLine with
  | some line => exact ends_typeCommand line key
  | none => exact ends_typeKey session.mode key

/-! ### Events -/

/-- What a struct remembers takes none of them away. -/
theorem Steady.shown_set (steady : session.Steady typed) (set : String) (struct : Struct) :
    ∀ name, session.active = some name →
      ((Table.set set struct session.structs).lookup name).isSome = true := by
  intro name active
  rw [Table.lookup_set]
  split
  · rfl
  · exact steady.shown name active

theorem Steady.refresh (steady : session.Steady typed) : session.refresh.Steady typed := by
  dsimp only [Session.refresh]
  split
  · exact steady.aside steady.shown
  split
  · exact (steady.access (kept_behindRows _ _)).aside (steady.shown_set _ _)
  · exact (steady.access (kept_behindRows _ _)).aside steady.shown

theorem Steady.handleKey (steady : session.Steady (Window.Remembered height)) (key : Key) :
    (session.handleKey key).Steady (Window.Remembered height) := by
  have ended := ends_dispatch key { session with status := none } (steady.aside steady.shown)
  refine Steady.refresh ?_
  rw [reporting]
  cases ran : dispatch key { session with status := none } with
  | ok value after =>
    rw [ran] at ended
    exact ended
  | error failure after =>
    rw [ran] at ended
    exact ended.1.aside ended.1.shown

theorem Steady.handlePointer (steady : session.Steady (Window.Remembered height))
    (report : PointerReport) :
    (session.handlePointer report).Steady (Window.Remembered height) := by
  have cleared : Steady (Window.Remembered height) { session with status := none } :=
    steady.aside steady.shown
  have moved : Steady (Window.Remembered height)
      { session with status := none, window := (session.window.point report).2 } :=
    ends_onWindow (.point report) nofun _ cleared
  dsimp only [Session.handlePointer]
  split
  · split
    · exact moved.refresh
    · exact moved
  · exact cleared

/-- A new height leaves what is typed. The height stays where the file is cut off from its
device. -/
theorem Steady.resize (steady : session.Steady (Window.Remembered height)) (other : Int) :
    ∃ height, (session.resize other).Steady (Window.Remembered height) := by
  rw [Session.resize]
  split
  · next length found =>
    obtain rfl := EditedFile.eq_of_length found
    have accessed := steady.access .accessed
    refine ⟨other, Steady.refresh ⟨?_, accessed.size_le, steady.log, steady.address, steady.shown,
      Window.height_resize _ _ _, fun typed => steady.typed.byte ?_⟩⟩
    · have resized := accessed.placed_of_change (.resize other)
      rw [EditedFile.Kept.accessed.size_eq] at resized
      exact resized
    · rwa [← session.window.nibble_resize other (some session.file.size)]
  · exact ⟨height, steady⟩

/-- A session that is opened on files of possible lengths is steady. -/
theorem steady_openOn {content : Array UInt8} {logContent : List UInt8}
    {structs : List (String × Struct)} (possible : content.size ≤ offsetLimit)
    (logPossible : logContent.length ≤ offsetLimit)
    (opened : openOn content logContent structs height = .ok session) :
    session.Steady (Window.Remembered height) := by
  have placed := placed_openOn opened
  rw [openOn] at opened
  rcases found : EditLog.openContent logContent with ⟨outcome, left⟩
  rw [found] at opened
  cases outcome with
  | error corruption => cases opened
  | ok log =>
    cases opened
    refine ⟨placed, possible, EditLog.usable_of_open logPossible found, fun _ half => ?_,
      fun _ active => ?_, rfl, fun typed => ?_⟩
    · cases half
    · cases active
    · cases typed

end Session

/-! ### Runs -/

/-- A trial in which nothing but the faults of its device becomes of the log. -/
def Trial.SparesLog (trial : Trial) : Prop :=
  ∀ log, ∃ faults, trial.upset log = log.withFaults faults

namespace Session

variable {height : Int} {session : Session}

/-- The devices may begin and stop to fail in any way. -/
theorem Steady.facing (steady : session.Steady (Window.Remembered height)) {trial : Trial}
    (spares : trial.SparesLog) : (trial.facing session).Steady (Window.Remembered height) := by
  obtain ⟨faults, upset⟩ := spares session.log
  have usable : (trial.upset session.log).Usable := by
    rw [upset]
    exact steady.log.withFaults faults
  exact ⟨steady.placed_of_change
      (.devices trial.refusesRead trial.refusesWrite trial.refusesFlush _
        (trial.upset session.log)),
    steady.size_le, usable, steady.address, steady.shown, steady.typed⟩

theorem Steady.apply (steady : session.Steady (Window.Remembered height)) {trial : Trial}
    {next : Session} (spares : trial.SparesLog) (applied : trial.apply session = .ok next) :
    ∃ height, next.Steady (Window.Remembered height) := by
  have faced := steady.facing spares
  rw [Trial.apply] at applied
  cases event : trial.event with
  | key pressed =>
    rw [event] at applied
    cases applied
    exact ⟨_, faced.handleKey pressed⟩
  | pointer report =>
    rw [event] at applied
    cases applied
    exact ⟨_, faced.handlePointer report⟩
  | resize other =>
    rw [event] at applied
    cases applied
    exact faced.resize other
  | reopen structs other =>
    rw [event] at applied
    refine ⟨_, steady_openOn ?_ faced.log.2 applied⟩
    rw [EditedFile.leftBehind, EditedFile.size_stored, EditedFile.Kept.accessed.size_eq]
    exact faced.size_le

/-- Whatever happens to a session that was opened on files of possible lengths, and whatever its
devices refuse, it is steady. -/
theorem steady_of_run {content : Array UInt8} {logContent : List UInt8}
    {structs : List (String × Struct)} {opened : Session}
    (possible : content.size ≤ offsetLimit) (logPossible : logContent.length ≤ offsetLimit)
    (start : openOn content logContent structs height = .ok opened) {trials : List Trial}
    (spare : ∀ trial ∈ trials, trial.SparesLog)
    (ran : Trial.applyAll trials opened = .ok session) :
    session.Steady (Window.Remembered session.window.height) := by
  have steady := steady_openOn possible logPossible start
  clear start
  induction trials generalizing opened height with
  | nil =>
    cases ran
    exact steady.typed.height_eq.symm ▸ steady
  | cons trial rest inductionHypothesis =>
    rw [List.forall_mem_cons] at spare
    rw [Trial.applyAll, List.foldlM_cons] at ran
    cases applied : trial.apply opened with
    | error corruption =>
      rw [applied] at ran
      cases ran
    | ok next =>
      rw [applied] at ran
      obtain ⟨_, kept⟩ := steady.apply spare.1 applied
      exact inductionHypothesis spare.2 ran kept

end Session

end HexEditor
