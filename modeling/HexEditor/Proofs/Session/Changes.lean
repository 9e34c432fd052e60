/-
What a session is made of while it runs. Whatever a key, a pointer, a new height of the
screen or a fault of a device does to a session, it is made of a few changes: the window
moves, the file takes a byte, a byte becomes half-typed or is given up, the mode is set, and
the rest is set aside. So what each of these changes keeps is kept by every run. The mode is
set by three keys only, and by those only while no command is typed.
-/

import HexEditor.Proofs.Session.Faults
import HexEditor.Proofs.Window.Placement
import Mathlib.Logic.Relation

namespace HexEditor

/-- The mode that a key sets while no command is typed. -/
def Key.mode? : Key → Option Mode
  | .char character =>
    if character = 'M' then some .modify else if character = 'R' then some .replace else none
  | .escape => some .read
  | _ => none

/-- Two keys set a mode in which keys write. -/
theorem Key.of_mode? {key : Key} {mode : Mode} (set : key.mode? = some mode) :
    key = .char 'M' ∨ key = .char 'R' ∨ mode = .read := by
  cases key with
  | char character =>
    replace set : (if character = 'M' then some Mode.modify
      else if character = 'R' then some Mode.replace else none) = some mode := set
    split_ifs at set with modify replace
    · exact .inl (congrArg char modify)
    · exact .inr (.inl (congrArg char replace))
  | escape => exact .inr (.inr (Option.some.inj set).symm)
  | _ => cases set

namespace Session

/-- The mode that a key sets in a session. -/
def modeSetBy (session : Session) (key : Key) : Option Mode :=
  match session.commandLine with
  | some _ => none
  | none => key.mode?

/-! ### Changes -/

/-- A change that runs of sessions are made of, where some modes may be set. -/
inductive Change (modes : Mode → Prop) (session : Session) : Session → Prop where
  | move (move : Window.Move) (stays : ∀ height length, move ≠ .resize height length) :
      Change modes session { session with window := move.apply session.window }
  | resize (height : Int) :
      Change modes session
        { session with window := session.window.resize height (some session.file.size) }
  /-- The devices begin or stop to refuse, and something becomes of the log. -/
  | devices (refusesRead refusesWrite refusesFlush : Bool) (heldBack : Option (Nat × UInt8))
      (log : EditLog) :
      Change modes session
        { session with
          file := { session.file with refusesRead, refusesWrite, refusesFlush, heldBack }
          log }
  | access {file : EditedFile} (kept : session.file.Kept file) :
      Change modes session { session with file }
  | write {address : Int} {value : UInt8} {outcome : Except StorageFailure Unit}
      {file : EditedFile} (wrote : session.file.writeByte address value.toNat = (outcome, file)) :
      Change modes session { session with file }
  /-- A byte of the file becomes half-typed. -/
  | begin {old : UInt8} (value : UInt8)
      (taken : session.file.byteAt session.window.cursor = .ok old) :
      Change modes session
        { session with
          pending := some ⟨session.window.cursor, old, value⟩
          window := { session.window with nibble := 1 } }
  | giveUp : Change modes session { session with pending := none }
  | mode {mode : Mode} (allowed : modes mode) :
      Change modes session
        { session with mode, pending := none, window := session.window.resetNibble }
  /-- What has nothing to do with the file, the window and the mode. -/
  | aside (structs : List (String × Struct)) (commandLine : Option (List Char))
      (status : Option Status) (jumps : List Int) (active : Option String)
      (rows : List PanelRow) (quit : Bool) :
      Change modes session
        { session with structs, commandLine, status, jumps, active, rows, quit }

/-- Some changes, one after the other. -/
abbrev Changes (modes : Mode → Prop) : Session → Session → Prop :=
  Relation.ReflTransGen (Change modes)

variable {modes others : Mode → Prop} {start session after : Session}

theorem Change.mono (implies : ∀ mode, modes mode → others mode)
    (change : Change modes session after) : Change others session after := by
  cases change with
  | move move stays => exact .move move stays
  | resize height => exact .resize height
  | devices refusesRead refusesWrite refusesFlush heldBack log =>
    exact .devices refusesRead refusesWrite refusesFlush heldBack log
  | access kept => exact .access kept
  | write wrote => exact .write wrote
  | begin value taken => exact .begin value taken
  | giveUp => exact .giveUp
  | mode allowed => exact .mode (implies _ allowed)
  | aside structs commandLine status jumps active rows quit =>
    exact .aside structs commandLine status jumps active rows quit

theorem Changes.mono (implies : ∀ mode, modes mode → others mode)
    (changes : Changes modes session after) : Changes others session after :=
  Relation.ReflTransGen.mono (fun _ _ change => Change.mono implies change) _ _ changes

/-- What every change keeps is kept by changes one after the other. -/
theorem Changes.keep {holds : Session → Prop}
    (keeps : ∀ before after, holds before → Change modes before after → holds after)
    (changes : Changes modes session after) (here : holds session) : holds after := by
  induction changes with
  | refl => exact here
  | tail _ change inductionHypothesis => exact keeps _ _ inductionHypothesis change

/-- What happens to the log is a change. -/
theorem Change.log (session : Session) (log : EditLog) :
    Change modes session { session with log } :=
  .devices session.file.refusesRead session.file.refusesWrite session.file.refusesFlush
    session.file.heldBack log

/-! ### Actions -/

theorem changes_modify {change : Session → Session}
    (changes : ∀ session, Change modes session (change session)) :
    Action.Keeps (Changes modes start) (modify change : Action PUnit) :=
  Action.keeps_modify fun session here => here.tail (changes session)

theorem changes_refuse {Value : Type} (failure : CommandFailure) :
    Action.Keeps (Changes modes start) (refuse failure : Action Value) :=
  Action.keeps_throw _

theorem changes_onLog {Value : Type} (cause : LogFailure → ActionFailure)
    (action : EditLog.Action Value) : Action.Keeps (Changes modes start) (onLog cause action) := by
  intro session here
  rw [left_onLog]
  exact here.tail (.log session _)

theorem changes_writeByte (address : Int) (value : UInt8) :
    Action.Keeps (Changes modes start) (writeByte address value) := by
  intro session here
  obtain ⟨_, _, wrote, left⟩ := session.left_writeByte address value
  rw [left]
  exact here.tail (.write wrote)

theorem changes_onWindow (move : Window.Move)
    (stays : ∀ height length, move ≠ .resize height length) :
    Action.Keeps (Changes modes start) (onWindow move.apply) :=
  changes_modify fun _ => .move move stays

theorem changes_pushJump : Action.Keeps (Changes modes start) pushJump :=
  changes_modify fun session =>
    .aside _ _ _ (session.window.cursor :: session.jumps) _ _ _

theorem changes_goto (target : Int) (recenter : Bool) :
    Action.Keeps (Changes modes start) (goto target recenter) :=
  Action.keeps_bind changes_pushJump fun _ => changes_onWindow (.goto target recenter) nofun

theorem changes_jumpBack : Action.Keeps (Changes modes start) jumpBack := by
  refine Action.keeps_get_bind fun session => ?_
  cases session.jumps with
  | nil => exact changes_refuse _
  | cons target rest =>
    refine Action.keeps_bind (changes_modify fun _ => .aside _ _ _ rest _ _ _) fun _ => ?_
    exact changes_onWindow (.goto target true) nofun

theorem changes_setMode {mode : Mode} (allowed : modes mode) :
    Action.Keeps (Changes modes start) (setMode mode) :=
  changes_modify fun _ => .mode allowed

theorem changes_setCommandLine (line : Option (List Char)) :
    Action.Keeps (Changes modes start) (setCommandLine line) :=
  changes_modify fun _ => .aside _ line _ _ _ _ _

theorem changes_quit :
    Action.Keeps (Changes modes start)
      (modify fun session => { session with quit := true } : Action PUnit) :=
  changes_modify fun _ => .aside _ _ _ _ _ _ true

theorem changes_activate (name : String) :
    Action.Keeps (Changes modes start) (activate name) := by
  refine Action.keeps_get_bind fun session => ?_
  split
  · exact changes_modify fun _ => .aside _ _ _ _ (some name) _ _
  · exact changes_refuse _

/-- Behind an action the cursor moves on, which is a change more. -/
theorem changes_thenRight {action : Action Unit}
    (changes : Action.Keeps (Changes modes start) action) :
    Action.Keeps (Changes modes start) (thenRight action) := by
  intro session here
  rw [left_thenRight]
  exact (changes session here).tail (.move .right nofun)

theorem changes_typeDigit (digit : Nat) :
    Action.Keeps (Changes modes start) (typeDigit digit) := by
  intro session here
  cases half : session.pendingByte with
  | none =>
    rcases typeDigit_of_fresh half digit with ⟨_, kept, same⟩ | ⟨old, taken, same⟩ <;> rw [same]
    · exact here.tail (.access kept)
    · exact (here.tail (.begin _ taken)).tail (.access (session.file.kept_behindRead _ _))
  | some pending =>
    by_cases empty : session.window.fileLength = 0
    · rw [typeDigit_of_empty digit empty]
      exact here
    · rw [typeDigit_of_pending digit empty half, Work.run]
      refine changes_thenRight ?_ _ (here.tail .giveUp)
      refine Action.keeps_bind (changes_onLog _ _) fun _ => ?_
      exact Action.keeps_bind (changes_writeByte _ _) fun _ => changes_onLog _ _

theorem changes_stepHistory (step : HistoryStep) :
    Action.Keeps (Changes modes start) (stepHistory step) := by
  refine Action.keeps_get_bind fun session => ?_
  split
  · exact changes_refuse _
  refine Action.keeps_bind (changes_onLog _ _) fun answer => ?_
  obtain _ | ⟨address, value⟩ := answer
  · exact changes_refuse _
  refine Action.keeps_bind (changes_writeByte _ _) fun _ => ?_
  exact Action.keeps_bind (changes_onLog _ _) fun _ => changes_goto _ _

/-! ### Keys -/

theorem changes_execute (line : String) : Action.Keeps (Changes modes start) (execute line) := by
  unfold execute
  split
  · exact Action.keeps_pure _
  split
  · split
    · split
      · exact changes_goto _ _
      · exact changes_refuse _
    · exact changes_refuse _
  split
  · exact changes_quit
  split
  · split
    · exact changes_activate _
    · exact changes_refuse _
  split
  · exact changes_stepHistory .undo
  split
  · exact changes_stepHistory .redo
  · exact changes_refuse _

theorem changes_typeCommand (line : List Char) (key : Key) :
    Action.Keeps (Changes modes start) (typeCommand line key) := by
  cases key with
  | enter => exact Action.keeps_bind (changes_setCommandLine none) fun _ => changes_execute _
  | escape => exact changes_setCommandLine _
  | backspace => exact changes_setCommandLine _
  | char character => exact changes_setCommandLine _
  | control character => exact changes_setCommandLine _
  | _ => exact Action.keeps_pure ()

theorem changes_typeCharacter (character : Char) :
    Action.Keeps (Changes (fun mode => (Key.char character).mode? = some mode) start)
      (typeCharacter character) := by
  unfold typeCharacter
  split
  · exact changes_setCommandLine _
  split
  · next modify => exact changes_setMode (if_pos modify)
  split
  · next other replace => exact changes_setMode ((if_neg other).trans (if_pos replace))
  split
  · exact changes_quit
  split
  · exact changes_pushJump
  split
  · exact changes_stepHistory .undo
  · exact Action.keeps_pure _

theorem changes_typeKey (mode : Mode) (key : Key) :
    Action.Keeps (Changes (fun mode => key.mode? = some mode) start) (typeKey mode key) := by
  cases key with
  | char character =>
    rw [typeKey_char]
    split
    · split
      · exact changes_typeDigit _
      · exact changes_typeCharacter character
    · exact changes_typeCharacter character
  | control character =>
    show Action.Keeps _ (if character = 't' then jumpBack
      else if character = 'r' then stepHistory .redo else pure ())
    split
    · exact changes_jumpBack
    split
    · exact changes_stepHistory .redo
    · exact Action.keeps_pure ()
  | up => exact changes_onWindow .up nofun
  | down => exact changes_onWindow .down nofun
  | left => exact changes_onWindow .left nofun
  | right => exact changes_onWindow .right nofun
  | home => exact changes_onWindow .rowStart nofun
  | finish => exact changes_onWindow .rowEnd nofun
  | pageUp => exact changes_onWindow .pageUp nofun
  | pageDown => exact changes_onWindow .pageDown nofun
  | controlHome => exact changes_goto 0 true
  | controlFinish => exact changes_goto wordLimit true
  | escape => exact changes_setMode rfl
  | enter => exact Action.keeps_pure ()
  | backspace => exact Action.keeps_pure ()
  | tab => exact Action.keeps_pure ()
  | other name => exact Action.keeps_pure ()

/-- A key makes changes that set the mode that it stands for, if it does. -/
theorem changes_dispatch (session : Session) (key : Key) :
    Changes (fun mode => session.modeSetBy key = some mode) session
      (Action.left (dispatch key session)) := by
  rw [dispatch, Action.bind_get, modeSetBy]
  cases session.commandLine with
  | some line => exact changes_typeCommand line key session .refl
  | none => exact changes_typeKey session.mode key session .refl

/-! ### Events -/

theorem changes_refresh (session : Session) : Changes modes session session.refresh := by
  dsimp only [refresh]
  split
  · exact .single (.aside _ _ _ _ _ [] _)
  next name struct _ =>
  have read : Changes modes session { session with file := behindRows struct session } :=
    .single (.access (kept_behindRows struct session))
  split
  · next rows struct _ => exact read.tail (.aside _ _ _ _ _ rows _)
  · exact read.tail (.aside _ _ _ _ _ [] _)

theorem changes_handleKey (session : Session) (key : Key) :
    Changes (fun mode => session.modeSetBy key = some mode) session (session.handleKey key) := by
  refine Relation.ReflTransGen.trans ?_ (changes_refresh _)
  have cleared : Change (fun mode => session.modeSetBy key = some mode) session
      { session with status := none } :=
    .aside _ _ none _ _ _ _
  have dispatched := changes_dispatch { session with status := none } key
  rw [reporting]
  cases ran : dispatch key { session with status := none } with
  | ok value next =>
    rw [ran] at dispatched
    exact .head cleared dispatched
  | error failure next =>
    rw [ran] at dispatched
    exact (Relation.ReflTransGen.head cleared dispatched).tail
      (.aside _ _ (some failure.status) _ _ _ _)

theorem changes_handlePointer (session : Session) (report : PointerReport) :
    Changes modes session (session.handlePointer report) := by
  have cleared : Change modes session { session with status := none } := .aside _ _ none _ _ _ _
  have moved : Changes modes session
      { session with status := none, window := (session.window.point report).2 } :=
    (Relation.ReflTransGen.single cleared).tail (.move (.point report) nofun)
  dsimp only [handlePointer]
  split
  · split
    · exact moved.trans (changes_refresh _)
    · exact moved
  · exact .single cleared

theorem changes_resize (session : Session) (height : Int) :
    Changes modes session (session.resize height) := by
  rw [resize]
  split
  · next length found =>
    rw [EditedFile.eq_of_length found]
    have resized : Changes modes session
        { session with
          file := session.file.flush
          window := session.window.resize height (some session.file.size) } :=
      (Relation.ReflTransGen.single (.resize height)).tail (.access .accessed)
    exact resized.trans (changes_refresh _)
  · exact .refl

end Session

/-! ### Runs -/

/-- The files of a session stay open. -/
def SessionEvent.StaysOpen : SessionEvent → Prop
  | reopen _ _ => False
  | _ => True

namespace Trial

variable {trial : Trial} {session next : Session}

/-- A trial makes changes, or it opens a session. -/
theorem changes_or_opened (applied : trial.apply session = .ok next) :
    Session.Changes (fun _ => True) session next ∨ ∃ content logContent structs height,
      Session.openOn content logContent structs height = .ok next := by
  have faced : Session.Change (fun _ => True) session (trial.facing session) :=
    .devices trial.refusesRead trial.refusesWrite trial.refusesFlush _ (trial.upset session.log)
  rw [apply] at applied
  cases event : trial.event with
  | key pressed =>
    rw [event] at applied
    cases applied
    exact .inl (.head faced ((Session.changes_handleKey _ pressed).mono fun _ _ => trivial))
  | pointer report =>
    rw [event] at applied
    cases applied
    exact .inl (.head faced (Session.changes_handlePointer _ report))
  | resize height =>
    rw [event] at applied
    cases applied
    exact .inl (.head faced (Session.changes_resize _ height))
  | reopen structs height =>
    rw [event] at applied
    exact .inr ⟨_, _, structs, height, applied⟩

/-- What sessions have when they are opened and every change keeps holds throughout all runs. -/
theorem holds_of_run {holds : Session → Prop}
    (opens : ∀ {content logContent structs height opened},
      Session.openOn content logContent structs height = .ok opened → holds opened)
    (keeps : ∀ before after, holds before → Session.Change (fun _ => True) before after →
      holds after)
    {content : Array UInt8} {logContent : List UInt8} {structs : List (String × Struct)}
    {height : Int} {opened last : Session}
    (start : Session.openOn content logContent structs height = .ok opened)
    {trials : List Trial} (ran : applyAll trials opened = .ok last) : holds last := by
  have here : holds opened := opens start
  clear start
  induction trials generalizing opened with
  | nil =>
    cases ran
    exact here
  | cons trial rest inductionHypothesis =>
    rw [applyAll, List.foldlM_cons] at ran
    cases applied : trial.apply opened with
    | error corruption =>
      rw [applied] at ran
      cases ran
    | ok next =>
      rw [applied] at ran
      refine inductionHypothesis ran ?_
      rcases changes_or_opened applied with changes | ⟨_, _, _, _, reopened⟩
      · exact changes.keep keeps here
      · exact opens reopened

end Trial

end HexEditor
