/-
What a key does to the file and its log. Most keys move the cursor, change the mode or
type at the command line, and leave both of them alone; at most they give up a half-typed
byte. The first digit of a byte begins one. What is left is the work of the editor: the
second digit commits a byte, and the keys and commands of the history step through it.
Which work a key is for is told by the session before it, so all that can be said of
files and logs under keys is said of these two kinds of work.
-/

import HexEditor.Proofs.Action
import HexEditor.Proofs.Storage.HeldBack
import HexEditor.Proofs.Window
import HexEditor.Session.Keys

namespace HexEditor.Session

/-! ### Quiet changes -/

/-- What a change that writes to neither the file nor the log leaves of a session. The file may be
accessed, and a half-typed byte may be given up, but none is begun. -/
structure Quiet (before after : Session) : Prop where
  file : before.file.Kept after.file
  log : after.log = before.log
  pending : after.pending = before.pending ∨ after.pending = none
  nibble : after.window.nibble = before.window.nibble ∨ after.window.nibble = 0

theorem Quiet.rfl {session : Session} : Quiet session session :=
  ⟨.same, Eq.refl _, .inl (Eq.refl _), .inl (Eq.refl _)⟩

theorem Quiet.trans {first second third : Session} (before : Quiet first second)
    (behind : Quiet second third) : Quiet first third where
  file := before.file.trans behind.file
  log := behind.log.trans before.log
  pending := by
    rcases behind.pending with same | none
    · rw [same]
      exact before.pending
    · exact .inr none
  nibble := by
    rcases behind.nibble with same | zero
    · rw [same]
      exact before.nibble
    · exact .inr zero

variable {start : Session}

/-- A change that is quiet in every session is quiet behind a quiet one. -/
theorem quiet_modify {change : Session → Session}
    (quiet : ∀ session, Quiet session (change session)) :
    Action.Keeps (Quiet start) (modify change : Action PUnit) :=
  Action.keeps_modify fun session here => here.trans (quiet session)

theorem quiet_refuse {Value : Type} (failure : CommandFailure) :
    Action.Keeps (Quiet start) (refuse failure : Action Value) :=
  Action.keeps_throw _

/-- Moving the window is quiet if it makes no digit typed. -/
theorem quiet_onWindow {move : Window → Window}
    (nibble : ∀ window, (move window).nibble = window.nibble ∨ (move window).nibble = 0) :
    Action.Keeps (Quiet start) (onWindow move) :=
  quiet_modify fun session => ⟨.same, rfl, .inl rfl, nibble session.window⟩

theorem quiet_pushJump : Action.Keeps (Quiet start) pushJump :=
  quiet_modify fun _ => ⟨.same, rfl, .inl rfl, .inl rfl⟩

theorem quiet_goto (target : Int) (recenter : Bool) :
    Action.Keeps (Quiet start) (goto target recenter) :=
  Action.keeps_bind quiet_pushJump fun _ =>
    quiet_onWindow fun window => .inr (window.nibble_goto target recenter)

theorem quiet_jumpBack : Action.Keeps (Quiet start) jumpBack := by
  refine Action.keeps_get_bind fun session => ?_
  cases session.jumps with
  | nil => exact quiet_refuse _
  | cons target rest =>
    refine Action.keeps_bind (quiet_modify fun _ => ⟨.same, rfl, .inl rfl, .inl rfl⟩) fun _ => ?_
    exact quiet_onWindow fun window => .inr (window.nibble_goto target true)

theorem quiet_setMode (mode : Mode) : Action.Keeps (Quiet start) (setMode mode) :=
  quiet_modify fun _ => ⟨.same, rfl, .inr rfl, .inr rfl⟩

theorem quiet_setCommandLine (line : Option (List Char)) :
    Action.Keeps (Quiet start) (setCommandLine line) :=
  quiet_modify fun _ => ⟨.same, rfl, .inl rfl, .inl rfl⟩

theorem quiet_quit :
    Action.Keeps (Quiet start)
      (modify fun session => { session with quit := true } : Action PUnit) :=
  quiet_modify fun _ => ⟨.same, rfl, .inl rfl, .inl rfl⟩

theorem quiet_activate (name : String) : Action.Keeps (Quiet start) (activate name) := by
  refine Action.keeps_get_bind fun session => ?_
  split
  · exact quiet_modify fun _ => ⟨.same, rfl, .inl rfl, .inl rfl⟩
  · exact quiet_refuse _

theorem kept_behindRows (struct : Struct) (session : Session) :
    session.file.Kept (behindRows struct session) := by
  rw [behindRows]
  split
  · exact .accessed
  · exact .same

/-- Computing the rows on show reads the file at most. -/
theorem quiet_refresh (session : Session) : Quiet session session.refresh := by
  dsimp only [refresh]
  split
  · exact ⟨.same, rfl, .inl rfl, .inl rfl⟩
  split
  · exact ⟨kept_behindRows _ _, rfl, .inl rfl, .inl rfl⟩
  · exact ⟨kept_behindRows _ _, rfl, .inl rfl, .inl rfl⟩

/-! ### Work -/

/-- Work on the file and its log. -/
inductive Work where
  /-- Commits a half-typed byte with its second digit, and moves on. -/
  | commit (pending : PendingByte) (digit : Nat)
  | step (direction : HistoryStep)
  deriving DecidableEq, Repr

def Work.run : Work → Action Unit
  | commit pending digit =>
    thenRight (replaceByte pending.address pending.old (withLowerDigit pending.value digit))
  | step direction => stepHistory direction

/-- The work that a command is for. -/
def commandWork (line : String) : Option Work :=
  match wordsOf line with
  | [] => none
  | command :: _ =>
    if command = "undo" then some (.step .undo)
    else if command = "redo" then some (.step .redo)
    else none

/-- The work that a key is for while there is no command line. -/
def keyWork (session : Session) : Key → Option Work
  | .char character =>
    match hexDigit? character with
    | some digit =>
      if session.mode = .replace ∧ session.window.fileLength ≠ 0 then
        session.pendingByte.map fun pending => .commit pending digit
      else
        none
    | none => if character = 'u' then some (.step .undo) else none
  | .control character => if character = 'r' then some (.step .redo) else none
  | _ => none

/-- The work that a key is for in a session. -/
def workOf (session : Session) (key : Key) : Option Work :=
  match session.commandLine with
  | some line => if key = .enter then commandWork (String.ofList line) else none
  | none => session.keyWork key

/-- The session in which work is done: the command line is closed, and a byte that is committed is
no longer half-typed. -/
def Work.opening (session : Session) : Work → Session
  | .commit _ _ => { session with pending := none }
  | .step _ => { session with commandLine := none }

theorem Work.quiet_opening (session : Session) (work : Work) :
    Quiet session (work.opening session) := by
  cases work with
  | commit pending digit => exact ⟨.same, rfl, .inr rfl, .inl rfl⟩
  | step step => exact ⟨.same, rfl, .inl rfl, .inl rfl⟩

/-! ### Keys -/

/-- A command does the work that it is for, or it is quiet. -/
theorem execute_cases (line : String) :
    (∃ step, commandWork line = some (.step step) ∧ execute line = stepHistory step) ∨
      commandWork line = none ∧ ∀ start, Action.Keeps (Quiet start) (execute line) := by
  unfold commandWork execute
  cases wordsOf line with
  | nil => exact .inr ⟨rfl, fun _ => Action.keeps_pure _⟩
  | cons command arguments =>
    by_cases undo : command = "undo"
    · subst undo
      exact .inl ⟨.undo, rfl, rfl⟩
    by_cases redo : command = "redo"
    · subst redo
      exact .inl ⟨.redo, rfl, rfl⟩
    dsimp only
    rw [if_neg undo, if_neg redo, if_neg undo, if_neg redo]
    refine .inr ⟨rfl, fun start => ?_⟩
    split
    · split
      · split
        · exact quiet_goto _ _
        · exact quiet_refuse _
      · exact quiet_refuse _
    split
    · exact quiet_quit
    split
    · split
      · exact quiet_activate _
      · exact quiet_refuse _
    · exact quiet_refuse _

/-- A character that is no digit steps back through the history, or it is quiet. -/
theorem quiet_typeCharacter {character : Char} (other : character ≠ 'u') :
    Action.Keeps (Quiet start) (typeCharacter character) := by
  unfold typeCharacter
  rw [if_neg other]
  split
  · exact quiet_setCommandLine _
  split
  · exact quiet_setMode _
  split
  · exact quiet_setMode _
  split
  · exact quiet_quit
  split
  · exact quiet_pushJump
  · exact Action.keeps_pure _

/-- What a key can do: it is quiet, or it types the first digit of a byte, or it does the work that
it is for. -/
inductive Answers (session : Session) (key : Key) : Prop where
  | quiet (idle : session.workOf key = none)
      (quiet : Quiet session (Action.left (dispatch key session)))
  | begins (idle : session.workOf key = none) (digit : Nat) (fresh : session.pendingByte = none)
      (same : dispatch key session = typeDigit digit session)
  | works (work : Work) (found : session.workOf key = some work)
      (same : dispatch key session = work.run (work.opening session))

theorem answers_typeCommand {session : Session} {line : List Char}
    (typed : session.commandLine = some line) (key : Key) : session.Answers key := by
  have dispatched : dispatch key session = typeCommand line key session := by
    rw [dispatch]
    rw [Action.bind_get]
    rw [typed]
  by_cases entered : key = .enter
  · subst entered
    have worked : session.workOf .enter = commandWork (String.ofList line) := by
      rw [workOf, typed]
      rfl
    have closed : dispatch .enter session =
        execute (String.ofList line) { session with commandLine := none } := dispatched
    rcases execute_cases (String.ofList line) with ⟨step, found, same⟩ | ⟨missing, quiet⟩
    · refine .works (.step step) (worked.trans found) ?_
      rw [closed, same]
      rfl
    · refine .quiet (worked.trans missing) ?_
      rw [closed]
      exact quiet session _ ⟨.same, rfl, .inl rfl, .inl rfl⟩
  · have idle : session.workOf key = none := by
      rw [workOf, typed]
      exact if_neg entered
    refine .quiet idle ?_
    rw [dispatched]
    cases key with
    | enter => exact absurd rfl entered
    | escape => exact quiet_setCommandLine _ session .rfl
    | backspace => exact quiet_setCommandLine _ session .rfl
    | char character => exact quiet_setCommandLine _ session .rfl
    | control character => exact quiet_setCommandLine _ session .rfl
    | _ => exact .rfl

/-- In a file with bytes, the second digit of a byte commits it. -/
theorem typeDigit_of_pending {session : Session} {pending : PendingByte} (digit : Nat)
    (bytes : session.window.fileLength ≠ 0) (half : session.pendingByte = some pending) :
    typeDigit digit session = (Work.commit pending digit).run { session with pending := none } := by
  rw [typeDigit]
  rw [Action.bind_get]
  rw [if_pos bytes, half]
  rfl

/-- In an empty file there is nothing to type over. -/
theorem typeDigit_of_empty {session : Session} (digit : Nat)
    (empty : session.window.fileLength = 0) :
    typeDigit digit session = .ok () session := by
  rw [typeDigit]
  rw [Action.bind_get]
  rw [if_neg (not_not_intro empty)]
  rfl

/-- The first digit of a byte remembers the byte, if the file has one there and gives it. In either
case the file is accessed at most. -/
theorem typeDigit_of_fresh {session : Session} (fresh : session.pendingByte = none) (digit : Nat) :
    (∃ file, session.file.Kept file ∧
        Action.left (typeDigit digit session) = { session with file }) ∨
      ∃ old, session.file.byteAt session.window.cursor = .ok old ∧
        Action.left (typeDigit digit session) =
          { session with
            file := session.file.behindRead session.window.cursor 1
            pending := some ⟨session.window.cursor, old, withUpperDigit old digit⟩
            window := { session.window with nibble := 1 } } := by
  by_cases empty : session.window.fileLength = 0
  · rw [typeDigit_of_empty digit empty]
    exact .inl ⟨session.file, .same, rfl⟩
  · rw [typeDigit]
    rw [Action.bind_get]
    rw [if_pos empty, fresh]
    dsimp only
    cases taken : session.file.byteAt session.window.cursor with
    | error failure =>
      have failed : readByte session.window.cursor session =
          .error (.storage failure)
            { session with file := session.file.behindRead session.window.cursor 1 } := by
        rw [readByte, taken]
      rw [Action.bind_of_error failed]
      exact .inl ⟨_, session.file.kept_behindRead _ _, rfl⟩
    | ok old =>
      have found : readByte session.window.cursor session =
          .ok old { session with file := session.file.behindRead session.window.cursor 1 } := by
        rw [readByte, taken]
      rw [Action.bind_of_ok found]
      exact .inr ⟨old, rfl, rfl⟩

/-- Whatever the first digit of a byte comes to, the log is left alone. -/
theorem log_of_fresh {session : Session} (fresh : session.pendingByte = none) (digit : Nat) :
    (Action.left (typeDigit digit session)).log = session.log := by
  rcases typeDigit_of_fresh fresh digit with ⟨_, -, same⟩ | ⟨_, -, same⟩ <;> rw [same]

/-! ### Written bytes -/

theorem writeByte_of_ok {session : Session} {address : Int} {value : UInt8} {file : EditedFile}
    (taken : session.file.writeByte address value.toNat = (.ok (), file)) :
    writeByte address value session = .ok () { session with file } := by
  rw [writeByte, taken]

theorem writeByte_of_error {session : Session} {address : Int} {value : UInt8} {file : EditedFile}
    {cause : StorageFailure}
    (refused : session.file.writeByte address value.toNat = (.error cause, file)) :
    writeByte address value session =
      .error (.command (.notWritten cause)) { session with file } := by
  rw [writeByte, refused]

/-! ### Pressed keys -/

theorem typeKey_char (mode : Mode) (character : Char) :
    typeKey mode (.char character) =
      match hexDigit? character with
      | some digit => if mode = .replace then typeDigit digit else typeCharacter character
      | none => typeCharacter character :=
  rfl

theorem answers_typeKey {session : Session} (closed : session.commandLine = none) (key : Key) :
    session.Answers key := by
  have dispatched : dispatch key session = typeKey session.mode key session := by
    rw [dispatch]
    rw [Action.bind_get]
    rw [closed]
  have worked : session.workOf key = session.keyWork key := by
    rw [workOf, closed]
  have opened : { session with commandLine := none } = session := by rw [← closed]
  have idle (none : session.keyWork key = none)
      (quiet : ∀ start, Action.Keeps (Quiet start) (typeKey session.mode key)) :
      session.Answers key := by
    refine .quiet (worked.trans none) ?_
    rw [dispatched]
    exact quiet session session .rfl
  have steps (step : HistoryStep) (found : session.keyWork key = some (.step step))
      (same : typeKey session.mode key = stepHistory step) : session.Answers key := by
    refine .works (.step step) (worked.trans found) ?_
    rw [dispatched, same]
    show stepHistory step session = stepHistory step { session with commandLine := none }
    rw [opened]
  cases key with
  | char character =>
    cases value : hexDigit? character with
    | none =>
      have typed : typeKey session.mode (.char character) = typeCharacter character := by
        rw [typeKey_char, value]
      have found : session.keyWork (.char character) =
          if character = 'u' then some (.step .undo) else none := by
        rw [keyWork, value]
      by_cases undo : character = 'u'
      · subst undo
        exact steps .undo found typed
      · rw [if_neg undo] at found
        exact idle found fun _ => typed ▸ quiet_typeCharacter undo
    | some digit =>
      have found : session.keyWork (.char character) =
          if session.mode = .replace ∧ session.window.fileLength ≠ 0 then
            session.pendingByte.map fun pending => .commit pending digit
          else none := by
        rw [keyWork, value]
      have typed : typeKey session.mode (.char character) =
          if session.mode = .replace then typeDigit digit else typeCharacter character := by
        rw [typeKey_char, value]
      by_cases editing : session.mode = .replace
      · rw [if_pos editing] at typed
        cases half : session.pendingByte with
        | none =>
          rw [half, Option.map_none, ite_self] at found
          exact .begins (worked.trans found) digit half (by rw [dispatched, typed])
        | some pending =>
          by_cases empty : session.window.fileLength = 0
          · rw [if_neg fun both => both.2 empty] at found
            refine .quiet (worked.trans found) ?_
            rw [dispatched, typed, typeDigit_of_empty digit empty]
            exact .rfl
          · rw [if_pos ⟨editing, empty⟩, half] at found
            refine .works (.commit pending digit) (worked.trans found) ?_
            rw [dispatched, typed, typeDigit_of_pending digit empty half]
            rfl
      · rw [if_neg fun both => editing both.1] at found
        rw [if_neg editing] at typed
        have other : character ≠ 'u' := by
          rintro rfl
          cases value
        exact idle found fun _ => typed ▸ quiet_typeCharacter other
  | control character =>
    by_cases back : character = 't'
    · subst back
      exact idle rfl fun _ => quiet_jumpBack
    by_cases redo : character = 'r'
    · subst redo
      exact steps .redo rfl rfl
    · refine idle (if_neg redo) fun _ => ?_
      show Action.Keeps _ (if character = 't' then jumpBack
        else if character = 'r' then stepHistory .redo else pure ())
      rw [if_neg back, if_neg redo]
      exact Action.keeps_pure ()
  | up => exact idle rfl fun _ => quiet_onWindow fun window => .inr window.nibble_up
  | down => exact idle rfl fun _ => quiet_onWindow fun window => .inr window.nibble_down
  | left => exact idle rfl fun _ => quiet_onWindow fun window => .inr window.nibble_left
  | right => exact idle rfl fun _ => quiet_onWindow fun window => .inr window.nibble_right
  | home => exact idle rfl fun _ => quiet_onWindow fun _ => .inr rfl
  | finish => exact idle rfl fun _ => quiet_onWindow fun _ => .inr rfl
  | pageUp => exact idle rfl fun _ => quiet_onWindow fun _ => .inr rfl
  | pageDown => exact idle rfl fun _ => quiet_onWindow fun _ => .inr rfl
  | controlHome => exact idle rfl fun _ => quiet_goto 0 true
  | controlFinish => exact idle rfl fun _ => quiet_goto wordLimit true
  | escape => exact idle rfl fun _ => quiet_setMode .read
  | enter => exact idle rfl fun _ => Action.keeps_pure ()
  | backspace => exact idle rfl fun _ => Action.keeps_pure ()
  | tab => exact idle rfl fun _ => Action.keeps_pure ()
  | other name => exact idle rfl fun _ => Action.keeps_pure ()

theorem answers (session : Session) (key : Key) : session.Answers key := by
  cases typed : session.commandLine with
  | some line => exact answers_typeCommand typed key
  | none => exact answers_typeKey typed key

/-- A key does the work that it is for. -/
theorem dispatch_of_workOf {session : Session} {key : Key} {work : Work}
    (found : session.workOf key = some work) :
    dispatch key session = work.run (work.opening session) := by
  rcases session.answers key with ⟨idle, _⟩ | ⟨idle, _, _, _⟩ | ⟨other, same, dispatched⟩
  · cases found.symm.trans idle
  · cases found.symm.trans idle
  · cases found.symm.trans same
    exact dispatched

/-- A byte is committed only if it is half-typed, the file is edited and no command is typed. -/
theorem of_workOf_commit {session : Session} {key : Key} {pending : PendingByte} {digit : Nat}
    (found : session.workOf key = some (.commit pending digit)) :
    session.commandLine = none ∧ session.mode = .replace ∧ session.pendingByte = some pending := by
  unfold workOf at found
  split at found
  · split_ifs at found
    unfold commandWork at found
    split at found
    · cases found
    · split_ifs at found <;> cases found
  · next closed =>
    refine ⟨closed, ?_⟩
    unfold keyWork at found
    split at found
    · split at found
      · split_ifs at found with editing
        obtain ⟨_, half, same⟩ := Option.map_eq_some_iff.1 found
        cases same
        exact ⟨editing.1, half⟩
      · split_ifs at found
        cases found
    · split_ifs at found
      cases found
    · cases found

/-- Reporting a failure and refreshing the rows are quiet, so a key leaves of the file and the log
what it does before that. -/
theorem quiet_handleKey (session : Session) (key : Key) :
    Quiet (Action.left (dispatch key { session with status := none })) (session.handleKey key) := by
  refine Quiet.trans ?_ (quiet_refresh _)
  unfold reporting
  cases dispatch key { session with status := none } with
  | ok => exact .rfl
  | error => exact ⟨.same, rfl, .inl rfl, .inl rfl⟩

/-! ### Other events -/

theorem quiet_handlePointer (session : Session) (report : PointerReport) :
    Quiet session (session.handlePointer report) := by
  have moved : Quiet session
      { session with status := none, window := (session.window.point report).2 } :=
    ⟨.same, rfl, .inl rfl, session.window.nibble_point report⟩
  dsimp only [handlePointer]
  split
  · split
    · exact moved.trans (quiet_refresh _)
    · exact moved
  · exact ⟨.same, rfl, .inl rfl, .inl rfl⟩

theorem quiet_resize (session : Session) (height : Int) :
    Quiet session (session.resize height) := by
  rw [resize]
  split
  · refine Quiet.trans ?_ (quiet_refresh _)
    exact ⟨.accessed, rfl, .inl rfl, .inl (session.window.nibble_resize height _)⟩
  · exact .rfl

end HexEditor.Session
