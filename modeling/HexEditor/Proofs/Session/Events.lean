/-
Whatever the user does, the file and the log of a session do not drift apart. Most keys
touch neither of them, and give up a half-typed byte or leave it; the ones that edit,
undo or redo follow the chain of contents that belongs to the records. So the file
always holds the content at the position of the log, and undoing everything brings back
the bytes that the file had when the log was empty, across any number of sessions.
-/

import HexEditor.Proofs.Session.Tracking

namespace HexEditor

namespace Session

variable {origin : Array UInt8}

/-- A session tracks some history on some chain of contents. -/
def Tracked (origin : Array UInt8) (session : Session) : Prop :=
  ∃ history contents, session.Tracks origin history contents

theorem Tracked.of_quiet {before after : Session} (tracked : Tracked origin before)
    (quiet : Quiet before after) : Tracked origin after := by
  obtain ⟨history, contents, tracks⟩ := tracked
  exact ⟨history, contents, tracks.of_quiet quiet⟩

/-! ### Events -/

variable {session : Session}

/-- A key keeps a session tracked: it is quiet, or it types a digit or steps through the history. -/
theorem Tracked.dispatch (tracked : Tracked origin session) (key : Key) :
    Tracked origin (Action.left (Session.dispatch key session)) := by
  obtain ⟨history, contents, tracks⟩ := tracked
  rcases session.answers key with ⟨_, quiet⟩ | ⟨_, digit, fresh, same⟩ | ⟨work, found, same⟩
  · exact ⟨history, contents, tracks.of_quiet quiet⟩
  · rw [same]
    exact ⟨history, contents, tracks.begin fresh digit⟩
  · rw [same]
    cases work with
    | commit pending digit => exact tracks.commit (of_workOf_commit found).2.2 digit
    | step direction =>
      obtain ⟨next, nextTracks⟩ :=
        (tracks.of_quiet (Work.quiet_opening session (.step direction))).stepHistory direction
      exact ⟨next, contents, nextTracks⟩

theorem Tracked.handleKey (tracked : Tracked origin session) (key : Key) :
    Tracked origin (session.handleKey key) := by
  have cleared : Tracked origin { session with status := none } :=
    tracked.of_quiet ⟨.same, rfl, .inl rfl, .inl rfl⟩
  exact (cleared.dispatch key).of_quiet (quiet_handleKey session key)

/-- Opens a session on the contents of a file and of its log. -/
def openOn (content : Array UInt8) (logContent : List UInt8) (structs : List (String × Struct))
    (height : Int) : Except LogCorruption Session :=
  (EditLog.openContent logContent).1.map fun log => start { content } log structs height

/-- A session that is opened on an empty log tracks the empty history. -/
theorem tracks_openOn_nil (content : Array UInt8) (structs : List (String × Struct))
    (height : Int) :
    ∃ session, openOn content [] structs height = .ok session ∧ Tracked content session := by
  obtain ⟨_, settled, history, holds⟩ := EditLog.holds_of_open
    (rfl : EditLog.openContent [] = (.ok ⟨{ content := logHeader 16 }, 16, 16⟩, logHeader 16))
  have stop : 16 = 16 + 16 * history.records.length := holds.stop
  have empty : history.records.length = 0 := by omega
  have first : history.index = 0 := by
    have := history.index_le
    omega
  have room : 16 < offsetLimit := by decide
  refine ⟨_, rfl, history, fun _ => content, ⟨rfl, rfl, rfl⟩, holds, settled, room, ⟨rfl, ?_⟩, rfl,
    ?_⟩
  · intro number lt
    omega
  · intro pending half
    cases half

/-- A session that is closed and opened again tracks what it tracked. -/
theorem Tracked.openOn (tracked : Tracked origin session) (structs : List (String × Struct))
    (height : Int) :
    ∃ reopened, Session.openOn session.file.leftBehind session.log.file.content structs height =
      .ok reopened ∧ Tracked origin reopened := by
  obtain ⟨history, contents, tracks⟩ := tracked
  rw [EditedFile.leftBehind_of_passes tracks.willing.passes]
  have reopened := tracks.holds.openContent_eq tracks.settled
  refine ⟨start { content := session.file.content } session.log.reopened structs height, ?_, history,
    contents, ⟨rfl, rfl, rfl⟩, tracks.holds.reopened, tracks.settled, tracks.room, tracks.chain,
    tracks.content_eq, ?_⟩
  · rw [Session.openOn, reopened]
    rfl
  intro pending half
  cases half

end Session

/-- Something that happens to a session. -/
inductive SessionEvent where
  | key (key : Key)
  | pointer (report : PointerReport)
  | resize (height : Int)
  /-- The file and the log are closed, and a session is opened on what is left of them. -/
  | reopen (structs : List (String × Struct)) (height : Int)

namespace SessionEvent

/-- The session behind an event. -/
def apply : SessionEvent → Session → Except LogCorruption Session
  | key pressed, session => .ok (session.handleKey pressed)
  | pointer report, session => .ok (session.handlePointer report)
  | resize height, session => .ok (session.resize height)
  | reopen structs height, session =>
    Session.openOn session.file.leftBehind session.log.file.content structs height

def applyAll (events : List SessionEvent) (session : Session) : Except LogCorruption Session :=
  events.foldlM (fun session event => event.apply session) session

end SessionEvent

namespace Session

variable {origin : Array UInt8} {session : Session}

/-- Every event succeeds and keeps a session tracked. -/
theorem Tracked.apply (tracked : Tracked origin session) (event : SessionEvent) :
    ∃ next, event.apply session = .ok next ∧ Tracked origin next := by
  cases event with
  | key key => exact ⟨_, rfl, tracked.handleKey key⟩
  | pointer report => exact ⟨_, rfl, tracked.of_quiet (quiet_handlePointer session report)⟩
  | resize height => exact ⟨_, rfl, tracked.of_quiet (quiet_resize session height)⟩
  | reopen structs height => exact tracked.openOn structs height

/-- Events succeed one after the other and keep a session tracked. -/
theorem Tracked.applyAll (tracked : Tracked origin session) (events : List SessionEvent) :
    ∃ last, SessionEvent.applyAll events session = .ok last ∧ Tracked origin last := by
  induction events generalizing session with
  | nil => exact ⟨session, rfl, tracked⟩
  | cons event rest inductionHypothesis =>
    obtain ⟨next, ran, nextTracked⟩ := tracked.apply event
    obtain ⟨last, ranRest, lastTracked⟩ := inductionHypothesis nextTracked
    refine ⟨last, ?_, lastTracked⟩
    rw [SessionEvent.applyAll, List.foldlM_cons, ran]
    exact ranRest

/-! ### Undoing and redoing everything -/

def stepAll (steps : List HistoryStep) : Action Unit := steps.forM stepHistory

/-- As many steps back as there are records that are done lead to the first content. -/
theorem Tracks.undoAll {history : History} {contents : Nat → Array UInt8}
    (tracks : session.Tracks origin history contents) (writable : session.mode ≠ .read) :
    ∃ next, stepAll (List.replicate history.index .undo) session = .ok () next ∧
      next.Tracks origin ⟨history.records, 0, Nat.zero_le _⟩ contents ∧ next.mode ≠ .read := by
  obtain ⟨records, index, within⟩ := history
  induction index generalizing session with
  | zero => exact ⟨session, rfl, tracks, writable⟩
  | succ index inductionHypothesis =>
    obtain ⟨next, ran, nextTracks, mode⟩ := tracks.stepHistory_of_some writable
      (rfl : (HistoryStep.undo.apply ⟨records, index + 1, within⟩).1 = some _)
    obtain ⟨last, ranRest, lastTracks, lastMode⟩ :=
      inductionHypothesis (mode ▸ writable) (Nat.le_of_succ_le within) nextTracks
    exact ⟨last, (Action.bind_of_ok ran).trans ranRest, lastTracks, lastMode⟩

/-- As many steps forward as there are records that are not done lead to the last content. -/
theorem Tracks.redoAll {history : History} {contents : Nat → Array UInt8} (left : Nat)
    (tracks : session.Tracks origin history contents) (writable : session.mode ≠ .read)
    (all : history.index + left = history.records.length) :
    ∃ next, stepAll (List.replicate left .redo) session = .ok () next ∧
      next.Tracks origin ⟨history.records, history.records.length, Nat.le_refl _⟩ contents := by
  induction left generalizing session history with
  | zero =>
    obtain ⟨records, index, within⟩ := history
    have last : index = records.length := all
    subst last
    exact ⟨session, rfl, tracks⟩
  | succ left inductionHypothesis =>
    have more : history.index < history.records.length := by omega
    have redone : HistoryStep.redo.apply history =
        (some (history.records[history.index].address, history.records[history.index].new),
          ⟨history.records, history.index + 1, more⟩) := by
      rw [HistoryStep.apply, History.redo, dif_pos more]
    obtain ⟨next, ran, nextTracks, mode⟩ := tracks.stepHistory_of_some writable
      (congrArg Prod.fst redone)
    rw [redone] at nextTracks
    have rest : history.index + 1 + left = history.records.length := by omega
    obtain ⟨last, ranRest, lastTracks⟩ := inductionHypothesis nextTracks (mode ▸ writable) rest
    exact ⟨last, (Action.bind_of_ok ran).trans ranRest, lastTracks⟩

/-- The file and the log never drift apart. Whatever happens to sessions on a file and its log,
which begins empty, the records lead from the bytes of the file at the beginning through a chain
of contents, and the file holds the one that the position of the log says. So, unless the file is
only read, undoing everything restores the bytes of the beginning, and redoing everything from
there gives the last content of the chain. -/
theorem file_follows_log (origin : Array UInt8) (structs : List (String × Struct)) (height : Int)
    (events : List SessionEvent) :
    ∃ opened session, openOn origin [] structs height = .ok opened ∧
      SessionEvent.applyAll events opened = .ok session ∧
      ∃ records contents, session.log.records = .ok records ∧
        session.log.count = records.length ∧ session.log.index ≤ records.length ∧
        Chain origin records contents ∧ session.file.content = contents session.log.index ∧
        (session.mode ≠ .read → ∃ undone redone,
          stepAll (List.replicate session.log.index .undo) session = .ok () undone ∧
            undone.file.content = origin ∧
          stepAll (List.replicate session.log.count .redo) undone = .ok () redone ∧
            redone.file.content = contents session.log.count) := by
  obtain ⟨opened, ranOpen, openedTracked⟩ := tracks_openOn_nil origin structs height
  obtain ⟨session, ran, history, contents, tracks⟩ := openedTracked.applyAll events
  have shown := tracks.holds.shows_history
  refine ⟨opened, session, ranOpen, ran, history.records, contents, shown.records, shown.count, ?_,
    tracks.chain, ?_, fun writable => ?_⟩
  · rw [shown.index]
    exact history.index_le
  · rw [shown.index]
    exact tracks.content_eq
  · obtain ⟨undone, ranUndo, undoneTracks, undoneMode⟩ := tracks.undoAll writable
    obtain ⟨redone, ranRedo, redoneTracks⟩ :=
      undoneTracks.redoAll history.records.length undoneMode (Nat.zero_add _)
    rw [shown.index, shown.count]
    refine ⟨undone, redone, ranUndo, ?_, ranRedo, redoneTracks.content_eq⟩
    exact undoneTracks.content_eq.trans tracks.chain.origin_eq

end Session

end HexEditor
