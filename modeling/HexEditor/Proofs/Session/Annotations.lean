/-
The rows beside the bytes are never stale. They depend on the struct on show, the content of
the file, the cursor and the height of the screen, and on nothing else: what a struct
remembers of the last time makes no difference. Every event that can change one of them ends
with the rows computed anew. Only pointers do not always end so, and those that do not leave
the window as it is.
-/

import HexEditor.Proofs.Session.ReadOnly

namespace HexEditor

/-- What a struct remembers makes no difference to what it shows. -/
theorem Struct.annotate_again {struct next : Struct} {reader : ByteReader} {cursor rows : Int}
    {lines : List PanelRow} (shown : struct.annotate reader cursor rows = .ok (lines, next))
    (other : ByteReader) (place room : Int) :
    next.annotate other place room = struct.annotate other place room := by
  unfold annotate at shown
  split at shown
  · split at shown
    · cases shown
      rfl
    · cases shown
  · split at shown
    · cases shown
      rfl
    · cases shown

/-- A pointer after which the view cannot have changed leaves the window as it is. -/
theorem Window.point_of_unchanged {window : Window} {report : PointerReport}
    (unchanged : (window.point report).1 = false) : (window.point report).2 = window := by
  revert unchanged
  dsimp only [point]
  split_ifs
  · exact fun _ => rfl
  · exact nofun
  · exact nofun
  · exact fun _ => rfl
  · cases window.offsetAt report.column report.row with
    | none => exact fun _ => rfl
    | some offset => exact nofun
  · exact fun _ => rfl
  · cases window.offsetAt report.column report.row with
    | none => exact fun _ => rfl
    | some offset => exact nofun

namespace Session

variable {session after : Session}

/-! ### What belongs beside the bytes -/

/-- The rows that the struct on show gives for what the file gives, at the cursor and for the height
of the screen. There are none without a struct, or where it fails. -/
def annotated (session : Session) : List PanelRow :=
  match session.active.bind fun name => session.structs.lookup name with
  | none => []
  | some struct =>
    match struct.annotate session.file.reader session.window.cursor session.window.height with
    | .ok (rows, _) => rows
    | .error _ => []

/-- The file refuses no reading, and the rows are what belongs beside the bytes. -/
structure Fresh (session : Session) : Prop where
  reads : session.file.refusesRead = false
  rows_eq : session.rows = session.annotated

/-- Computing the rows anew makes them what belongs beside the bytes. -/
theorem fresh_refresh (reads : session.file.refusesRead = false) : session.refresh.Fresh := by
  have kept := (quiet_refresh session).file
  refine ⟨kept.refusesRead_eq.trans reads, ?_⟩
  rw [annotated, kept.reader_eq, refresh]
  cases active : session.active with
  | none => rfl
  | some name =>
    cases found : session.structs.lookup name with
    | none => simp only [Option.bind_some, found, Option.map_none]
    | some struct =>
      simp only [Option.bind_some, found, Option.map_some]
      cases shown : struct.annotate session.file.reader session.window.cursor
          session.window.height with
      | error failure => simp only [Option.bind_some, found, shown]
      | ok result =>
        obtain ⟨rows, next⟩ := result
        simp only [Option.bind_some, Table.lookup_set, beq_self_eq_true, if_true,
          struct.annotate_again shown, shown]

/-- What belongs beside the bytes depends on these parts of a session. -/
theorem Fresh.of_same (fresh : session.Fresh) (reads : after.file.refusesRead = false)
    (rows : after.rows = session.rows) (active : after.active = session.active)
    (structs : after.structs = session.structs) (reader : after.file.reader = session.file.reader)
    (window : after.window = session.window) : after.Fresh := by
  refine ⟨reads, ?_⟩
  rw [rows, fresh.rows_eq, annotated, annotated, active, structs, reader, window]

end Session

/-! ### Events -/

/-- The file stays open and refuses no reading, and it does not come to be cut off from its device,
or reached again, between two events. -/
def Trial.ReadsAlike (trial : Trial) (session : Session) : Prop :=
  trial.refusesRead = false ∧ trial.event.StaysOpen ∧
    (trial.facing session).file.stuck = session.file.stuck

namespace Session

variable {session : Session}

/-- A key ends with the rows computed anew, from a file that can be read as before. -/
theorem fresh_handleKey (reads : session.file.refusesRead = false) (key : Key) :
    (session.handleKey key).Fresh := by
  rw [handleKey]
  refine fresh_refresh ?_
  rw [← (quiet_refresh _).file.refusesRead_eq]
  exact (writes_handleKey session key).1.refusesRead_eq.trans reads

/-- A pointer that moves nothing leaves the rows, and they still belong there. -/
theorem Fresh.handlePointer (fresh : session.Fresh) (report : PointerReport) :
    (session.handlePointer report).Fresh := by
  dsimp only [Session.handlePointer]
  split
  · split
    · exact fresh_refresh fresh.reads
    · next unchanged =>
      have still := Window.point_of_unchanged (eq_false_of_ne_true unchanged)
      exact fresh.of_same fresh.reads rfl rfl rfl rfl still
  · exact fresh.of_same fresh.reads rfl rfl rfl rfl rfl

/-- A new height of the screen ends with the rows computed anew, unless it changes nothing. -/
theorem Fresh.resize (fresh : session.Fresh) (height : Int) : (session.resize height).Fresh := by
  rw [Session.resize]
  split
  · exact fresh_refresh (session.file.refusesRead_flush.trans fresh.reads)
  · exact fresh

/-- An event on a file that is read as before leaves the rows that belong beside the bytes. -/
theorem Fresh.apply {trial : Trial} (fresh : session.Fresh) (alike : trial.ReadsAlike session) :
    ∃ next, trial.apply session = .ok next ∧ next.Fresh := by
  obtain ⟨reads, stays, stuck⟩ := alike
  have reader : (trial.facing session).file.reader = session.file.reader :=
    EditedFile.reader_eq (reads.trans fresh.reads.symm) stuck rfl
  have faced : (trial.facing session).Fresh := fresh.of_same reads rfl rfl rfl reader rfl
  rw [Trial.apply]
  cases event : trial.event with
  | key key => exact ⟨_, rfl, fresh_handleKey reads key⟩
  | pointer report => exact ⟨_, rfl, faced.handlePointer report⟩
  | resize height => exact ⟨_, rfl, faced.resize height⟩
  | reopen structs height =>
    rw [event] at stays
    cases stays

/-! ### Runs -/

end Session

end HexEditor
