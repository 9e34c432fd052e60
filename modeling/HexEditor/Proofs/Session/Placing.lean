/-
Where a session stands on its file. The window of a session keeps its place on the file
whatever happens: its moves leave the length that it takes the file to have, the file never
changes its length, and a new height of the screen takes the length anew. A byte can be
half-typed only in a file that has one.
-/

import HexEditor.Proofs.Session.ReadOnly

namespace HexEditor

namespace Session

/-- The window is well placed on the file, which is open, and where a byte is half-typed there is
one. -/
structure Placed (session : Session) : Prop where
  window : session.window.WellPlaced
  length_eq : session.window.fileLength = session.file.size
  opened : session.file.closed = false
  bytes_of_pending : session.pending ≠ none → 0 < session.file.size

variable {session after : Session}

/-- A session that is opened is at the start of its file. -/
theorem placed_openOn {content : Array UInt8} {logContent : List UInt8}
    {structs : List (String × Struct)} {height : Int}
    (opened : openOn content logContent structs height = .ok session) : session.Placed := by
  obtain ⟨log, rfl⟩ := eq_of_openOn opened
  exact ⟨Window.wellPlaced_new _ _, rfl, rfl, fun half => absurd rfl half⟩

/-- Every change leaves a session placed. -/
theorem Placed.change {modes : Mode → Prop} (placed : session.Placed)
    (change : Change modes session after) : after.Placed := by
  obtain ⟨window, length_eq, opened, bytes_of_pending⟩ := placed
  cases change with
  | move move stays =>
    have length := (Window.Move.alike_apply session.window stays).fileLength
    exact ⟨window.apply move, length.trans length_eq, opened, bytes_of_pending⟩
  | resize height =>
    have placedAnew : (session.window.resize height (some session.file.size)).WellPlaced :=
      window.resize height fun _ given => Option.some.inj given ▸ Int.natCast_nonneg _
    exact ⟨placedAnew, Window.fileLength_resize _ _ _, opened, bytes_of_pending⟩
  | devices => exact ⟨window, length_eq, opened, bytes_of_pending⟩
  | access kept =>
    refine ⟨window, ?_, kept.closed_eq.trans opened, ?_⟩
    · rw [kept.size_eq]
      exact length_eq
    · rw [kept.size_eq]
      exact bytes_of_pending
  | write wrote =>
    have once := EditedFile.writtenOnce_of_writeByte wrote
    refine ⟨window, ?_, once.closed_eq.trans opened, ?_⟩
    · rw [once.size_eq]
      exact length_eq
    · rw [once.size_eq]
      exact bytes_of_pending
  | begin value taken =>
    refine ⟨window.withNibble 1, length_eq, opened, fun _ => ?_⟩
    obtain ⟨address, _, found⟩ := EditedFile.getElem?_of_byteAt taken
    obtain ⟨inside, _⟩ := Array.getElem?_eq_some_iff.1 found
    exact Nat.zero_lt_of_lt inside
  | giveUp => exact ⟨window, length_eq, opened, fun half => absurd rfl half⟩
  | mode _ => exact ⟨window.withNibble 0, length_eq, opened, fun half => absurd rfl half⟩
  | aside => exact ⟨window, length_eq, opened, bytes_of_pending⟩

/-- Whatever happens to a session that was opened, it is placed. -/
theorem placed_of_run {content : Array UInt8} {logContent : List UInt8}
    {structs : List (String × Struct)} {height : Int} {opened : Session}
    (start : openOn content logContent structs height = .ok opened) {trials : List Trial}
    (ran : Trial.applyAll trials opened = .ok session) : session.Placed :=
  Trial.holds_of_run placed_openOn (fun _ _ placed change => placed.change change) start ran

end Session

end HexEditor
