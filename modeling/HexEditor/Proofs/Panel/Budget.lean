/-
The rows that there is room for are the first ones of those that there would be room for on
a higher screen. Neither a program nor a layout can look at the room before it is used up,
so a run with little room goes as one with more until rows do not fit, and then it ends
without a failure. The panel is full at that point, but for one row where the two rows of a
header did not fit.
-/

import HexEditor.Proofs.Panel.Showing

namespace HexEditor

open HexEditor.Action

theorem Panel.Entry.writing_write (entry : Entry) : Writing entry.write := by
  cases entry with
  | value name text => exact writing_value name text
  | header title level => exact writing_header title level

/-- What shows entries, and stops where one does not fit, adds rows as long as they fit. -/
theorem Action.Shows.budgeted {Failure State Value : Type} [HasPanel State]
    {stops : Value → State → Prop} {action : EStateM Failure State Value}
    (shows : Shows stops action) : Budgeted stops action := by
  induction shows with
  | spares spares => exact spares.budgeted
  | write entry mark beside written stopped =>
    refine (budgeted_writing entry.writing_write mark beside written).mono ?_
    rintro fitted state ⟨rfl, before, rfl⟩
    exact stopped before
  | look same _ inductionHypothesis => exact budgeted_get_bind same inductionHypothesis
  | bind _ _ stopping first second => exact first.bind second stopping

/-- A run is cut short at the first step that shows something that does not fit. -/
theorem Machine.budgeted_runSteps (setting : RunSetting) (limit : Int) (steps : Nat) :
    Budgeted Halted (runSteps setting limit steps) :=
  (shows_runSteps setting limit steps).budgeted

/-- A walk through a layout is cut short where there is no room. -/
theorem Decoding.budgeted_walk (reader : ByteReader) (cursor : Int) (depth : Nat)
    (path : List String) (node : Node) : Budgeted Missed (walk reader cursor depth path node) :=
  (shows_walk reader cursor depth path node).budgeted

/-! ### Budgets -/

/-- A smaller number of rows only cuts the output short. A program and a layout with room for fewer
rows fail as they do with room for more, or show the first of the rows that are shown then; and if
these are not all, the room is used up but for one row at most. A negative number counts as none. -/
theorem rows_cut_short {few many : Int} (le : few ≤ many) :
    (∀ setting limit,
      CutShort few.toNat (shown (Machine.run setting few limit))
        (shown (Machine.run setting many limit))) ∧
      ∀ (root : Node) reader cursor,
        CutShort few.toNat ((root.decode reader cursor few).map Prod.fst)
          ((root.decode reader cursor many).map Prod.fst) := by
  have larger : few.toNat ≤ many.toNat := Int.toNat_le_toNat le
  refine ⟨fun setting limit => ?_, fun root reader cursor => ?_⟩
  · have budgeted := Machine.budgeted_runSteps setting limit limit.toNat
    exact budgeted.cutShort { panel := .ofRows few } (Nat.zero_le _) larger
  · have budgeted := Decoding.budgeted_walk reader cursor 0 [] root
    have shows (rows : Int) : (root.decode reader cursor rows).map Prod.fst =
        shown (Decoding.walk reader cursor 0 [] root { panel := .ofRows rows }) := by
      rw [Node.decode]
      cases Decoding.walk reader cursor 0 [] root { panel := .ofRows rows } <;> rfl
    rw [shows, shows]
    exact budgeted.cutShort { panel := .ofRows few } (Nat.zero_le _) larger

/-- Two headers take four rows. -/
def nestedFolders : Node := .folder "outer" [.folder "inner" []]

theorem rows_cut_short_nestedFolders :
    (3 : Int) ≤ 5 ∧
      (nestedFolders.decode .refusing 0 3).map Prod.fst =
        .ok [⟨.header, "outer", 0⟩, ⟨.headerPad, "", 0⟩] ∧
      (nestedFolders.decode .refusing 0 5).map Prod.fst =
        .ok [⟨.header, "outer", 0⟩, ⟨.headerPad, "", 0⟩, ⟨.header, "inner", 1⟩,
          ⟨.headerPad, "", 1⟩] ∧
      CutShort 3 ((nestedFolders.decode .refusing 0 3).map Prod.fst)
        ((nestedFolders.decode .refusing 0 5).map Prod.fst) ∧
      ∀ setting limit,
        CutShort 3 (shown (Machine.run setting 3 limit)) (shown (Machine.run setting 5 limit)) := by
  have le : (3 : Int) ≤ 5 := by decide
  exact ⟨le, rfl, rfl, (rows_cut_short le).2 _ _ _, (rows_cut_short le).1⟩

end HexEditor
