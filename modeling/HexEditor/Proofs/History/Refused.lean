/-
What becomes of a file that is refused as a log. The mark and the version are looked at before
anything is written, so that a file that is refused for them is left as it was. The position is
looked at only when the last slot is filled up, and so a file that is refused for its position
keeps the zeros that it was filled up with. That is all that a refusal changes: no byte is taken
from the file, nothing else in the tree is touched, and the file is refused again in the same way,
from then on without being changed.
-/

import HexEditor.CommandLine.Startup
import HexEditor.Proofs.Action
import HexEditor.Proofs.History.Opening
import HexEditor.Proofs.Storage.Trees

namespace HexEditor

/-! ### The content that is left -/

namespace EditLog

variable {content left : List UInt8} {corruption : LogCorruption}

/-- What a refusal leaves is refused for the same reason, and is left as it is. -/
theorem openContent_left (refused : openContent content = (.error corruption, left)) :
    openContent left = (.error corruption, left) := by
  rcases openContent_eq_error_iff.1 refused with ⟨-, -, rfl⟩ | ⟨header, misplaced, rfl, rfl⟩
  · exact refused
  · have long := le_length_of_header header
    have same := take_cutTo (Nat.le_trans long (slotsUp_bounds content.length).1) long
    have position := headerPosition_eq_of_take same
    have width := length_cutTo (slotsUp content.length) content
    refine openContent_eq_error_iff.2 (.inr ⟨?_, ?_, by rw [position], ?_⟩)
    · rw [headerFault?_eq_of_take same long, header]
    · rwa [Misplaced, position, width, slotsUp_slotsUp]
    · have again := cutTo_length (cutTo (slotsUp content.length) content)
      rw [width] at again
      rw [width, slotsUp_slotsUp, again]

/-- What is looked at before the slots are filled up is not the position. -/
theorem headerFault?_ne_position (content : List UInt8) (position : Nat) :
    headerFault? content ≠ some (.position position) := by
  unfold headerFault?
  split
  · exact nofun
  · split
    · exact nofun
    · dsimp only
      split
      · exact nofun
      · exact nofun

/-- A refusal takes nothing from a file, and adds something only if it is for the position and the
file ends inside a slot: the zeros that fill up that slot. -/
theorem left_of_refused (refused : openContent content = (.error corruption, left)) :
    (left = content ↔ ∀ position, corruption = .position position → 16 ∣ content.length) ∧
      ∃ zeros, zeros < 16 ∧ left = content ++ List.replicate zeros 0 := by
  rcases openContent_eq_error_iff.1 refused with ⟨-, fault, rfl⟩ | ⟨header, misplaced, rfl, rfl⟩
  · refine ⟨iff_of_true rfl ?_, 0, by decide, (List.append_nil _).symm⟩
    rintro position rfl
    exact absurd fault (headerFault?_ne_position left position)
  · obtain ⟨zeros, few, slots, filled⟩ := exists_zeros_of_fill content
    refine ⟨?_, zeros, few, filled⟩
    rw [filled, List.append_right_eq_self, List.replicate_eq_nil_iff]
    constructor
    · rintro rfl _ -
      exact slots
    · intro aligned
      have whole := aligned _ rfl
      omega

end EditLog

/-! ### The file in its tree -/

namespace Startup

variable {path : Path} {tree left : FileTree} {location : Location} {content : List UInt8}

/-- A file that is there is opened by its content, and what is left of that is put in its place. -/
theorem openLog_of_located (located : tree.locate path.text = .ok location)
    (file : tree.entry? location = some (.file content)) :
    openLog path tree =
      match EditLog.openContent content with
      | (.ok log, kept) => .ok log (tree.put location (.file kept))
      | (.error corruption, kept) =>
        .error (.log path corruption) (tree.put location (.file kept)) := by
  have opened := FileTree.openOrCreate_of_holds ⟨location, located, file⟩
  rw [openLog, Action.bind_get, opened]
  dsimp only
  rcases EditLog.openContent content with ⟨outcome, kept⟩
  have replaced := FileTree.replace_of_located located file kept
  cases outcome with
  | error corruption => exact congrArg (EStateM.Result.error _) replaced
  | ok log => exact congrArg (EStateM.Result.ok log) replaced

/-- A refusal that leaves the content of a file leaves the tree. -/
theorem openLog_of_settled {corruption : LogCorruption} (held : tree.Holds path.text content)
    (refused : EditLog.openContent content = (.error corruption, content)) :
    openLog path tree = .error (.log path corruption) tree := by
  obtain ⟨location, located, file⟩ := held
  rw [openLog_of_located located file, refused]
  dsimp only
  rw [FileTree.put_eq_self (FileTree.ne_root_of_file file) file]

/-- A file that is refused as a log is left as it was, and the tree with it, unless it is refused
for its position and ends inside a slot. Then that slot is filled up with zeros, and nothing else in
the tree has changed. In either case the file is refused again in the same way, and that changes
nothing any more. -/
theorem refused_file_left {failure : StartFailure} (there : tree.Holds path.text content)
    (refused : openLog path tree = .error failure left) :
    ∃ corruption location kept,
      failure = .log path corruption ∧ tree.locate path.text = .ok location ∧
        left = tree.put location (.file kept) ∧ left.Holds path.text kept ∧
        (kept = content ↔
          ∀ position, corruption = .position position → 16 ∣ content.length) ∧
        (kept = content → left = tree) ∧
        (∃ zeros, zeros < 16 ∧ kept = content ++ List.replicate zeros 0) ∧
        openLog path left = .error failure left := by
  obtain ⟨location, located, file⟩ := there
  have below := FileTree.ne_root_of_file file
  rw [openLog_of_located located file] at refused
  rcases opened : EditLog.openContent content with ⟨outcome, kept⟩
  rw [opened] at refused
  cases outcome with
  | ok log => cases refused
  | error corruption =>
    cases refused
    have held : (tree.put location (.file kept)).Holds path.text kept :=
      FileTree.holds_put located below (by rw [file]; simp) kept
    obtain ⟨untouched, filled⟩ := EditLog.left_of_refused opened
    refine ⟨corruption, location, kept, rfl, located, rfl, held, untouched, ?_, filled, ?_⟩
    · rintro rfl
      exact FileTree.put_eq_self below file
    · exact openLog_of_settled held (EditLog.openContent_left opened)

/-- A tree with one file, which is in the working directory. -/
def treeWithLog (content : List UInt8) : FileTree where
  entries := [(["work"], .directory), (["work", "log"], .file content)]
  working := ["work"]
  home := ["work"]

theorem locate_treeWithLog (content : List UInt8) :
    (treeWithLog content).locate (Path.text ⟨"", ["log"]⟩) = .ok ["work", "log"] := by
  have fits : FileTree.Fits ⟨"", ["log"]⟩ := ⟨by decide +kernel, by decide +kernel⟩
  exact (FileTree.locate_text_iff ⟨by decide, by decide⟩).2 ⟨fits, rfl, rfl⟩

/-- A file that begins with another mark is left alone, though it ends inside a slot. -/
theorem refused_file_left_wrongMark :
    openLog ⟨"", ["log"]⟩ (treeWithLog (List.replicate 17 1)) =
      .error (.log ⟨"", ["log"]⟩ .wrongMark) (treeWithLog (List.replicate 17 1)) := by
  have located := locate_treeWithLog (List.replicate 17 1)
  have refused := openLog_of_located located rfl
  obtain ⟨corruption, location, kept, failure, -, -, -, untouched, whole, -⟩ :=
    refused_file_left ⟨_, located, rfl⟩ refused
  cases failure
  have same := whole (untouched.2 fun position impossible => by cases impossible)
  exact refused.trans (congrArg _ same)

/-- A file with a position inside a slot is refused, but not left as it was if it ends inside a slot
itself. -/
theorem refused_file_filled :
    (treeWithLog (logHeader 0x18 ++ [0x99])).Holds (Path.text ⟨"", ["log"]⟩)
        (logHeader 0x18 ++ [0x99]) ∧
      openLog ⟨"", ["log"]⟩ (treeWithLog (logHeader 0x18 ++ [0x99])) =
        .error (.log ⟨"", ["log"]⟩ (.position 0x18))
          (treeWithLog (logHeader 0x18 ++ 0x99 :: List.replicate 15 0)) ∧
      ¬ (treeWithLog (logHeader 0x18 ++ 0x99 :: List.replicate 15 0)).Holds
        (Path.text ⟨"", ["log"]⟩) (logHeader 0x18 ++ [0x99]) := by
  have located := locate_treeWithLog (logHeader 0x18 ++ [0x99])
  refine ⟨⟨_, located, rfl⟩, openLog_of_located located rfl, ?_⟩
  rintro ⟨location, here, file⟩
  cases (locate_treeWithLog _).symm.trans here
  revert file
  decide

end Startup

end HexEditor
