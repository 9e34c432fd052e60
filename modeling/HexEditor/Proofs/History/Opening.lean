/-
Which files open as logs, and as what. Opening looks at the mark, the version and the
position in the header, and the position may point at the last slot even where the file
ends inside it, because that slot is filled up with zeros. The main statement tells the
files that open from all others and says what becomes of those that do: nothing is taken
from a file or changed in it, and the log is the one that its file opens as once more.
-/

import HexEditor.Proofs.History.Lag

namespace HexEditor.EditLog

variable {content left : List UInt8} {log : EditLog}

/-- Some content is that of a log: there is none, or it begins with a header of the only version,
and the position in it is that of a slot when the last one is filled up, or lies behind the last
one. -/
def IsLog (content : List UInt8) : Prop :=
  content = [] ∨
    16 ≤ content.length ∧ content.take 4 = logMark ∧ content[4]? = some 0 ∧
      16 ∣ headerPosition content ∧ 16 ≤ headerPosition content ∧
      headerPosition content ≤ slotsUp content.length

/-- There is nothing wrong with a header that is whole and has the mark and the version. -/
theorem headerFault?_eq_none_iff :
    headerFault? content = none ↔
      16 ≤ content.length ∧ content.take 4 = logMark ∧ content[4]? = some 0 := by
  unfold headerFault?
  split
  · next short => exact iff_of_false nofun fun whole => Nat.not_le.2 short whole.1
  split
  · next other => exact iff_of_false nofun fun whole => other whole.2.1
  · next long same =>
    have inside : 4 < content.length := by omega
    have version : content[4]? = some (content.getD 4 0) := by
      rw [List.getD_eq_getElem?_getD, List.getElem?_eq_getElem inside, Option.getD_some]
    have zero : (content.getD 4 0).toNat = 0 ↔ content[4]? = some 0 := by
      rw [version, Option.some_inj, ← UInt8.toNat_inj]
      rfl
    dsimp only
    split
    · next other => exact iff_of_false nofun fun whole => other (zero.2 whole.2.2)
    · next only =>
      exact iff_of_true rfl ⟨Nat.not_lt.1 long, not_not.1 same, zero.1 (not_not.1 only)⟩

theorem opens_iff : Opens content ↔ IsLog content := by
  constructor
  · rintro ⟨log, left, opened⟩
    rcases openContent_eq_ok opened with ⟨none, -⟩ | ⟨header, rfl, -, aligned, first, inside⟩
    · exact .inl none
    · obtain ⟨long, mark, version⟩ := headerFault?_eq_none_iff.1 header
      exact .inr ⟨long, mark, version, Nat.dvd_of_mod_eq_zero aligned, first, inside⟩
  · rintro (rfl | ⟨long, mark, version, slot, first, inside⟩)
    · exact ⟨_, _, rfl⟩
    · exact ⟨_, _, openContent_of_header (headerFault?_eq_none_iff.2 ⟨long, mark, version⟩) rfl
        (Nat.mod_eq_zero_of_dvd slot) first inside⟩

/-- Filling up the last slot adds zeros, and fewer than a slot has. -/
theorem exists_zeros_of_fill (content : List UInt8) :
    ∃ zeros, zeros < 16 ∧ 16 ∣ content.length + zeros ∧
      cutTo (slotsUp content.length) content = content ++ List.replicate zeros 0 := by
  obtain ⟨above, below, slots⟩ := slotsUp_bounds content.length
  refine ⟨slotsUp content.length - content.length, by omega, by omega, ?_⟩
  rw [cutTo, List.take_of_length_le above]

/-- The files that open are those of a log. An empty one is left with a header, and any other one
with zeros behind it up to the next slot; the log is at the position in the header, ends where the
file does, and is the one that the file opens as once more, with records that can be read. A file
that does not open is not that of a log. -/
theorem openContent_means (content : List UInt8) :
    match openContent content with
    | (.ok log, left) =>
      IsLog content ∧
        (if content = [] then
          left = [0x75, 0x6E, 0x64, 0x6F, 0, 0, 0, 0, 16, 0, 0, 0, 0, 0, 0, 0] ∧ log.position = 16
        else
          (∃ zeros, zeros < 16 ∧ 16 ∣ content.length + zeros ∧
            left = content ++ List.replicate zeros 0) ∧ log.position = headerPosition content) ∧
        log.file.content = left ∧ log.stop = left.length ∧ openContent left = (.ok log, left) ∧
        ∃ records, log.records = .ok records
    | (.error _, _) => ¬ IsLog content := by
  rw [← opens_iff]
  rcases opened : openContent content with ⟨outcome, left⟩
  cases outcome with
  | error corruption =>
    rintro ⟨log, other, same⟩
    rw [opened] at same
    cases same
  | ok log =>
    obtain ⟨same, settled, history, holds⟩ := holds_of_open opened
    have again := holds.openContent_eq settled
    have shown := holds.shows_history
    rw [← same, reopened_of_open opened] at again
    refine ⟨⟨log, left, opened⟩, ?_, same.symm, ?_, again, _, shown.records⟩
    · rcases openContent_eq_ok opened with ⟨none, rfl, rfl⟩ | ⟨header, rfl, whole, -⟩
      · rw [if_pos none]
        exact ⟨rfl, rfl⟩
      · have some : content ≠ [] := by
          rintro rfl
          cases header
        rw [if_neg some, whole]
        exact ⟨exists_zeros_of_fill content, rfl⟩
    · rw [same]
      exact shown.size.symm

end HexEditor.EditLog
