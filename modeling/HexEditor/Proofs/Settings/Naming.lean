/-
Names of logs. A new log gets the first number under which no file has a log and nothing lies in
the base directory. The search for it ends: of the numbers that are passed each one is used up by
a log of its own or by an entry of the tree that lies in the base directory under that name, and
the search may pass as many numbers as there are of both.
-/

import HexEditor.Proofs.Number.Numeral
import HexEditor.Proofs.Settings.Reading
import HexEditor.Proofs.Storage.Trees

namespace HexEditor.Settings

variable {settings : Settings} {tree : FileTree} {base : Path}

theorem logName_injective : Function.Injective logName := numbered_injective "undo-"

theorem toList_logName (number : Nat) :
    (logName number).toList = "undo-".toList ++ Radix.ten.plainText number := by
  rw [logName, String.toList_append, toList_decimalText]

theorem isLogName_logName (number : Nat) : IsLogName (logName number) := by
  constructor
  · intro empty
    have shown := toList_logName number
    rw [empty] at shown
    cases shown
  · rw [toList_logName, List.mem_append, not_or]
    refine ⟨by decide, fun slash => ?_⟩
    have digit := isAsciiDigit_of_mem_plainText slash
    cases digit

/-- The name of a log does not begin with a dot. -/
theorem logName_ne {dots : String} (begins : dots.toList.head? = some '.') (number : Nat) :
    logName number ≠ dots := by
  rintro rfl
  rw [toList_logName] at begins
  cases begins

theorem isName_logName (number : Nat) : Path.IsName (logName number) :=
  ⟨(isLogName_logName number).1, logName_ne rfl number, (isLogName_logName number).2⟩

theorem isTaken_iff {name : String} :
    settings.isTaken tree name = true ↔ name ∈ settings.logs.map Prod.snd ∨
      (tree.at? (settings.base.append name).text).isSome = true := by
  rw [isTaken, Bool.or_eq_true, List.contains_iff_mem]

section Counting

variable {numbers : List Nat}

/-- Numbers are no more than the values in a list if each has one of its own. -/
theorem length_le_of_injective {Value : Type} {value : Nat → Value} {values : List Value}
    (injective : Function.Injective value) (distinct : numbers.Nodup)
    (among : ∀ number ∈ numbers, value number ∈ values) : numbers.length ≤ values.length := by
  have images : (numbers.map value) ⊆ values := List.forall_mem_map.2 among
  have few := (distinct.map injective).length_le_of_subset images
  rwa [List.length_map] at few

/-- Names that are present in the base directory are no more than there are entries in the tree. -/
theorem length_le_entries (proper : base.Proper) (distinct : numbers.Nodup)
    (present : ∀ number ∈ numbers, (tree.at? (base.append (logName number)).text).isSome = true) :
    numbers.length ≤ tree.entries.length := by
  have there := fun number member => FileTree.mem_entries_of_at proper (isName_logName number)
    (logName_ne rfl number) (present number member)
  cases located : tree.locate base.text with
  | error failure =>
    have none : numbers = [] := by
      refine List.eq_nil_iff_forall_not_mem.2 fun number member => ?_
      obtain ⟨directory, here, -⟩ := there number member
      rw [located] at here
      cases here
    rw [none]
    exact Nat.zero_le _
  | ok directory =>
    have injective : Function.Injective fun number => directory ++ [logName number] :=
      fun first second same =>
        logName_injective (List.singleton_injective (List.append_cancel_left same))
    have few := length_le_of_injective injective distinct fun number member => by
      obtain ⟨same, here, listed⟩ := there number member
      rw [located] at here
      cases here
      exact listed
    rwa [List.length_map] at few

end Counting

/-- No more of the first names are taken than there are logs and entries of the tree. -/
theorem count_le_of_taken (proper : settings.base.Proper) {count : Nat}
    (taken : ∀ number < count, settings.isTaken tree (logName number) = true) :
    count ≤ settings.logs.length + tree.entries.length := by
  -- A number is used up by a log if one has its name, and otherwise by the tree.
  let listed (number : Nat) : Bool := (settings.logs.map Prod.snd).contains (logName number)
  have distinct : (List.range count).Nodup := List.nodup_range
  have byLogs : ((List.range count).filter listed).length ≤ (settings.logs.map Prod.snd).length :=
    length_le_of_injective logName_injective (distinct.filter _) fun number member =>
      List.contains_iff_mem.1 (List.mem_filter.1 member).2
  have byEntries : ((List.range count).filter fun number => !listed number).length ≤
      tree.entries.length := by
    refine length_le_entries proper (distinct.filter _) fun number member => ?_
    obtain ⟨below, unlisted⟩ := List.mem_filter.1 member
    have notListed : logName number ∉ settings.logs.map Prod.snd := by
      simpa [listed] using unlisted
    exact (isTaken_iff.1 (taken number (List.mem_range.1 below))).resolve_left notListed
  have both := List.length_eq_length_filter_add (l := List.range count) listed
  rw [List.length_range] at both
  rw [List.length_map] at byLogs
  omega

/-- The search passes only names that are taken, and stops at a free one or when it has passed as many
as it may. -/
theorem freeName_spec (settings : Settings) (tree : FileTree) (number attempts : Nat) :
    ∃ free, settings.freeName tree number attempts = logName free ∧ number ≤ free ∧
      (∀ passed, number ≤ passed → passed < free → settings.isTaken tree (logName passed) = true) ∧
      (settings.isTaken tree (logName free) = true → free = number + attempts) := by
  induction attempts generalizing number with
  | zero => exact ⟨number, rfl, Nat.le_refl _, fun passed low high => by omega, fun _ => rfl⟩
  | succ attempts inductionHypothesis =>
    rw [freeName]
    split
    · next taken =>
      obtain ⟨free, chosen, above, passes, ends⟩ := inductionHypothesis (number + 1)
      refine ⟨free, chosen, by omega, fun passed low high => ?_, fun last => ?_⟩
      · rcases Nat.eq_or_lt_of_le low with rfl | later
        · exact taken
        · exact passes passed later high
      · rw [ends last]
        omega
    · next free =>
      exact ⟨number, rfl, Nat.le_refl _, fun passed low high => by omega, fun taken => absurd taken free⟩

/-- The name of a new log is the first one that is not taken. -/
theorem nextLogName_spec (proper : settings.base.Proper) (tree : FileTree) :
    ∃ free, settings.nextLogName tree = logName free ∧
      settings.isTaken tree (logName free) = false ∧
      ∀ passed < free, settings.isTaken tree (logName passed) = true := by
  obtain ⟨free, chosen, -, passes, ends⟩ :=
    settings.freeName_spec tree 0 (settings.logs.length + tree.entries.length)
  refine ⟨free, chosen, Bool.eq_false_of_not_eq_true fun taken => ?_,
    fun passed => passes passed (Nat.zero_le _)⟩
  -- One more name would be taken than can be.
  have last := ends taken
  have all : ∀ number < free + 1, settings.isTaken tree (logName number) = true := by
    intro number below
    rcases Nat.eq_or_lt_of_le (Nat.le_of_lt_succ below) with rfl | earlier
    · exact taken
    · exact passes number (Nat.zero_le _) earlier
  have few := count_le_of_taken proper all
  omega

end HexEditor.Settings
