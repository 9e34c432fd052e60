/-
What a table of distinct keys is as a map. Setting a key keeps the keys distinct, a new one
goes to the end, and the order of the entries does not matter for what is looked up. Where
entries are set one after the other, the last one of each key is left.
-/

import HexEditor.Table
import Mathlib.Data.List.Dedup

namespace HexEditor.Table

variable {Key Value : Type} [BEq Key] [LawfulBEq Key] {key : Key} {value : Value}
  {table entries : List (Key × Value)}

theorem mem_of_lookup (found : table.lookup key = some value) : (key, value) ∈ table := by
  obtain ⟨before, behind, rfl, -⟩ := List.lookup_eq_some_iff.1 found
  exact List.mem_append_right before List.mem_cons_self

/-- A key that is set to the value it has leaves the table as it is. -/
theorem set_eq_self (found : table.lookup key = some value) : set key value table = table := by
  induction table with
  | nil => cases found
  | cons entry rest inductionHypothesis =>
    rw [List.lookup_cons] at found
    rw [set]
    by_cases same : entry.1 = key
    · rw [same, beq_self_eq_true] at found
      rw [if_pos (beq_iff_eq.2 same), ← Option.some.inj found]
    · have other : (key == entry.1) = false := beq_eq_false_iff_ne.2 (Ne.symm same)
      rw [other] at found
      rw [if_neg (fun equal => same (beq_iff_eq.1 equal)), inductionHypothesis found]

/-- A new key goes to the end. -/
theorem set_of_notMem (fresh : key ∉ table.map Prod.fst) :
    set key value table = table ++ [(key, value)] := by
  induction table with
  | nil => rfl
  | cons entry rest inductionHypothesis =>
    rw [List.map_cons, List.mem_cons, not_or] at fresh
    have apart : ¬ ((entry.1 == key) = true) := by simpa using Ne.symm fresh.1
    rw [set, if_neg apart, inductionHypothesis fresh.2, List.cons_append]

/-- A key that is there keeps its place. -/
theorem keys_set_of_mem (known : key ∈ table.map Prod.fst) :
    (set key value table).map Prod.fst = table.map Prod.fst := by
  induction table with
  | nil => cases known
  | cons entry rest inductionHypothesis =>
    rw [set]
    split
    · rfl
    · next apart =>
      have later : key ∈ rest.map Prod.fst := by
        rw [List.map_cons, List.mem_cons] at known
        exact known.resolve_left fun same => apart (by simp [same])
      rw [List.map_cons, inductionHypothesis later, List.map_cons]

theorem nodup_keys_set (distinct : (table.map Prod.fst).Nodup) :
    ((set key value table).map Prod.fst).Nodup := by
  by_cases known : key ∈ table.map Prod.fst
  · rwa [keys_set_of_mem known]
  · rw [set_of_notMem known, List.map_append, List.nodup_append]
    refine ⟨distinct, by simp, fun other member last isLast same => known ?_⟩
    rw [List.map_singleton, List.mem_singleton] at isLast
    have sameKey : other = key := same.trans isLast
    rwa [← sameKey]

theorem mem_keys_set {other : Key} :
    other ∈ (set key value table).map Prod.fst ↔ other = key ∨ other ∈ table.map Prod.fst := by
  by_cases known : key ∈ table.map Prod.fst
  · rw [keys_set_of_mem known]
    exact ⟨.inr, fun either => either.elim (fun same => same ▸ known) id⟩
  · rw [set_of_notMem known, List.map_append, List.mem_append, List.map_singleton,
      List.mem_singleton, or_comm]

omit [LawfulBEq Key] in
/-- An entry has the new value or was there. -/
theorem mem_set {entry : Key × Value} (member : entry ∈ set key value table) :
    entry.2 = value ∨ entry ∈ table := by
  induction table with
  | nil =>
    rw [set, List.mem_singleton] at member
    exact .inl (by rw [member])
  | cons first rest inductionHypothesis =>
    rw [set] at member
    split at member
    · rcases List.mem_cons.1 member with same | later
      · exact .inl (by rw [same])
      · exact .inr (List.mem_cons_of_mem _ later)
    · rcases List.mem_cons.1 member with same | later
      · exact .inr (by rw [same]; exact List.mem_cons_self)
      · exact (inductionHypothesis later).imp id (List.mem_cons_of_mem _)

/-! ### Many entries -/

/-- Sets the values of entries one after the other. -/
def setAll (entries table : List (Key × Value)) : List (Key × Value) :=
  entries.foldl (fun table entry => set entry.1 entry.2 table) table

omit [LawfulBEq Key] in
theorem setAll_append (first second : List (Key × Value)) :
    setAll (first ++ second) table = setAll second (setAll first table) :=
  List.foldl_append

/-- The last entry of a key is the one that is left. -/
theorem lookup_setAll (key : Key) :
    (setAll entries table).lookup key = (entries.reverse.lookup key).or (table.lookup key) := by
  induction entries generalizing table with
  | nil => rfl
  | cons entry rest inductionHypothesis =>
    have alone : [entry].lookup key = if key == entry.1 then some entry.2 else none := by
      rw [List.lookup_cons]
      split
      · next same => rw [if_pos same]
      · next apart => rw [if_neg (by simp [apart]), List.lookup_nil]
    rw [List.reverse_cons, List.lookup_append, Option.or_assoc, alone]
    refine inductionHypothesis.trans (congrArg _ ?_)
    rw [lookup_set]
    split <;> rfl

theorem mem_keys_setAll :
    key ∈ (setAll entries table).map Prod.fst ↔
      key ∈ entries.map Prod.fst ∨ key ∈ table.map Prod.fst := by
  induction entries generalizing table with
  | nil => simp [setAll]
  | cons entry rest inductionHypothesis =>
    refine inductionHypothesis.trans ?_
    rw [mem_keys_set, List.map_cons, List.mem_cons, or_left_comm, or_assoc]

theorem nodup_keys_setAll (distinct : (table.map Prod.fst).Nodup) :
    ((setAll entries table).map Prod.fst).Nodup := by
  induction entries generalizing table with
  | nil => exact distinct
  | cons entry rest inductionHypothesis => exact inductionHypothesis (nodup_keys_set distinct)

/-- A table that was empty has an entry for each key that was set. -/
theorem length_setAll [DecidableEq Key] :
    (setAll entries []).length = (entries.map Prod.fst).dedup.length := by
  have distinct : ((setAll entries []).map Prod.fst).Nodup := nodup_keys_setAll .nil
  have perm : ((setAll entries []).map Prod.fst).Perm (entries.map Prod.fst).dedup := by
    refine (List.perm_ext_iff_of_nodup distinct (List.nodup_dedup _)).2 fun key => ?_
    rw [mem_keys_setAll, List.mem_dedup, List.map_nil]
    simp
  rw [← perm.length_eq, List.length_map]

end HexEditor.Table
