/-
Ordered tables: lists of keys with values, in which every key is looked up at its
first place. Setting a key that is there keeps its place, and a new key goes to the
end, so that a table shows its keys in the order in which they first came.
-/

namespace HexEditor.Table

variable {Key Value : Type} [BEq Key]

def set (key : Key) (value : Value) : List (Key × Value) → List (Key × Value)
  | [] => [(key, value)]
  | (other, old) :: rest =>
    if other == key then (other, value) :: rest else (other, old) :: set key value rest

/-- A key that was set has its new value, and all other keys keep theirs. -/
theorem lookup_set [LawfulBEq Key] (key other : Key) (value : Value)
    (table : List (Key × Value)) :
    (set key value table).lookup other =
      if other == key then some value else table.lookup other := by
  induction table with
  | nil => simp [set, List.lookup_cons]; split <;> simp_all
  | cons entry rest inductionHypothesis =>
    obtain ⟨first, old⟩ := entry
    by_cases same : first = key
    · subst same
      by_cases equal : (other == first) = true <;> simp [set, List.lookup_cons, equal]
    · by_cases equal : other = first
      · subst equal
        simp [set, same]
      · have apart : (other == first) = false := by simpa using equal
        simp [set, List.lookup_cons, same, apart, inductionHypothesis]

end HexEditor.Table
