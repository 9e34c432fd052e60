/-
This file proves that no object in a value that was read names a member twice. The reader
keeps the members of an object in a table, where a name that comes again takes the place of
the one before. The induction is on the calls that are left, over a value, the items of an
array and the members of an object at once; what was read before is assumed to be distinct.
-/

import HexEditor.Json.Reader
import HexEditor.Proofs.Table

namespace HexEditor.Json

/-- A value in which no object, however deep inside, names a member twice. -/
inductive Distinct : Json → Prop where
  | null : Distinct .null
  | bool (value : Bool) : Distinct (.bool value)
  | integer (value : Int) : Distinct (.integer value)
  | fraction (value : Float) : Distinct (.fraction value)
  | string (value : String) : Distinct (.string value)
  | array {items : List Json} : (∀ item ∈ items, Distinct item) → Distinct (.array items)
  | object {members : List (String × Json)} : (members.map Prod.fst).Nodup →
      (∀ member ∈ members, Distinct member.2) → Distinct (.object members)

variable {value : Json} {text rest : List Char}

/-! ### Scalars -/

theorem distinct_numberAt {negative : Bool} (read : numberAt negative text = .ok (value, rest)) :
    Distinct value := by
  unfold numberAt at read
  extract_lets whole at read
  split at read
  · cases read
  · dsimp only at read
    split at read
    · split at read
      · cases read
      · cases read
        exact .integer _
    · cases read
      exact .fraction _

theorem distinct_scalarAt (read : scalarAt text = .ok (value, rest)) : Distinct value := by
  unfold scalarAt at read
  split at read
  · next found known =>
    cases read
    obtain ⟨entry, member, word⟩ := List.exists_of_findSome?_eq_some known
    obtain ⟨behind, -, same⟩ := Option.map_eq_some_iff.1 word
    cases same
    have all : ∀ entry ∈ words, Distinct entry.2 := by
      intro entry member
      simp only [words, List.mem_cons, List.not_mem_nil, or_false] at member
      rcases member with rfl | rfl | rfl | rfl | rfl | rfl <;> constructor
    exact all entry member
  · split at read
    · exact distinct_numberAt read
    · exact distinct_numberAt read

/-! ### Members -/

theorem Distinct.member {name : String} (distinct : Distinct value) {found : Json}
    (known : value.member? name = some found) : Distinct found := by
  unfold member? at known
  split at known
  · cases distinct with
    | object _ values => exact values (name, found) (Table.mem_of_lookup known)
  · cases known

/-! ### Values -/

/-- With some number of calls left, everything that is read is distinct. -/
structure ReadsDistinct (fuel : Nat) : Prop where
  value : ∀ {depth : Nat} {text rest : List Char} {value : Json},
    readValue depth fuel text = .ok (value, rest) → Distinct value
  items : ∀ {depth : Nat} {text rest : List Char} {value : Json} {read : List Json},
    (∀ item ∈ read, Distinct item) → readItems depth fuel read text = .ok (value, rest) →
      Distinct value
  members : ∀ {depth : Nat} {text rest : List Char} {value : Json} {read : List (String × Json)},
    Distinct (.object read) → readMembers depth fuel read text = .ok (value, rest) → Distinct value

/-- A member that is set leaves the members distinct. -/
theorem Distinct.set {members : List (String × Json)} (distinct : Distinct (.object members))
    {name : String} {value : Json} (new : Distinct value) :
    Distinct (.object (Table.set name value members)) := by
  cases distinct with
  | object names values =>
    refine .object (Table.nodup_keys_set names) fun member found => ?_
    rcases Table.mem_set found with same | old
    · rw [same]
      exact new
    · exact values member old

theorem distinct_empty : Distinct (.object []) := .object List.nodup_nil fun _ member => by cases member

variable {depth fuel : Nat}

theorem distinct_readValue (reads : ReadsDistinct fuel)
    (read : readValue depth (fuel + 1) text = .ok (value, rest)) : Distinct value := by
  unfold readValue at read
  split at read
  · split at read
    · cases read
      exact .string _
    · cases read
  · split at read
    · cases read
    · split at read
      · cases read
        exact .array fun _ member => by cases member
      · exact reads.items (fun _ member => by cases member) read
  · split at read
    · cases read
    · split at read
      · cases read
        exact distinct_empty
      · exact reads.members distinct_empty read
  · exact distinct_scalarAt read

theorem distinct_readItems (reads : ReadsDistinct fuel) {items : List Json}
    (distinct : ∀ item ∈ items, Distinct item)
    (read : readItems depth (fuel + 1) items text = .ok (value, rest)) : Distinct value := by
  unfold readItems at read
  split at read
  · cases read
  · next item behind first =>
    have all : ∀ other ∈ item :: items, Distinct other := by
      intro other member
      rcases List.mem_cons.1 member with rfl | before
      · exact reads.value first
      · exact distinct other before
    split at read
    · cases read
      exact .array fun other member => all other (List.mem_reverse.1 member)
    · exact reads.items all read
    · cases read

theorem distinct_readMembers (reads : ReadsDistinct fuel) {members : List (String × Json)}
    (distinct : Distinct (.object members))
    (read : readMembers depth (fuel + 1) members text = .ok (value, rest)) : Distinct value := by
  unfold readMembers at read
  split at read
  · split at read
    · cases read
    · split at read
      · split at read
        · cases read
        · next member behind first =>
          have new := reads.value first
          dsimp only at read
          split at read
          · cases read
            exact distinct.set new
          · exact reads.members (distinct.set new) read
          · cases read
      · cases read
  · cases read

theorem readsDistinct (fuel : Nat) : ReadsDistinct fuel := by
  induction fuel with
  | zero =>
    exact ⟨fun read => (by cases read), fun _ read => (by cases read),
      fun _ read => (by cases read)⟩
  | succ fuel inductionHypothesis =>
    exact ⟨distinct_readValue inductionHypothesis, distinct_readItems inductionHypothesis,
      distinct_readMembers inductionHypothesis⟩

/-- No object in a document names a member twice. -/
theorem distinct_read {document : List Char} (found : read document = .ok value) :
    Distinct value := by
  rw [read] at found
  split at found
  · cases found
  · next result behind whole =>
    split at found
    · cases found
      exact (readsDistinct _).value whole
    · cases found

end HexEditor.Json
