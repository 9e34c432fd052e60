/-
Documents that are written for people and read back. A value is readable if the reader,
given a call for every character of it, hands it back together with what stands behind it.
Strings are readable, and so are arrays and objects of readable values, one level deeper, if
an object has no two members of one name. The blanks at the start of a line are passed over,
and no value begins with a blank or with the end of an array.
-/

import HexEditor.Proofs.Json.Strings
import HexEditor.Proofs.Table

namespace HexEditor.Json

/-! ### Blanks -/

theorem skipSpace_lineStart (level : Nat) (text : List Char) :
    skipSpace (lineStart level ++ text) = skipSpace text := by
  have blanks : ∀ character ∈ lineStart level, isSpace character = true := by
    intro character member
    rw [lineStart, List.mem_cons] at member
    rcases member with rfl | member
    · rfl
    · rw [List.eq_of_mem_replicate member]
      rfl
  exact List.dropWhile_append_of_pos blanks

theorem skipSpace_of_mark {first : Char} (mark : isSpace first = false) (rest : List Char) :
    skipSpace (first :: rest) = first :: rest :=
  List.dropWhile_cons_of_neg (by simp [mark])

/-! ### Values that are read back -/

/-- A value that is read back as it was written, if others can be nested in it as deep as
`depth`. -/
structure Readable (depth : Nat) (value : Json) : Prop where
  opens : ∀ level, ∃ first rest, indented level value = first :: rest ∧
    isSpace first = false ∧ first ≠ ']'
  reads : ∀ level fuel rest, (indented level value).length ≤ fuel →
    readValue depth fuel (indented level value ++ rest) = .ok (value, rest)

variable {depth : Nat} {value : Json}

theorem Readable.skipSpace (readable : Readable depth value) (level : Nat) (rest : List Char) :
    Json.skipSpace (indented level value ++ rest) = indented level value ++ rest := by
  obtain ⟨first, others, begins, mark, _⟩ := readable.opens level
  rw [begins, List.cons_append, skipSpace_of_mark mark]

theorem readable_string (depth : Nat) (value : String) : Readable depth (.string value) := by
  constructor
  · intro level
    exact ⟨'"', _, rfl, rfl, by decide⟩
  · intro level fuel rest enough
    have begins : indented level (.string value) ++ rest =
        '"' :: (value.toList.flatMap writtenChar ++ '"' :: rest) := by
      show '"' :: (_ ++ ['"']) ++ rest = _
      rw [List.cons_append, List.append_assoc, List.singleton_append]
    cases fuel with
    | zero => exact absurd enough (by simp [indented, writtenScalar, writtenString])
    | succ fuel =>
      rw [begins, readValue, stringAt_written]

/-! ### Arrays -/

theorem indentedItems_cons (level : Nat) (item next : Json) (others : List Json) :
    indentedItems level (item :: next :: others) =
      lineStart level ++ indented level item ++ ',' :: indentedItems level (next :: others) := rfl

/-- The items of an array are read up to its end, one with each call. -/
theorem readItems_indented {items : List Json} (readable : ∀ item ∈ items, Readable depth item)
    (some : items ≠ []) (level outer : Nat) (rest : List Char) :
    ∀ (fuel : Nat) (read : List Json), (indentedItems level items).length < fuel →
      readItems depth fuel read
          (skipSpace (indentedItems level items ++ (lineStart outer ++ ']' :: rest))) =
        .ok (.array (read.reverse ++ items), rest) := by
  induction items with
  | nil => exact absurd rfl some
  | cons item others inductionHypothesis =>
    intro fuel read enough
    obtain ⟨fuel, rfl⟩ : ∃ less, fuel = less + 1 := ⟨fuel - 1, by omega⟩
    have first := readable item List.mem_cons_self
    have readableOthers := fun other member => readable other (List.mem_cons_of_mem item member)
    cases others with
    | nil =>
      have line : indentedItems level [item] = lineStart level ++ indented level item := rfl
      rw [line, List.length_append] at enough
      rw [line, List.append_assoc, skipSpace_lineStart, first.skipSpace, readItems,
        first.reads level fuel _ (by omega)]
      dsimp only
      rw [skipSpace_lineStart, skipSpace_of_mark rfl, List.reverse_cons]
      rfl
    | cons next others =>
      rw [indentedItems_cons, List.length_append, List.length_append, List.length_cons] at enough
      rw [indentedItems_cons, List.append_assoc, List.append_assoc, skipSpace_lineStart,
        first.skipSpace, readItems, first.reads level fuel _ (by omega)]
      dsimp only
      rw [List.cons_append, skipSpace_of_mark rfl]
      show readItems depth fuel (item :: read) _ = _
      rw [inductionHypothesis readableOthers (List.cons_ne_nil _ _) fuel (item :: read) (by omega),
        List.reverse_cons, List.append_assoc, List.singleton_append]

/-- The first item of an array does not look like its end. -/
theorem skipSpace_indentedItems {item : Json} (first : Readable depth item) (others : List Json)
    (level : Nat) (rest : List Char) :
    ∃ mark behind, skipSpace (indentedItems level (item :: others) ++ rest) = mark :: behind ∧
      mark ≠ ']' := by
  have line : ∃ behind, indentedItems level (item :: others) =
      lineStart level ++ (indented level item ++ behind) := by
    cases others with
    | nil => exact ⟨[], by rw [List.append_nil]; rfl⟩
    | cons next others => exact ⟨_, by rw [indentedItems_cons, List.append_assoc]⟩
  obtain ⟨behind, line⟩ := line
  obtain ⟨mark, _, begins, _, apart⟩ := first.opens level
  rw [line, List.append_assoc, List.append_assoc, skipSpace_lineStart, first.skipSpace, begins]
  exact ⟨mark, _, rfl, apart⟩

theorem readable_array {items : List Json} (readable : ∀ item ∈ items, Readable depth item) :
    Readable (depth + 1) (.array items) := by
  cases items with
  | nil =>
    constructor
    · intro level
      exact ⟨'[', _, rfl, rfl, by decide⟩
    · intro level fuel rest enough
      cases fuel with
      | zero => exact absurd enough (by simp [indented])
      | succ fuel => rfl
  | cons item others =>
    constructor
    · intro level
      exact ⟨'[', _, rfl, rfl, by decide⟩
    · intro level fuel rest enough
      have whole : indented level (.array (item :: others)) ++ rest =
          '[' :: (indentedItems (level + 1) (item :: others) ++ (lineStart level ++ ']' :: rest)) := by
        show '[' :: (_ ++ lineStart level ++ [']']) ++ rest = _
        rw [List.cons_append, List.append_assoc, List.append_assoc, List.singleton_append]
      have length : (indentedItems (level + 1) (item :: others)).length + 2 ≤ fuel := by
        rw [indented] at enough
        · simp only [List.length_cons, List.length_append, lineStart] at enough
          omega
        · exact List.cons_ne_nil _ _
      obtain ⟨fuel, rfl⟩ : ∃ less, fuel = less + 1 := ⟨fuel - 1, by omega⟩
      have items := readItems_indented readable (List.cons_ne_nil _ _) (level + 1) level rest fuel []
        (by omega)
      obtain ⟨mark, behind, begins, apart⟩ := skipSpace_indentedItems
        (readable item List.mem_cons_self) others (level + 1) (lineStart level ++ ']' :: rest)
      rw [begins] at items
      rw [whole, readValue, begins, if_neg (Nat.succ_ne_zero depth)]
      split
      · next same =>
        cases same
        exact absurd rfl apart
      · exact items

/-! ### Objects -/

/-- A member as it stands in its line. -/
def writtenMember (level : Nat) (member : String × Json) : List Char :=
  writtenString member.1 ++ ':' :: ' ' :: indented level member.2

theorem indentedMembers_singleton (level : Nat) (member : String × Json) :
    indentedMembers level [member] = lineStart level ++ writtenMember level member := by
  show lineStart level ++ writtenString member.1 ++ _ = _
  rw [writtenMember, List.append_assoc]

theorem indentedMembers_cons (level : Nat) (member next : String × Json)
    (others : List (String × Json)) :
    indentedMembers level (member :: next :: others) = lineStart level ++
      (writtenMember level member ++ ',' :: indentedMembers level (next :: others)) := by
  show lineStart level ++ writtenString member.1 ++ ':' :: ' ' :: indented level member.2 ++ _ = _
  rw [writtenMember, List.append_assoc, List.append_assoc, List.append_assoc]

theorem writtenMember_eq (level : Nat) (name : String) (value : Json) (rest : List Char) :
    writtenMember level (name, value) ++ rest = '"' :: (name.toList.flatMap writtenChar ++
      '"' :: ':' :: ' ' :: (indented level value ++ rest)) := by
  show '"' :: (_ ++ ['"']) ++ _ ++ rest = _
  simp only [List.cons_append, List.append_assoc, List.nil_append]

theorem skipSpace_writtenMember (level : Nat) (member : String × Json) (rest : List Char) :
    skipSpace (writtenMember level member ++ rest) = writtenMember level member ++ rest := by
  rw [writtenMember_eq, skipSpace_of_mark rfl]

/-- A member is read with one call, and what stands behind it tells whether it is the last one. -/
theorem readMembers_writtenMember (name : String) (readable : Readable depth value)
    {level fuel : Nat} (enough : (indented level value).length ≤ fuel) (read : List (String × Json))
    (behind : List Char) :
    (∀ rest, skipSpace behind = '}' :: rest →
      readMembers depth (fuel + 1) read (writtenMember level (name, value) ++ behind) =
        .ok (.object (Table.set name value read), rest)) ∧
    (∀ rest, skipSpace behind = ',' :: rest →
      readMembers depth (fuel + 1) read (writtenMember level (name, value) ++ behind) =
        readMembers depth fuel (Table.set name value read) (skipSpace rest)) := by
  have blank (text : List Char) : skipSpace (' ' :: text) = skipSpace text := rfl
  rw [writtenMember_eq, readMembers, stringAt_written]
  dsimp only
  rw [skipSpace_of_mark rfl]
  simp only [blank, readable.skipSpace, readable.reads level fuel behind enough]
  constructor
  · intro rest last
    rw [last]
    rfl
  · intro rest more
    rw [more]
    rfl

/-- The members of an object are read up to its end, one with each call. -/
theorem readMembers_indented {members : List (String × Json)}
    (readable : ∀ member ∈ members, Readable depth member.2) (some : members ≠ [])
    (level outer : Nat) (rest : List Char) :
    ∀ (fuel : Nat) (read : List (String × Json)), ((read ++ members).map Prod.fst).Nodup →
      (indentedMembers level members).length < fuel →
      readMembers depth fuel read
          (skipSpace (indentedMembers level members ++ (lineStart outer ++ '}' :: rest))) =
        .ok (.object (read ++ members), rest) := by
  induction members with
  | nil => exact absurd rfl some
  | cons member others inductionHypothesis =>
    intro fuel read distinct enough
    obtain ⟨fuel, rfl⟩ : ∃ less, fuel = less + 1 := ⟨fuel - 1, by omega⟩
    obtain ⟨name, value⟩ := member
    have first : Readable depth value := readable (name, value) List.mem_cons_self
    have readableOthers := fun other member =>
      readable other (List.mem_cons_of_mem (name, value) member)
    have fresh : name ∉ read.map Prod.fst := by
      rw [List.map_append, List.nodup_append] at distinct
      exact fun member => distinct.2.2 name member name (by simp) rfl
    cases others with
    | nil =>
      rw [indentedMembers_singleton, writtenMember] at enough
      simp only [List.length_append, List.length_cons] at enough
      have short : (indented level value).length ≤ fuel := by omega
      have last := (readMembers_writtenMember name first short read
        (lineStart outer ++ '}' :: rest)).1 rest (by rw [skipSpace_lineStart, skipSpace_of_mark rfl])
      rw [indentedMembers_singleton, List.append_assoc, skipSpace_lineStart,
        skipSpace_writtenMember, last, Table.set_of_notMem fresh]
    | cons next others =>
      rw [indentedMembers_cons, writtenMember] at enough
      simp only [List.length_append, List.length_cons] at enough
      rw [← List.singleton_append, ← List.append_assoc] at distinct
      have short : (indented level value).length ≤ fuel := by omega
      have more := (readMembers_writtenMember name first short read
        (',' :: (indentedMembers level (next :: others) ++ (lineStart outer ++ '}' :: rest)))).2 _
        (skipSpace_of_mark rfl _)
      rw [indentedMembers_cons, List.append_assoc, List.append_assoc, skipSpace_lineStart,
        skipSpace_writtenMember, List.cons_append, more,
        Table.set_of_notMem fresh,
        inductionHypothesis readableOthers (List.cons_ne_nil _ _) fuel _ distinct (by omega),
        List.append_assoc, List.singleton_append]

theorem readable_object {members : List (String × Json)}
    (distinct : (members.map Prod.fst).Nodup)
    (readable : ∀ member ∈ members, Readable depth member.2) :
    Readable (depth + 1) (.object members) := by
  cases members with
  | nil =>
    constructor
    · intro level
      exact ⟨'{', _, rfl, rfl, by decide⟩
    · intro level fuel rest enough
      cases fuel with
      | zero => exact absurd enough (by simp [indented])
      | succ fuel => rfl
  | cons member others =>
    constructor
    · intro level
      exact ⟨'{', _, rfl, rfl, by decide⟩
    · intro level fuel rest enough
      have whole : indented level (.object (member :: others)) ++ rest = '{' ::
          (indentedMembers (level + 1) (member :: others) ++ (lineStart level ++ '}' :: rest)) := by
        show '{' :: (_ ++ lineStart level ++ ['}']) ++ rest = _
        rw [List.cons_append, List.append_assoc, List.append_assoc, List.singleton_append]
      have length : (indentedMembers (level + 1) (member :: others)).length + 2 ≤ fuel := by
        rw [indented] at enough
        · simp only [List.length_cons, List.length_append, lineStart] at enough
          omega
        · exact List.cons_ne_nil _ _
      obtain ⟨fuel, rfl⟩ : ∃ less, fuel = less + 1 := ⟨fuel - 1, by omega⟩
      have members := readMembers_indented readable (List.cons_ne_nil _ _) (level + 1) level rest
        fuel [] distinct (by omega)
      obtain ⟨behind, begins⟩ : ∃ behind, skipSpace (indentedMembers (level + 1) (member :: others) ++
          (lineStart level ++ '}' :: rest)) = '"' :: behind := by
        cases others with
        | nil =>
          rw [indentedMembers_singleton, List.append_assoc, skipSpace_lineStart,
            skipSpace_writtenMember]
          exact ⟨_, writtenMember_eq _ _ _ _⟩
        | cons next others =>
          rw [indentedMembers_cons, List.append_assoc, List.append_assoc, skipSpace_lineStart,
            skipSpace_writtenMember]
          exact ⟨_, writtenMember_eq _ _ _ _⟩
      rw [begins] at members
      rw [whole, readValue, begins, if_neg (Nat.succ_ne_zero depth)]
      exact members

/-- A document is read as the value that it was written for. -/
theorem read_indented {value : Json} (readable : Readable nestingLimit value) :
    read (indented 0 value ++ ['\n']) = .ok value := by
  rw [read, readable.skipSpace, readable.reads]
  · rfl
  · rw [List.length_append]
    omega

end HexEditor.Json
