/-
Paths that are written and read back. The text of a path is its root and its names with
slashes between them. If no name is empty, a single dot or cut by a slash, the text is read
as the same path; a path that was read is always of that form, and stays so when it is
joined to another one.
-/

import HexEditor.Storage.Path
import Mathlib.Data.List.Basic

namespace HexEditor

/-! ### Texts between slashes -/

/-- Slashes split a text as the library splits a list. -/
theorem splitSlashes_eq (part text : List Char) :
    splitSlashes part text = (text.splitOnPPrepend (· == '/') part).map String.ofList := by
  induction text generalizing part with
  | nil => rfl
  | cons character rest inductionHypothesis =>
    by_cases slash : character = '/'
    · subst slash
      rw [splitSlashes, inductionHypothesis]
      rfl
    · rw [splitSlashes, inductionHypothesis, List.splitOnPPrepend_cons_neg (by simpa using slash)]
      exact slash

theorem splitSlashes_ne_nil (part text : List Char) : splitSlashes part text ≠ [] := by
  induction text generalizing part with
  | nil => exact List.cons_ne_nil _ _
  | cons character rest inductionHypothesis =>
    by_cases slash : character = '/'
    · subst slash
      exact List.cons_ne_nil _ _
    · rw [splitSlashes]
      · exact inductionHypothesis _
      · exact slash

/-- No part of a text has a slash in it. -/
theorem slash_notMem_of_mem_splitSlashes {name : String} {part text : List Char}
    (noSlash : '/' ∉ part) (member : name ∈ splitSlashes part text) : '/' ∉ name.toList := by
  induction text generalizing part with
  | nil =>
    rw [splitSlashes, List.mem_singleton] at member
    simpa [member] using noSlash
  | cons character rest inductionHypothesis =>
    by_cases slash : character = '/'
    · subst slash
      rw [splitSlashes, List.mem_cons] at member
      rcases member with first | later
      · simpa [first] using noSlash
      · exact inductionHypothesis List.not_mem_nil later
    · rw [splitSlashes] at member
      · refine inductionHypothesis ?_ member
        simpa [Ne.symm slash] using noSlash
      · exact slash

/-- A part of a text has no other characters than the text. -/
theorem mem_of_mem_splitSlashes {name : String} {part text : List Char} {character : Char}
    (member : name ∈ splitSlashes part text) (inName : character ∈ name.toList) :
    character ∈ part ∨ character ∈ text := by
  induction text generalizing part with
  | nil =>
    rw [splitSlashes, List.mem_singleton] at member
    exact .inl (by simpa [member] using inName)
  | cons first rest inductionHypothesis =>
    by_cases slash : first = '/'
    · subst slash
      rw [splitSlashes, List.mem_cons] at member
      rcases member with here | later
      · exact .inl (by simpa [here] using inName)
      · exact .inr (List.mem_cons_of_mem _ ((inductionHypothesis later).resolve_left
          List.not_mem_nil))
    · rw [splitSlashes] at member
      · rcases inductionHypothesis member with inPart | behind
        · rcases List.mem_cons.1 inPart with rfl | before
          · exact .inr List.mem_cons_self
          · exact .inl before
        · exact .inr (List.mem_cons_of_mem _ behind)
      · exact slash

/-- Names with slashes between them are taken apart again. -/
theorem splitSlashes_intercalate {names : List String} (some : names ≠ [])
    (noSlash : ∀ name ∈ names, '/' ∉ name.toList) :
    splitSlashes [] (String.intercalate "/" names).toList = names := by
  have whole : (names.map String.toList) ≠ [] := by simpa using some
  have parts : ∀ part ∈ names.map String.toList, '/' ∉ part := by simpa using noSlash
  have split := List.splitOn_intercalate '/' parts whole
  rw [splitSlashes_eq, String.toList_intercalate]
  show (List.splitOn '/' (['/'].intercalate _)).map String.ofList = names
  rw [split, List.map_map]
  exact (List.map_congr_left fun name _ => String.ofList_toList).trans (List.map_id names)

/-! ### Proper paths -/

namespace Path

/-- A name that a path can have. -/
def IsName (name : String) : Prop := name ≠ "" ∧ name ≠ "." ∧ '/' ∉ name.toList

instance (name : String) : Decidable (IsName name) := inferInstanceAs (Decidable (_ ∧ _))

/-- A path that a text can stand for. -/
structure Proper (path : Path) : Prop where
  root : path.root = "" ∨ path.root = "/" ∨ path.root = "//"
  names : ∀ name ∈ path.names, IsName name

theorem rootOf_cases (text : List Char) :
    rootOf text = "" ∨ rootOf text = "/" ∨ rootOf text = "//" := by
  unfold rootOf
  split <;> simp

theorem proper_ofString (text : String) : (ofString text).Proper := by
  constructor
  · exact rootOf_cases text.toList
  · intro name member
    obtain ⟨part, named⟩ := List.mem_filter.1 member
    rw [Bool.and_eq_true, bne_iff_ne, bne_iff_ne] at named
    exact ⟨named.1, named.2, slash_notMem_of_mem_splitSlashes List.not_mem_nil part⟩

variable {path directory : Path}

theorem Proper.join (properDirectory : directory.Proper) (proper : path.Proper) :
    (directory.join path).Proper := by
  unfold Path.join
  split
  · exact proper
  · refine ⟨properDirectory.root, fun name member => ?_⟩
    rcases List.mem_append.1 member with above | below
    · exact properDirectory.names name above
    · exact proper.names name below

/-- A name stands for itself as a path. -/
theorem ofString_name {name : String} (isName : IsName name) :
    ofString name = { names := [name] } := by
  obtain ⟨some, noDot, noSlash⟩ := isName
  have split : splitSlashes [] name.toList = [name] := by
    have whole := splitSlashes_intercalate (List.cons_ne_nil name []) (by simpa using noSlash)
    simpa using whole
  have root : rootOf name.toList = "" := by
    unfold rootOf
    split
    all_goals first | rfl | simp_all
  rw [ofString, split, root]
  simp [some, noDot]

theorem append_name {name : String} (isName : IsName name) :
    directory.append name = { directory with names := directory.names ++ [name] } := by
  rw [append, ofString_name isName]
  rfl

/-! ### Texts of paths -/

/-- What stands behind the root does not begin with a slash. -/
theorem head_intercalate_ne {names : List String} (proper : ∀ name ∈ names, IsName name) :
    (String.intercalate "/" names).toList.head? ≠ some '/' := by
  cases names with
  | nil => simp
  | cons name rest =>
    obtain ⟨some, -, noSlash⟩ := proper name List.mem_cons_self
    obtain ⟨behind, begins⟩ : ∃ behind,
        (String.intercalate "/" (name :: rest)).toList = name.toList ++ behind := by
      rw [String.toList_intercalate, List.map_cons]
      cases rest with
      | nil => exact ⟨[], by simp⟩
      | cons next others =>
        exact ⟨_, by rw [List.map_cons, List.intercalate_cons_cons, List.append_assoc]⟩
    cases characters : name.toList with
    | nil => exact absurd (String.toList_eq_nil_iff.1 characters) some
    | cons first others =>
      rw [characters, List.mem_cons, not_or] at noSlash
      rw [begins, characters, List.cons_append, List.head?_cons]
      exact fun same => noSlash.1 (Option.some.inj same).symm

theorem rootOf_append {root : String} (known : root = "" ∨ root = "/" ∨ root = "//")
    {text : List Char} (noSlash : text.head? ≠ some '/') : rootOf (root.toList ++ text) = root := by
  cases text with
  | nil => rcases known with rfl | rfl | rfl <;> rfl
  | cons first rest =>
    rw [List.head?_cons, Ne, Option.some_inj] at noSlash
    rcases known with rfl | rfl | rfl
    · show rootOf (first :: rest) = ""
      rw [rootOf] <;> simp [noSlash]
    · show rootOf ('/' :: first :: rest) = "/"
      rw [rootOf] <;> simp [noSlash]
    · show rootOf ('/' :: '/' :: first :: rest) = "//"
      rw [rootOf]
      simp [noSlash]

/-- A path without a root and names is written as a dot, and any other path by both. -/
theorem text_of_some (some : path.root ≠ "" ∨ path.names ≠ []) :
    path.text = path.root ++ String.intercalate "/" path.names := by
  rw [text, if_neg]
  rw [Bool.and_eq_true, beq_iff_eq, List.isEmpty_iff]
  exact fun nothing => some.elim (absurd nothing.1) (absurd nothing.2)

/-- The text of a path is split into its names and parts that say nothing in front of them. -/
theorem Proper.splitSlashes_text (proper : path.Proper) :
    ∃ blanks : List String, (∀ blank ∈ blanks, blank = "" ∨ blank = ".") ∧
      splitSlashes [] path.text.toList = blanks ++ path.names := by
  obtain ⟨root, names⟩ := path
  obtain ⟨known, isNames⟩ := proper
  by_cases nothing : root = "" ∧ names = []
  · obtain ⟨rfl, rfl⟩ := nothing
    exact ⟨["."], by simp, rfl⟩
  · rw [not_and_or] at nothing
    rw [text_of_some nothing, String.toList_append]
    obtain ⟨blanks, blank, body⟩ : ∃ blanks : List String,
        (∀ blank ∈ blanks, blank = "" ∨ blank = ".") ∧
          splitSlashes [] (String.intercalate "/" names).toList = blanks ++ names := by
      by_cases none : names = []
      · subst none
        exact ⟨[""], by simp, rfl⟩
      · exact ⟨[], by simp, splitSlashes_intercalate none fun name member => (isNames name member).2.2⟩
    rcases known with same | same | same <;> dsimp only at same ⊢ <;> subst same
    · exact ⟨blanks, blank, body⟩
    · have slash : splitSlashes [] ("/".toList ++ (String.intercalate "/" names).toList) =
          "" :: splitSlashes [] (String.intercalate "/" names).toList := rfl
      exact ⟨"" :: blanks, by simpa using blank, by rw [slash, body, List.cons_append]⟩
    · have slashes : splitSlashes [] ("//".toList ++ (String.intercalate "/" names).toList) =
          "" :: "" :: splitSlashes [] (String.intercalate "/" names).toList := rfl
      exact ⟨"" :: "" :: blanks, by simpa using blank,
        by rw [slashes, body, List.cons_append, List.cons_append]⟩

/-- The text of a path begins with its root. -/
theorem Proper.rootOf_text (proper : path.Proper) : rootOf path.text.toList = path.root := by
  by_cases nothing : path.root = "" ∧ path.names = []
  · rw [text, nothing.1, nothing.2]
    rfl
  · rw [not_and_or] at nothing
    rw [text_of_some nothing, String.toList_append]
    exact rootOf_append proper.root (head_intercalate_ne proper.names)

theorem rootOf_eq_empty_iff (text : List Char) : rootOf text = "" ↔ text.head? ≠ some '/' := by
  constructor
  · intro none begins
    cases text with
    | nil => cases begins
    | cons first rest =>
      cases begins
      unfold rootOf at none
      split at none <;> simp_all
  · exact fun noSlash => rootOf_append (.inl rfl) noSlash

/-- The text of an absolute path begins with a slash, and no other does. -/
theorem Proper.head_text_iff (proper : path.Proper) :
    path.text.toList.head? = some '/' ↔ path.isAbsolute = true := by
  rw [isAbsolute, bne_iff_ne, Ne, ← proper.rootOf_text, rootOf_eq_empty_iff, not_not]

/-- One more name is put behind the text of a path, unless that is only a dot. -/
theorem text_add_name (path : Path) (name : String) :
    path.text = "." ∨ ∃ behind : String,
      ({ path with names := path.names ++ [name] } : Path).text = path.text ++ behind := by
  by_cases nothing : path.root = "" ∧ path.names = []
  · exact .inl (by rw [text, nothing.1, nothing.2]; rfl)
  · rw [not_and_or] at nothing
    have longer : ({ path with names := path.names ++ [name] } : Path).text =
        path.root ++ String.intercalate "/" (path.names ++ [name]) :=
      text_of_some (.inr (by simp))
    rw [longer, text_of_some nothing]
    by_cases none : path.names = []
    · exact .inr ⟨name, by rw [none]; simp⟩
    · exact .inr ⟨"/" ++ name, by
        rw [String.intercalate_append_of_ne_nil none (List.cons_ne_nil name []),
          String.intercalate_singleton, String.append_assoc, String.append_assoc]⟩

/-- A path is read back from its text. -/
theorem Proper.ofString_text (proper : path.Proper) : ofString path.text = path := by
  obtain ⟨blanks, blank, split⟩ := proper.splitSlashes_text
  have dropped : blanks.filter (fun name => name != "" && name != ".") = [] := by
    rw [List.filter_eq_nil_iff]
    intro name member
    rcases blank name member with rfl | rfl <;> simp
  have kept : path.names.filter (fun name => name != "" && name != ".") = path.names := by
    rw [List.filter_eq_self]
    intro name member
    have named := proper.names name member
    simp [named.1, named.2.1]
  rw [ofString, proper.rootOf_text, split, List.filter_append, dropped, kept, List.nil_append]

/-- The names of a path are spelled in its text. -/
theorem Proper.mem_text {name : String} {character : Char} (proper : path.Proper)
    (member : name ∈ path.names) (inName : character ∈ name.toList) :
    character ∈ path.text.toList := by
  rw [← proper.ofString_text] at member
  exact (mem_of_mem_splitSlashes (List.mem_of_mem_filter member) inName).resolve_left
    List.not_mem_nil

/-! ### Stems -/

theorem splitName_ne_nil {name : List Char} (some : name ≠ []) : (splitName name).1 ≠ [] := by
  unfold splitName
  extract_lets ending start
  split
  · exact some
  · next cut =>
    rw [Bool.or_eq_true, not_or, List.isEmpty_iff] at cut
    exact cut.2

/-- A path with names has a stem. -/
theorem Proper.stem_ne_empty (proper : path.Proper) (some : path.names ≠ []) : path.stem ≠ "" := by
  have last : path.name = path.names.getLast some := by
    rw [name, List.getLast?_eq_some_getLast some, Option.getD_some]
  have isName := proper.names _ (List.getLast_mem some)
  have characters : path.name.toList ≠ [] := by
    rw [last, Ne, String.toList_eq_nil_iff]
    exact isName.1
  rw [stem, Ne, String.ofList_eq_empty_iff]
  exact splitName_ne_nil characters

end Path

end HexEditor
