/-
Files that are written and read back. A tree holds a file at a path if the path leads to
the location of a file with that content. What was written is held, and writing to a file
that is held replaces its content: all that a path passes through is a directory, a file is
put where there is none, and so the path leads where it led before. The directory of a file
that is held is there, so that it need not be made.
-/

import HexEditor.Proofs.Outcome
import HexEditor.Proofs.Storage.Paths
import HexEditor.Proofs.Table
import HexEditor.Storage.FileTree

namespace HexEditor.FileTree

variable {tree : FileTree} {location goal : Location}

/-! ### Following names -/

theorem entryAt_put (tree : FileTree) (location other : Location) (entry : FileEntry) :
    entry? (tree.put location entry) other =
      if other = [] then some .directory
      else if other = location then some entry else tree.entry? other := by
  unfold entry?
  rw [put, Table.lookup_set]
  cases other with
  | nil => rfl
  | cons name rest => simp

/-- Names are followed from a directory only. -/
theorem directory_of_follow {names : List String} (some : names ≠ [])
    (followed : tree.follow location names = .ok goal) :
    tree.entry? location = .some .directory := by
  cases names with
  | nil => exact absurd rfl some
  | cons name rest =>
    rw [follow] at followed
    split at followed
    · cases followed
    · cases followed
    · assumption

theorem follow_append {first second : List String} :
    tree.follow location (first ++ second) = .ok goal ↔
      ∃ middle, tree.follow location first = .ok middle ∧ tree.follow middle second = .ok goal := by
  induction first generalizing location with
  | nil => simp [follow]
  | cons name rest inductionHypothesis =>
    rw [List.cons_append, follow, follow]
    split
    · simp
    · simp
    · split
      · exact inductionHypothesis
      · split
        · exact inductionHypothesis
        · split
          · simp
          · exact inductionHypothesis

/-- Empty names and single dots lead nowhere. -/
theorem follow_blanks (directory : tree.entry? location = some .directory) {blanks : List String}
    (blank : ∀ name ∈ blanks, name = "" ∨ name = ".") (names : List String) :
    tree.follow location (blanks ++ names) = tree.follow location names := by
  induction blanks with
  | nil => rfl
  | cons name rest inductionHypothesis =>
    have others := inductionHypothesis fun other member => blank other (List.mem_cons_of_mem _ member)
    rw [List.cons_append, follow, directory]
    exact (if_pos (blank name List.mem_cons_self)).trans others

/-- In a tree with the same directories and more, names lead where they led. -/
theorem follow_mono {later : FileTree}
    (more : ∀ place, tree.entry? place = some .directory → later.entry? place = some .directory)
    {names : List String} (followed : tree.follow location names = .ok goal) :
    later.follow location names = .ok goal := by
  induction names generalizing location with
  | nil => exact followed
  | cons name rest inductionHypothesis =>
    have directory := directory_of_follow (List.cons_ne_nil _ _) followed
    rw [follow, directory] at followed
    rw [follow, more _ directory]
    dsimp only at followed ⊢
    split at followed
    · next blank =>
      rw [if_pos blank]
      exact inductionHypothesis followed
    · next notBlank =>
      rw [if_neg notBlank]
      split at followed
      · next above =>
        rw [if_pos above]
        exact inductionHypothesis followed
      · next notAbove =>
        rw [if_neg notAbove]
        split at followed
        · cases followed
        · next short =>
          rw [if_neg short]
          exact inductionHypothesis followed

/-! ### Locations of paths -/

/-- The location that a path starts from. -/
def startOf (tree : FileTree) (path : Path) : Location :=
  if path.isAbsolute then [] else tree.working

theorem locate_eq_ok_iff {text : String} :
    tree.locate text = .ok location ↔ text ≠ "" ∧ '\x00' ∉ text.toList ∧
      text.utf8ByteSize ≤ pathLimit ∧
      tree.follow (if text.toList.head? = some '/' then [] else tree.working)
        (splitSlashes [] text.toList) = .ok location := by
  rw [locate]
  split
  · next empty => simp [empty]
  · next some =>
    split
    · next nul => simp [nul]
    · next noNul =>
      split
      · next long => simp [Nat.not_le.2 long]
      · next short =>
        dsimp only
        cases tree.follow (if text.toList.head? = .some '/' then [] else tree.working)
          (splitSlashes [] text.toList) with
        | ok found => simp [Except.mapError, some, noNul, Nat.not_lt.1 short]
        | error fault => simp [Except.mapError]

/-- The text of a path can be one that is looked up. -/
structure Fits (path : Path) : Prop where
  noNul : '\x00' ∉ path.text.toList
  short : path.text.utf8ByteSize ≤ pathLimit

/-- A path leads where its names lead from its start, which has to be a directory. -/
theorem locate_text_iff {path : Path} (proper : path.Proper) :
    tree.locate path.text = .ok location ↔ Fits path ∧
      tree.entry? (tree.startOf path) = some .directory ∧
      tree.follow (tree.startOf path) path.names = .ok location := by
  have start : (if path.text.toList.head? = some '/' then [] else tree.working) =
      tree.startOf path := if_congr proper.head_text_iff rfl rfl
  have some : path.text ≠ "" := by
    intro empty
    have dot : (Path.ofString path.text).text = "." := by
      rw [empty]
      rfl
    rw [proper.ofString_text, empty] at dot
    exact absurd dot (by decide)
  obtain ⟨blanks, blank, split⟩ := proper.splitSlashes_text
  rw [locate_eq_ok_iff, start]
  constructor
  · rintro ⟨-, noNul, short, followed⟩
    have directory := directory_of_follow (splitSlashes_ne_nil _ _) followed
    rw [split, follow_blanks directory blank] at followed
    exact ⟨⟨noNul, short⟩, directory, followed⟩
  · rintro ⟨⟨noNul, short⟩, directory, followed⟩
    rw [split, follow_blanks directory blank]
    exact ⟨some, noNul, short, followed⟩

/-! ### Files that are held -/

/-- There is a file with some content at a path. -/
def Holds (tree : FileTree) (text : String) (content : List UInt8) : Prop :=
  ∃ location, tree.locate text = .ok location ∧ tree.entry? location = some (.file content)

/-- Two trees are seen from the same places. -/
structure SamePlaces (tree later : FileTree) : Prop where
  working : later.working = tree.working
  home : later.home = tree.home
  users : later.users = tree.users

theorem SamePlaces.rfl : tree.SamePlaces tree := ⟨Eq.refl _, Eq.refl _, Eq.refl _⟩

theorem SamePlaces.trans {middle later : FileTree} (first : tree.SamePlaces middle)
    (second : middle.SamePlaces later) : tree.SamePlaces later :=
  ⟨second.working.trans first.working, second.home.trans first.home,
    second.users.trans first.users⟩

theorem samePlaces_put (tree : FileTree) (location : Location) (entry : FileEntry) :
    tree.SamePlaces (tree.put location entry) := ⟨rfl, rfl, rfl⟩

variable {text : String} {content : List UInt8}

theorem read_eq_ok_iff : tree.read text = .ok content ↔ tree.Holds text content := by
  rw [read, Holds, bind_eq_ok_iff]
  refine exists_congr fun location => and_congr_right fun _ => ?_
  split
  · next none => simp [none, throw, throwThe, MonadExceptOf.throw]
  · next directory => simp [directory, throw, throwThe, MonadExceptOf.throw]
  · next found file => simp [file, pure, Except.pure]

/-- Names can be followed or not; that they are names is not in question. -/
theorem follow_ne_nulInPath {names : List String} :
    tree.follow location names ≠ .error .nulInPath := by
  induction names generalizing location with
  | nil => exact nofun
  | cons name rest inductionHypothesis =>
    rw [follow]
    split
    · exact nofun
    · exact nofun
    · split_ifs
      · exact inductionHypothesis
      · exact inductionHypothesis
      · exact nofun
      · exact inductionHypothesis

/-- What is not the path of a file has a NUL in it. -/
theorem locate_eq_nulInPath_iff (tree : FileTree) {failure : FileFailure} :
    tree.locate text = .error failure ∧ failure.fault = .nulInPath ↔
      '\x00' ∈ text.toList ∧ failure = ⟨.nulInPath, text⟩ := by
  constructor
  · rintro ⟨failed, nul⟩
    rw [locate] at failed
    split at failed
    · cases failed
      cases nul
    split at failed
    · next inPath =>
      cases failed
      exact ⟨inPath, rfl⟩
    split at failed
    · cases failed
      cases nul
    · obtain ⟨fault, followed, rfl⟩ := mapError_eq_error_iff.1 failed
      have same : fault = .nulInPath := nul
      rw [same] at followed
      exact absurd followed follow_ne_nulInPath
  · rintro ⟨inPath, rfl⟩
    have some : text ≠ "" := by
      rintro rfl
      cases inPath
    rw [locate, if_neg some, if_pos inPath]
    exact ⟨rfl, rfl⟩

theorem read_eq_nulInPath_iff (tree : FileTree) {failure : FileFailure} :
    tree.read text = .error failure ∧ failure.fault = .nulInPath ↔
      '\x00' ∈ text.toList ∧ failure = ⟨.nulInPath, text⟩ := by
  rw [← tree.locate_eq_nulInPath_iff]
  refine and_congr_left fun nul => ?_
  rw [read, bind_eq_error_iff]
  refine or_iff_left ?_
  rintro ⟨location, -, failed⟩
  split at failed <;> cases failed <;> cases nul

/-- A path leads to the file that is put where it leads. -/
theorem holds_put (located : tree.locate text = .ok location) (below : location ≠ [])
    (noDirectory : tree.entry? location ≠ some .directory) (content : List UInt8) :
    (tree.put location (.file content)).Holds text content := by
  have more : ∀ place, tree.entry? place = some .directory →
      entry? (tree.put location (.file content)) place = some .directory := by
    intro place directory
    rw [entryAt_put]
    split
    · rfl
    · rw [if_neg]
      · exact directory
      · rintro rfl
        exact noDirectory directory
  refine ⟨location, ?_, ?_⟩
  · rw [locate_eq_ok_iff] at located ⊢
    exact ⟨located.1, located.2.1, located.2.2.1, follow_mono more located.2.2.2⟩
  · rw [entryAt_put, if_neg below, if_pos rfl]

theorem openOrCreate_of_holds (held : tree.Holds text content) :
    tree.openOrCreate text = .ok (content, tree) := by
  obtain ⟨location, located, file⟩ := held
  refine bind_eq_ok_iff.2 ⟨location, located, ?_⟩
  rw [file]
  rfl

/-- The root is no file. -/
theorem ne_root_of_file (file : tree.entry? location = some (.file content)) : location ≠ [] := by
  rintro rfl
  cases file

/-- A file that was opened is held, in a tree that is seen from the same places. -/
theorem holds_of_openOrCreate {opened : FileTree}
    (found : tree.openOrCreate text = .ok (content, opened)) :
    opened.Holds text content ∧ tree.SamePlaces opened := by
  obtain ⟨location, located, found⟩ := bind_eq_ok_iff.1 found
  split at found
  · cases found
  · next file =>
    cases found
    exact ⟨⟨location, located, file⟩, .rfl⟩
  · next none directory =>
    cases found
    have below : location ≠ [] := by
      rintro rfl
      cases none
    exact ⟨holds_put located below (by rw [none]; simp) [], samePlaces_put _ _ _⟩
  · cases found
  · cases found

/-- What was written is held, in a tree that is seen from the same places. -/
theorem holds_of_write {later : FileTree} (written : tree.write text content = .ok later) :
    later.Holds text content ∧ tree.SamePlaces later := by
  obtain ⟨⟨old, opened⟩, found, written⟩ := bind_eq_ok_iff.1 written
  obtain ⟨⟨location, located, file⟩, places⟩ := holds_of_openOrCreate found
  obtain ⟨same, found, written⟩ := bind_eq_ok_iff.1 written
  cases located.symm.trans found
  cases written
  exact ⟨holds_put located (ne_root_of_file file) (by rw [file]; simp) content,
    places.trans (samePlaces_put _ _ _)⟩

/-- Writing a file that is there puts its new content where the path leads. -/
theorem write_of_located {old : List UInt8} (located : tree.locate text = .ok location)
    (file : tree.entry? location = some (.file old)) (content : List UInt8) :
    tree.write text content = .ok (tree.put location (.file content)) :=
  bind_eq_ok_iff.2 ⟨_, openOrCreate_of_holds ⟨location, located, file⟩,
    bind_eq_ok_iff.2 ⟨location, located, rfl⟩⟩

/-- The content of a file that is there is replaced where the path leads. -/
theorem replace_of_located {old : List UInt8} (located : tree.locate text = .ok location)
    (file : tree.entry? location = some (.file old)) (content : List UInt8) :
    tree.replace text content = tree.put location (.file content) := by
  rw [replace, write_of_located located file]

/-- A file that is held can be written. -/
theorem write_of_holds {old : List UInt8} (held : tree.Holds text old) (content : List UInt8) :
    ∃ later, tree.write text content = .ok later := by
  obtain ⟨location, located, file⟩ := held
  exact ⟨_, write_of_located located file content⟩

/-- What is put where it is already changes nothing. -/
theorem put_eq_self {entry : FileEntry} (below : location ≠ [])
    (found : tree.entry? location = some entry) : tree.put location entry = tree := by
  unfold entry? at found
  rw [if_neg (by simpa using below)] at found
  rw [put, Table.set_eq_self found]

theorem examine_of_holds (held : tree.Holds text content) :
    tree.examine text = .ok (some (.file content)) := by
  obtain ⟨location, located, file⟩ := held
  rw [examine, located]
  exact congrArg Except.ok file

/-! ### The directory of a file -/

theorem fits_of_add_name {path : Path} {name : String}
    (fits : Fits { path with names := path.names ++ [name] }) : Fits path := by
  obtain ⟨noNul, short⟩ := fits
  rcases path.text_add_name name with dot | ⟨behind, longer⟩
  · constructor
    · rw [dot]
      decide
    · rw [dot]
      decide
  · rw [longer] at noNul short
    rw [String.toList_append, List.mem_append, not_or] at noNul
    rw [String.utf8ByteSize_append] at short
    exact ⟨noNul.1, by omega⟩

/-- A path with one more name leads where the name leads from the place that the path leads to. -/
theorem locate_append {base : Path} (proper : base.Proper) {name : String}
    (isName : Path.IsName name) (located : tree.locate (base.append name).text = .ok goal) :
    ∃ directory, tree.locate base.text = .ok directory ∧ tree.follow directory [name] = .ok goal := by
  have properFile : (base.append name).Proper := proper.join (Path.proper_ofString name)
  rw [locate_text_iff properFile] at located
  rw [Path.append_name isName] at located
  obtain ⟨fits, start, followed⟩ := located
  obtain ⟨middle, here, last⟩ := follow_append.1 followed
  exact ⟨middle, (locate_text_iff proper).2 ⟨fits_of_add_name fits, start, here⟩, last⟩

/-- The directory of a file that is held is there. -/
theorem directory_of_holds {base : Path} (proper : base.Proper) {name : String}
    (isName : Path.IsName name) (held : tree.Holds (base.append name).text content) :
    ∃ location, tree.locate base.text = .ok location ∧
      tree.entry? location = some .directory := by
  obtain ⟨goal, located, -⟩ := held
  obtain ⟨directory, here, last⟩ := locate_append proper isName located
  exact ⟨directory, here, directory_of_follow (List.cons_ne_nil _ _) last⟩

/-- A name that is none of dots stands for a place of that name. -/
theorem eq_of_follow_name {name : String} (isName : Path.IsName name) (noParent : name ≠ "..")
    (followed : tree.follow location [name] = .ok goal) : goal = location ++ [name] := by
  rw [follow] at followed
  split at followed
  · cases followed
  · cases followed
  · rw [if_neg (not_or.2 ⟨isName.1, isName.2.1⟩), if_neg noParent] at followed
    split at followed <;> cases followed
    rfl

/-- Nothing is there where a path does not lead anywhere. -/
theorem at_of_locate_error {failure : FileFailure} (failed : tree.locate text = .error failure) :
    tree.at? text = none := by
  rw [at?, examine, failed]
  dsimp only
  by_cases long : failure.fault = .nameTooLong
  · rw [if_pos long]
  · rw [if_neg long]

/-- What is there below a directory has an entry in the tree under its own name. -/
theorem mem_entries_of_at {base : Path} (proper : base.Proper) {name : String}
    (isName : Path.IsName name) (noParent : name ≠ "..")
    (there : (tree.at? (base.append name).text).isSome = true) :
    ∃ directory, tree.locate base.text = .ok directory ∧
      directory ++ [name] ∈ tree.entries.map Prod.fst := by
  cases located : tree.locate (base.append name).text with
  | error failure =>
    rw [at_of_locate_error located] at there
    cases there
  | ok goal =>
    obtain ⟨directory, here, last⟩ := locate_append proper isName located
    obtain rfl := eq_of_follow_name isName noParent last
    rw [at?, examine, located] at there
    obtain ⟨entry, found⟩ := Option.isSome_iff_exists.1 there
    dsimp only at found
    unfold entry? at found
    rw [if_neg (by simp)] at found
    exact ⟨directory, here, List.mem_map.2 ⟨_, Table.mem_of_lookup found, rfl⟩⟩

/-- The directory of a file that is held is not made again. -/
theorem ensureDirectory_of_holds {base : Path} (proper : base.Proper) {name : String}
    (isName : Path.IsName name) (held : tree.Holds (base.append name).text content) :
    ensureDirectory base tree = .ok () tree := by
  obtain ⟨location, located, directory⟩ := directory_of_holds proper isName held
  have known : tree.makeDirectory base.text = .error ⟨.exists, base.text⟩ := by
    rw [makeDirectory, located]
    simp only [bind, Except.bind, directory]
    rfl
  have there : tree.at? base.text = some .directory := by
    rw [at?, examine, located]
    exact directory
  rw [ensureDirectory, makeDirectories, known]
  dsimp only
  rw [if_neg (by simp), if_pos there]

theorem samePlaces_makeDirectory {later : FileTree}
    (made : tree.makeDirectory text = .ok later) : tree.SamePlaces later := by
  obtain ⟨location, -, made⟩ := bind_eq_ok_iff.1 made
  split at made
  · cases made
  · cases made
    exact samePlaces_put _ _ _
  · cases made
  · cases made

/-- Directories are made in a tree that is seen from the same places. -/
theorem samePlaces_makeDirectories {later : FileTree} {depth : Nat} {path : Path}
    (made : tree.makeDirectories path depth = .ok () later) : tree.SamePlaces later := by
  induction depth generalizing tree later path with
  | zero => cases made
  | succ depth inductionHypothesis =>
    rw [makeDirectories] at made
    split at made
    · next first =>
      cases made
      exact samePlaces_makeDirectory first
    · split at made
      · split at made
        · cases made
        · next above =>
          have places := inductionHypothesis above
          split at made
          · next second =>
            cases made
            exact places.trans (samePlaces_makeDirectory second)
          · split at made
            · cases made
              exact places
            · cases made
      · split at made
        · cases made
          exact .rfl
        · cases made

end HexEditor.FileTree
