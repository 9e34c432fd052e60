/-
The document of settings. What is written is read as the same settings, but for two things:
the logs come in the order of their files, and the path of every struct is joined to the
base directory once more. So the document that settings were read from is not always the one
they write. Where a document is held, loading reads it and writes nothing; and whatever is
loaded is sound, with its document held in the base directory.
-/

import HexEditor.Proofs.Json.RoundTrip
import HexEditor.Proofs.Settings.Reading
import HexEditor.Proofs.Storage.Trees
import HexEditor.Proofs.Text.Utf8

namespace HexEditor.Settings

open Json (Readable readable_string readable_array readable_object)

variable {settings : Settings} {tree : FileTree}

/-! ### Writing and reading the document -/

/-- Settings as they are read once they are saved: the logs are in the order of their files, and
every path has been joined to the base directory. -/
def reread (settings : Settings) : Settings :=
  { settings with
    logs := settings.logs.mergeSort fun first second => first.1 ≤ second.1
    structs := settings.structs.map fun entry =>
      { entry with path := settings.base.join entry.path } }

theorem perm_logs_reread (settings : Settings) : settings.reread.logs.Perm settings.logs :=
  List.mergeSort_perm _ _

theorem readable_toJson (distinct : (settings.logs.map Prod.fst).Nodup) (depth : Nat) :
    Readable (depth + 3) settings.toJson := by
  have files : (settings.reread.logs.map Prod.fst).Nodup :=
    ((perm_logs_reread settings).map Prod.fst).nodup_iff.2 distinct
  refine readable_object (by simp) fun member found => ?_
  rw [List.mem_cons, List.mem_singleton] at found
  rcases found with rfl | rfl
  · refine readable_object ?_ fun log found => ?_
    · rw [List.map_map]
      exact files
    · obtain ⟨entry, -, rfl⟩ := List.mem_map.1 found
      refine readable_object (by simp) fun field found => ?_
      rw [List.mem_singleton] at found
      subst found
      exact readable_string _ _
  · refine readable_array fun item found => ?_
    obtain ⟨entry, -, rfl⟩ := List.mem_map.1 found
    refine readable_object (by simp) fun field found => ?_
    rw [List.mem_cons, List.mem_singleton] at found
    rcases found with rfl | rfl <;> exact readable_string _ _

/-- An entry that is read as it was written, but for its path, which is joined to the base
directory. -/
structure WritableEntry (base : Path) (entry : StructEntry) : Prop where
  proper : entry.path.Proper
  plain : entry.path.HasNoTilde
  named : entry.name = "" → (base.join entry.path).names = []

theorem logNameOf_written {name : String} (isLogName : IsLogName name) (file : String) :
    logNameOf file (.object [("undo_file_name", .string name)]) = .ok name :=
  if_neg (not_or.2 isLogName)

/-- How an entry is written. -/
def entryJson (entry : StructEntry) : Json :=
  .object [("name", .string entry.name), ("path", .string entry.path.text)]

/-- An entry that was written is read unless the directory of a user cannot be told; what is put for
the user is joined to the base directory. -/
theorem structOf_entryJson {base : Path} {entry : StructEntry} (proper : entry.path.Proper) :
    structOf base tree (entryJson entry) =
      match expandHome tree entry.path with
      | .error failure => .error (.home failure)
      | .ok path =>
        .ok ⟨if entry.name = "" then (base.join path).stem else entry.name, base.join path⟩ := by
  have path : (entryJson entry).member? "path" = some (.string entry.path.text) := rfl
  have name : (entryJson entry).member? "name" = some (.string entry.name) := rfl
  rw [structOf, path]
  dsimp only
  rw [proper.ofString_text, name, Option.getD_some, Json.isGiven, Json.plain]
  cases expandHome tree entry.path with
  | error failure => rfl
  | ok path => by_cases nameless : entry.name = "" <;> simp [nameless]

theorem structOf_written {base : Path} {entry : StructEntry}
    (writable : WritableEntry base entry) :
    structOf base tree (entryJson entry) = .ok { entry with path := base.join entry.path } := by
  rw [structOf_entryJson writable.proper, expandHome_of_hasNoTilde writable.plain]
  by_cases nameless : entry.name = ""
  · have stem : (base.join entry.path).stem = "" := by
      rw [Path.stem, Path.name, writable.named nameless]
      rfl
    dsimp only
    rw [nameless, if_pos rfl, stem]
  · dsimp only
    rw [if_neg nameless]

theorem logsOf_toJson (logs : SoundLogs settings.logs) :
    logsOf ((settings.toJson.member? "files").getD (.object [])) = .ok settings.reread.logs := by
  refine mapM_eq_ok_iff.2 (List.forall₂_map_left_iff.2 (List.forall₂_same.2 fun log found => ?_))
  have isLogName := logs.names log ((perm_logs_reread settings).mem_iff.1 found)
  dsimp only
  rw [logNameOf_written isLogName]
  rfl

/-- The document of settings is read as they are, but for the structs, whose paths are looked at
again. -/
theorem ofDocument_eq (logs : SoundLogs settings.logs) :
    ofDocument settings.base tree settings.document =
      match (settings.structs.map entryJson).mapM (structOf settings.base tree) with
      | .ok structs => .ok { settings.reread with structs }
      | .error (.home failure) => .error (.home failure)
      | .error (.fault fault) => .error (.fault (documentPath settings.base) fault) := by
  have readable : Readable Json.nestingLimit settings.toJson := readable_toJson logs.distinct 987
  have readStructs : structsOf settings.base tree
      ((settings.toJson.member? "structs").getD (.array [])) =
        (settings.structs.map entryJson).mapM (structOf settings.base tree) := rfl
  rw [ofDocument, document, textOfUtf8_utf8Bytes]
  dsimp only
  rw [Json.read_indented readable]
  dsimp only
  unfold ofJson
  extract_lets place
  rw [logsOf_toJson logs]
  dsimp only
  rw [readStructs]
  cases (settings.structs.map entryJson).mapM (structOf settings.base tree) with
  | ok structs => rfl
  | error failure => cases failure <;> rfl

/-- The document of settings is read as those settings, with every path joined once more. -/
theorem ofDocument_document (logs : SoundLogs settings.logs)
    (writable : ∀ entry ∈ settings.structs, WritableEntry settings.base entry) :
    ofDocument settings.base tree settings.document = .ok settings.reread := by
  have readStructs : (settings.structs.map entryJson).mapM (structOf settings.base tree) =
      .ok settings.reread.structs :=
    mapM_eq_ok_iff.2 (List.forall₂_map_left_iff.2 (List.forall₂_map_right_iff.2
      (List.forall₂_same.2 fun entry found => structOf_written (writable entry found))))
  rw [ofDocument_eq logs, readStructs]

/-- An entry that was written fails to be read as its path does, and only then. -/
theorem structOf_entryJson_eq_error_iff {base : Path} {entry : StructEntry} {failure : EntryFailure}
    (proper : entry.path.Proper) :
    structOf base tree (entryJson entry) = .error failure ↔
      ∃ cause, expandHome tree entry.path = .error cause ∧ failure = .home cause := by
  rw [structOf_entryJson proper]
  cases expandHome tree entry.path with
  | error cause =>
    dsimp only
    rw [Except.error.injEq]
    exact ⟨fun same => ⟨cause, rfl, same.symm⟩, fun ⟨_, same, home⟩ => by cases same; exact home.symm⟩
  | ok path => exact iff_of_false nofun nofun

/-- Settings with proper paths are read with the logs that they have, unless the directory of a user
cannot be told. -/
theorem ofDocument_cases (settings : Settings) (tree : FileTree) (logs : SoundLogs settings.logs)
    (proper : ∀ entry ∈ settings.structs, entry.path.Proper) :
    (∃ structs, ofDocument settings.base tree settings.document =
        .ok { settings.reread with structs }) ∧
        (∀ entry ∈ settings.structs, ∃ path, expandHome tree entry.path = .ok path) ∨
      ∃ cause, ofDocument settings.base tree settings.document = .error (.home cause) ∧
        ∃ entry ∈ settings.structs, expandHome tree entry.path = .error cause := by
  rw [ofDocument_eq logs]
  cases read : (settings.structs.map entryJson).mapM (structOf settings.base tree) with
  | ok structs =>
    refine .inl ⟨⟨structs, rfl⟩, fun entry member => ?_⟩
    cases expanded : expandHome tree entry.path with
    | ok path => exact ⟨path, rfl⟩
    | error cause =>
      obtain ⟨found, known⟩ := exists_of_mapM read _ (List.mem_map_of_mem member)
      rw [(structOf_entryJson_eq_error_iff (proper entry member)).2 ⟨cause, expanded, rfl⟩] at known
      cases known
  | error failure =>
    obtain ⟨before, raw, after, split, -, failed⟩ := mapM_eq_error_iff.1 read
    have listed : raw ∈ settings.structs.map entryJson := by
      rw [split]
      exact List.mem_append_right _ List.mem_cons_self
    obtain ⟨entry, member, rfl⟩ := List.mem_map.1 listed
    obtain ⟨cause, expanded, rfl⟩ := (structOf_entryJson_eq_error_iff (proper entry member)).1 failed
    exact .inr ⟨cause, rfl, entry, member, expanded⟩

theorem expandHome_of_samePlaces {later : FileTree} (places : tree.SamePlaces later) :
    expandHome later = expandHome tree := by
  have homes : homeOf later = homeOf tree := by
    funext name
    rw [homeOf, homeOf, places.home, places.users]
  funext path
  rw [expandHome.eq_def, expandHome.eq_def, homes]

/-- What a document is read as depends on the directories of the users only. -/
theorem ofDocument_of_samePlaces {later : FileTree} (places : tree.SamePlaces later) (base : Path)
    (content : List UInt8) : ofDocument base later content = ofDocument base tree content := by
  have all : structOf base later = structOf base tree := by
    funext raw
    rw [structOf, structOf, expandHome_of_samePlaces places]
  simp only [ofDocument, ofJson, structsOf, all]

/-! ### Loading -/

/-- Where a document is held, settings are what it is read as, and nothing is written. -/
theorem load_eq_of_holds {base : Path} (proper : base.Proper) {content : List UInt8}
    (some : content ≠ []) (held : tree.Holds (documentPath base).text content) :
    load base tree =
      match ofDocument base tree content with
      | .ok settings => .ok settings tree
      | .error failure => .error failure tree := by
  have isName : Path.IsName "config.json" := by decide
  rw [load, FileTree.ensureDirectory_of_holds proper isName held]
  dsimp only
  rw [loadDocument, FileTree.examine_of_holds held, FileTree.read_eq_ok_iff.2 held]
  cases content with
  | nil => exact absurd rfl some
  | cons byte rest => rfl

/-- Settings are loaded from the document that is held, and nothing is written. -/
theorem load_of_holds {base : Path} (proper : base.Proper) {content : List UInt8}
    (some : content ≠ []) (held : tree.Holds (documentPath base).text content)
    (found : ofDocument base tree content = .ok settings) :
    load base tree = .ok settings tree := by
  rw [load_eq_of_holds proper some held, found]

theorem document_ne_nil (settings : Settings) : settings.document ≠ [] := by
  rw [document, utf8Bytes, List.flatMap_append]
  simp [utf8Char]

theorem create_of_ok {base : Path} {later : FileTree} (created : create base tree = .ok settings later) :
    settings = { base } ∧ settings.save tree = .ok later := by
  unfold create at created
  dsimp only at created
  split at created
  · next saved =>
    cases created
    exact ⟨rfl, saved⟩
  · cases created

theorem sound_empty (base : Path) : Sound { base } :=
  ⟨⟨List.nodup_nil, fun _ member => by cases member⟩, fun _ member => by cases member⟩

/-- What is loaded is sound, and the document that it is read from is held. -/
theorem read_of_load {base : Path} {later : FileTree} (proper : base.Proper)
    (homes : tree.ProperHomes) (loaded : load base tree = .ok settings later) :
    settings.base = base ∧ settings.Sound ∧ tree.SamePlaces later ∧
      ∃ content, content ≠ [] ∧ later.Holds (documentPath base).text content ∧
        ofDocument base later content = .ok settings := by
  rw [load] at loaded
  split at loaded
  · cases loaded
  · next made ensured =>
    have places : tree.SamePlaces made := FileTree.samePlaces_makeDirectories ensured
    have properHomes := homes.of_samePlaces places.home places.users
    have fresh {later : FileTree} (created : create base made = .ok settings later) :
        settings.base = base ∧ settings.Sound ∧ tree.SamePlaces later ∧
          ∃ content, content ≠ [] ∧ later.Holds (documentPath base).text content ∧
            ofDocument base later content = .ok settings := by
      obtain ⟨rfl, saved⟩ := create_of_ok created
      obtain ⟨held, samePlaces⟩ := FileTree.holds_of_write saved
      have read : ofDocument base later (document { base }) = .ok (reread { base }) :=
        ofDocument_document (sound_empty base).logs nofun
      have same : reread { base } = { base } := by
        rw [reread, List.mergeSort_nil, List.map_nil]
      rw [same] at read
      exact ⟨rfl, sound_empty base, places.trans samePlaces, _, document_ne_nil _, held, read⟩
    unfold loadDocument at loaded
    extract_lets place at loaded
    split at loaded
    · cases loaded
    · exact fresh loaded
    · exact fresh loaded
    · next notEmpty examined =>
      split at loaded
      · cases loaded
      · next content read =>
        split at loaded
        · next found =>
          cases loaded
          obtain ⟨same, sound⟩ := sound_ofDocument proper properHomes found
          have held := FileTree.read_eq_ok_iff.1 read
          refine ⟨same, sound, places, content, ?_, held, found⟩
          rintro rfl
          rw [FileTree.examine_of_holds held] at examined
          cases examined
          exact notEmpty rfl
        · cases loaded

/-- What is loaded is sound, and its document is held where it was read or written. -/
theorem sound_of_load {base : Path} {later : FileTree} (proper : base.Proper)
    (homes : tree.ProperHomes) (loaded : load base tree = .ok settings later) :
    settings.base = base ∧ settings.Sound ∧ tree.SamePlaces later ∧
      ∃ content, later.Holds (documentPath base).text content := by
  obtain ⟨same, sound, places, content, -, held, -⟩ := read_of_load proper homes loaded
  exact ⟨same, sound, places, content, held⟩

end HexEditor.Settings
