/-
This file proves what becomes of settings when the editor is started again. The first start
loads them and gives a new file a log, which saves them; the next one loads what was saved.
All logs are kept, and so are the structs with their names and their order. Their paths are
kept if joining them to the base directory changes nothing. It does not change absolute
paths, and all paths are absolute below an absolute base directory; but a path below a
relative one has that directory in front of it, and gets it again each time it is read.
-/

import HexEditor.Proofs.Settings.Document
import HexEditor.Proofs.Settings.Naming

namespace HexEditor.Settings

variable {settings : Settings} {tree : FileTree}

/-! ### A log for a new file -/

/-- The path that a file goes by. -/
def fileKey (tree : FileTree) (file : String) : String :=
  (Path.absolute { root := "/", names := tree.working } file).text

/-- The settings with a log for one more file. -/
def withLog (settings : Settings) (file name : String) : Settings :=
  { settings with logs := settings.logs ++ [(file, name)] }

theorem SoundLogs.add {logs : List (String × String)} (sound : SoundLogs logs) {key name : String}
    (new : key ∉ logs.map Prod.fst) (isLogName : IsLogName name) :
    SoundLogs (logs ++ [(key, name)]) := by
  constructor
  · have distinct : ((Table.set key name logs).map Prod.fst).Nodup :=
      Table.nodup_keys_set sound.distinct
    rwa [Table.set_of_notMem new] at distinct
  · intro log member
    rcases List.mem_append.1 member with old | added
    · exact sound.names log old
    · rw [List.mem_singleton.1 added]
      exact isLogName

/-- A file without a log is given the first one that is free, and that is saved where settings are
held. -/
theorem logPathFor_new (settings : Settings) (proper : settings.base.Proper)
    {content : List UInt8} {file : String}
    (held : tree.Holds (documentPath settings.base).text content)
    (new : fileKey tree file ∉ settings.logs.map Prod.fst) :
    ∃ number later,
      settings.logPathFor tree file =
        (.ok (settings.base.append (logName number)),
          settings.withLog (fileKey tree file) (logName number), later) ∧
      later.Holds (documentPath settings.base).text
        (settings.withLog (fileKey tree file) (logName number)).document ∧
      tree.SamePlaces later ∧ settings.isTaken tree (logName number) = false ∧
      ∀ passed < number, settings.isTaken tree (logName passed) = true := by
  have none : settings.logs.lookup (fileKey tree file) = none := by
    rw [List.lookup_eq_none_iff]
    intro log member
    rw [bne_iff_ne]
    exact fun same => new (same ▸ List.mem_map_of_mem member)
  obtain ⟨free, chosen, notTaken, passes⟩ := nextLogName_spec proper tree
  have added : { settings with
      logs := Table.set (fileKey tree file) (logName free) settings.logs } =
        settings.withLog (fileKey tree file) (logName free) := by
    rw [Table.set_of_notMem new, withLog]
  obtain ⟨later, saved⟩ := FileTree.write_of_holds held
    (settings.withLog (fileKey tree file) (logName free)).document
  obtain ⟨heldLater, places⟩ := FileTree.holds_of_write saved
  refine ⟨free, later, ?_, heldLater, places, notTaken, passes⟩
  rw [logPathFor, ← fileKey, none]
  dsimp only
  rw [chosen, added, save]
  have base : (settings.withLog (fileKey tree file) (logName free)).base = settings.base := rfl
  rw [base, saved]

/-! ### Paths that are joined again -/

section Joining

variable {base : Path} {entry : StructEntry}

/-- A path that was joined to a directory is the same when it is joined once more if it is absolute
or the directory has no names, and only then. -/
theorem join_eq_iff (placed : entry.Placed base) :
    base.join entry.path = entry.path ↔ base.names = [] ∨ entry.path.isAbsolute = true := by
  obtain ⟨path, -, -, joined⟩ := placed.joined
  by_cases absolute : entry.path.isAbsolute = true
  · rw [Path.join, if_pos absolute]
    exact iff_of_true rfl (.inr absolute)
  · have relative : ¬ path.isAbsolute = true := by
      intro pathAbsolute
      rw [joined, Path.join, if_pos pathAbsolute] at absolute
      exact absolute pathAbsolute
    have parts : entry.path = { base with names := base.names ++ path.names } := by
      rw [joined, Path.join, if_neg relative]
    rw [Path.join, if_neg absolute, or_iff_left absolute, parts]
    simp

theorem isAbsolute_of_placed (placed : entry.Placed base) (absolute : base.isAbsolute = true) :
    entry.path.isAbsolute = true := by
  obtain ⟨path, -, -, joined⟩ := placed.joined
  rw [joined, Path.join]
  split
  · assumption
  · exact absolute

/-- An entry that was read can be written. -/
theorem writable_of_placed (proper : base.Proper) (plain : base.HasNoTilde)
    (placed : entry.Placed base) : WritableEntry base entry := by
  obtain ⟨path, properPath, plainPath, joined⟩ := placed.joined
  refine ⟨joined ▸ proper.join properPath, joined ▸ plain.join plainPath, fun nameless => ?_⟩
  have none := placed.named nameless
  have same : base.join entry.path = entry.path := by
    rw [join_eq_iff placed]
    by_cases absolute : entry.path.isAbsolute = true
    · exact .inr absolute
    · rw [joined, Path.join] at none absolute
      split at none
      · next pathAbsolute =>
        rw [if_pos pathAbsolute] at absolute
        exact absurd pathAbsolute absolute
      · exact .inl (List.append_eq_nil_iff.1 none).1
  rw [same, none]

end Joining

/-- Settings that are loaded and given a log for a new file are read again as they are saved. -/
theorem load_withLog {base : Path} {middle : FileTree} {file : String} (proper : base.Proper)
    (plain : base.HasNoTilde) (homes : tree.ProperHomes)
    (loaded : load base tree = .ok settings middle)
    (new : fileKey middle file ∉ settings.logs.map Prod.fst) :
    ∃ name later, settings.logPathFor middle file =
        (.ok (base.append name), settings.withLog (fileKey middle file) name, later) ∧
      later.working = tree.working ∧
      load base later = .ok (settings.withLog (fileKey middle file) name).reread later := by
  obtain ⟨rfl, sound, places, content, held⟩ := sound_of_load proper homes loaded
  obtain ⟨number, later, ran, heldLater, placesLater, -⟩ := settings.logPathFor_new proper held new
  refine ⟨logName number, later, ran, (places.trans placesLater).working, ?_⟩
  have logs := sound.logs.add new (isLogName_logName number)
  have writable : ∀ entry ∈ (settings.withLog (fileKey middle file) (logName number)).structs,
      WritableEntry (settings.withLog (fileKey middle file) (logName number)).base entry :=
    fun entry member => writable_of_placed proper plain (sound.placed entry member)
  exact load_of_holds proper (document_ne_nil _) heldLater (ofDocument_document logs writable)

/-- The structs that are read again are the same if the base directory is absolute or has no names,
or if all of their paths are absolute, and only then. -/
theorem structs_reread_iff (sound : settings.Sound) :
    settings.reread.structs = settings.structs ↔ settings.base.isAbsolute = true ∨
      settings.base.names = [] ∨ ∀ entry ∈ settings.structs, entry.path.isAbsolute = true := by
  constructor
  · intro same
    refine .inr (or_iff_not_imp_left.2 fun named entry member => ?_)
    have each := List.map_inj_left.1 (same.trans (List.map_id _).symm) entry member
    have joined : settings.base.join entry.path = entry.path := congrArg StructEntry.path each
    exact ((join_eq_iff (sound.placed entry member)).1 joined).resolve_left named
  · intro fixed
    refine (List.map_congr_left fun entry member => ?_).trans (List.map_id _)
    have placed := sound.placed entry member
    have joined : settings.base.join entry.path = entry.path := by
      rw [join_eq_iff placed]
      rcases fixed with absolute | none | all
      · exact .inr (isAbsolute_of_placed placed absolute)
      · exact .inl none
      · exact .inr (all entry member)
    rw [joined]
    rfl

/-- Settings that are given a log for a new file and loaded again from the same directory have the
logs that they had and the new one, and their structs in the same order and under the same names.
The structs are at the same paths if the base directory is absolute or has no names, or if all of
their paths are absolute, and only then: any other path has the base directory in front of it once
more. -/
theorem reloaded_withLog {base : Path} {middle : FileTree} {file : String} (proper : base.Proper)
    (plain : base.HasNoTilde) (homes : tree.ProperHomes)
    (loaded : load base tree = .ok settings middle)
    (new : fileKey middle file ∉ settings.logs.map Prod.fst) :
    ∃ name later again, settings.logPathFor middle file =
        (.ok (base.append name), settings.withLog (fileKey middle file) name, later) ∧
      later.working = tree.working ∧ load base later = .ok again later ∧
      again.logs.Perm ((fileKey middle file, name) :: settings.logs) ∧
      again.structs = settings.structs.map (fun entry =>
        { entry with path := base.join entry.path }) ∧
      (again.structs = settings.structs ↔ base.isAbsolute = true ∨ base.names = [] ∨
        ∀ entry ∈ settings.structs, entry.path.isAbsolute = true) := by
  obtain ⟨name, later, ran, working, reloads⟩ := load_withLog proper plain homes loaded new
  obtain ⟨rfl, sound, -⟩ := sound_of_load proper homes loaded
  have structs := structs_reread_iff sound
  exact ⟨name, later, _, ran, working, reloads,
    (perm_logs_reread _).trans (List.perm_append_singleton _ _), rfl, structs⟩

/-- Settings that name a struct by a relative path; where they are kept is not written down. -/
def pairSettings (base : Path) : Settings :=
  { base, structs := [⟨"pair", { names := ["pair.json"] }⟩] }

/-- A tree in which such settings are kept in a directory below the working directory. -/
def pairTree : FileTree where
  entries := [(["work"], .directory), (["work", "cfg"], .directory),
    (["work", "cfg", "config.json"], .file (pairSettings {}).document)]
  working := ["work"]
  home := ["work"]

theorem properHomes_pairTree : pairTree.ProperHomes :=
  ⟨by decide, fun _ member => by cases member⟩

/-- The settings are loaded from where their document is held. -/
theorem load_pairSettings {base : Path} (proper : base.Proper)
    (held : tree.Holds (documentPath base).text (pairSettings base).document) :
    load base tree = .ok (pairSettings base).reread tree := by
  have logs : SoundLogs (pairSettings base).logs :=
    ⟨List.nodup_nil, fun _ member => by cases member⟩
  have writable : ∀ entry ∈ (pairSettings base).structs, WritableEntry base entry := by
    intro entry member
    rw [List.mem_singleton.1 member]
    exact ⟨⟨.inl rfl, by decide⟩, .inr (by decide), fun nameless => absurd nameless (by decide)⟩
  exact load_of_holds proper (document_ne_nil _) held (ofDocument_document logs writable)

/-- The settings are loaded through every path to their directory. -/
theorem load_pairTree {base : Path} (proper : base.Proper)
    (located : pairTree.locate (documentPath base).text = .ok ["work", "cfg", "config.json"]) :
    load base pairTree = .ok (pairSettings base).reread pairTree :=
  load_pairSettings proper ⟨_, located, rfl⟩

theorem logs_reread_pairSettings (base : Path) : (pairSettings base).reread.logs = [] :=
  List.mergeSort_nil

/-- Through an absolute path to the directory the struct is read again as it was. -/
theorem reloaded_withLog_absolute :
    ∃ name later again,
      (pairSettings ⟨"/", ["work", "cfg"]⟩).reread.logPathFor pairTree "x" =
        (.ok (Path.append ⟨"/", ["work", "cfg"]⟩ name),
          (pairSettings ⟨"/", ["work", "cfg"]⟩).reread.withLog "/work/x" name, later) ∧
      load ⟨"/", ["work", "cfg"]⟩ later = .ok again later ∧ again.logs = [("/work/x", name)] ∧
      again.structs = [⟨"pair", ⟨"/", ["work", "cfg", "pair.json"]⟩⟩] := by
  have proper : Path.Proper ⟨"/", ["work", "cfg"]⟩ := ⟨by decide, by decide⟩
  have loaded := load_pairTree proper (by decide +kernel)
  have key : fileKey pairTree "x" = "/work/x" := by decide +kernel
  have new : fileKey pairTree "x" ∉
      (pairSettings ⟨"/", ["work", "cfg"]⟩).reread.logs.map Prod.fst := by
    rw [logs_reread_pairSettings]
    exact List.not_mem_nil
  obtain ⟨name, later, again, ran, -, reloads, logs, -, same⟩ :=
    reloaded_withLog proper (.inl rfl) properHomes_pairTree loaded new
  rw [key] at ran logs
  rw [logs_reread_pairSettings, List.perm_singleton] at logs
  exact ⟨name, later, again, ran, reloads, logs, same.2 (.inl rfl)⟩

/-- Through a relative path to the directory the path of the struct grows. -/
theorem reloaded_withLog_relative :
    load ⟨"", ["cfg"]⟩ pairTree =
        .ok (pairSettings ⟨"", ["cfg"]⟩).reread pairTree ∧
      (pairSettings ⟨"", ["cfg"]⟩).reread.structs = [⟨"pair", ⟨"", ["cfg", "pair.json"]⟩⟩] ∧
      ∃ name later again,
        (pairSettings ⟨"", ["cfg"]⟩).reread.logPathFor pairTree "x" =
          (.ok (Path.append ⟨"", ["cfg"]⟩ name),
            (pairSettings ⟨"", ["cfg"]⟩).reread.withLog "/work/x" name, later) ∧
        load ⟨"", ["cfg"]⟩ later = .ok again later ∧
        again.structs = [⟨"pair", ⟨"", ["cfg", "cfg", "pair.json"]⟩⟩] ∧
        again.structs ≠ (pairSettings ⟨"", ["cfg"]⟩).reread.structs := by
  have proper : Path.Proper ⟨"", ["cfg"]⟩ := ⟨by decide, by decide⟩
  have loaded := load_pairTree proper (by decide +kernel)
  have key : fileKey pairTree "x" = "/work/x" := by decide +kernel
  have new : fileKey pairTree "x" ∉
      (pairSettings ⟨"", ["cfg"]⟩).reread.logs.map Prod.fst := by
    rw [logs_reread_pairSettings]
    exact List.not_mem_nil
  obtain ⟨name, later, ran, -, reloads⟩ :=
    load_withLog proper (.inr (by decide)) properHomes_pairTree loaded new
  rw [key] at ran reloads
  have grown : ([⟨"pair", ⟨"", ["cfg", "cfg", "pair.json"]⟩⟩] : List StructEntry) ≠
      [⟨"pair", ⟨"", ["cfg", "pair.json"]⟩⟩] := by decide
  exact ⟨loaded, rfl, name, later, _, ran, reloads, rfl, grown⟩

end HexEditor.Settings
