/-
What the document of settings may be. Whatever it holds, loading it gives settings in which every
log has a name that a directory can hold, or fails; and it is written only if it was empty. Most
failures are reported as failures of the settings, with the path of the document. Three kinds are
not: bytes that spell no text, integers with too many digits and values nested too deep, and a
struct in the directory of a user when it cannot be told, since there is no such user or since the
name has a NUL in it.
-/

import HexEditor.Proofs.Json.Refusals
import HexEditor.Proofs.Settings.Document
import HexEditor.Proofs.Text.Decoding

namespace HexEditor

/-- Whether a failure is reported as one of the settings, with the path that it is about. -/
def SettingsFailure.isReported : SettingsFailure → Bool
  | .base _ _ => true
  | .document _ _ => true
  | .json _ failure => failure == .malformed
  | .fault _ _ => true
  | .encoding _ => false
  | .file _ => false
  | .home _ => false

namespace Settings

variable {tree : FileTree} {base path : Path} {raw : Json} {content : List UInt8}
  {failure : SettingsFailure} {settings : Settings}

/-! ### Entries -/

/-- An entry of the list of structs has a path, and it can be followed. -/
def IsEntry (tree : FileTree) (raw : Json) : Prop :=
  ∃ text, raw.member? "path" = some (.string text) ∧
    ∀ cause, ¬ HasNoHome tree (Path.ofString text) cause

/-- An entry of the list of structs has a path in the directory of a user, and it cannot be told. -/
def NamesNoHome (tree : FileTree) (raw : Json) (cause : HomeFailure) : Prop :=
  ∃ text, raw.member? "path" = some (.string text) ∧ HasNoHome tree (Path.ofString text) cause

theorem isEntry_iff (base : Path) :
    IsEntry tree raw ↔ ∃ entry, structOf base tree raw = .ok entry := by
  rw [structOf, IsEntry]
  split
  · next text given =>
    rw [given]
    constructor
    · rintro ⟨_, same, known⟩
      cases same
      cases expanded : expandHome tree (Path.ofString text) with
      | error cause => exact absurd (expandHome_eq_error_iff.1 expanded) (known cause)
      | ok path => exact ⟨_, rfl⟩
    · rintro ⟨entry, read⟩
      refine ⟨text, rfl, fun cause lacks => ?_⟩
      rw [expandHome_eq_error_iff.2 lacks] at read
      cases read
  · next none =>
    refine iff_of_false ?_ (by rintro ⟨_, ⟨⟩⟩)
    rintro ⟨text, given, -⟩
    exact none text given

theorem namesNoHome_iff (base : Path) {cause : HomeFailure} :
    NamesNoHome tree raw cause ↔ structOf base tree raw = .error (.home cause) := by
  rw [structOf, NamesNoHome]
  split
  · next text given =>
    rw [given]
    constructor
    · rintro ⟨_, same, lacks⟩
      cases same
      rw [expandHome_eq_error_iff.2 lacks]
    · intro failed
      cases expanded : expandHome tree (Path.ofString text) with
      | error other =>
        rw [expanded] at failed
        cases failed
        exact ⟨text, rfl, expandHome_eq_error_iff.1 expanded⟩
      | ok path =>
        rw [expanded] at failed
        cases failed
  · next none =>
    refine iff_of_false ?_ (by rintro ⟨⟩)
    rintro ⟨text, given, -⟩
    exact none text given

/-- A list of structs cannot be read for want of a user's directory if its first entry that cannot
be read names it. -/
theorem structsOf_eq_home_iff {cause : HomeFailure} :
    structsOf base tree raw = .error (.home cause) ↔
      ∃ before item after, raw = .array (before ++ item :: after) ∧
        (∀ other ∈ before, IsEntry tree other) ∧ NamesNoHome tree item cause := by
  rw [structsOf.eq_def]
  split
  · next items =>
    simp only [mapM_eq_error_iff, Json.array.injEq, isEntry_iff base, namesNoHome_iff base]
  · next noList =>
    refine iff_of_false nofun ?_
    rintro ⟨before, item, after, rfl, -⟩
    exact noList _ rfl

/-! ### Documents that are not refused in order -/

/-- What a document holds lets the loading fail in a way that is not reported. -/
inductive Spoils (tree : FileTree) (base : Path) (content : List UInt8) :
    SettingsFailure → Prop where
  | noText {failure : Utf8Failure} (failed : textOfUtf8 content = .error failure)
      (noText : ∀ text, content ≠ utf8Bytes text) : Spoils tree base content (.encoding failure)
  | document {text : List Char} {failure : Json.Failure} (spelled : content = utf8Bytes text)
      (failed : Json.read text = .error failure) (extreme : failure ≠ .malformed)
      (shown : failure.ShownBy Json.nestingLimit text) :
      Spoils tree base content (.json (documentPath base) failure)
  /-- The files are in order, and so are all structs before the first one without a home. -/
  | home {text : List Char} {members : List (String × Json)}
      {logs : List (String × String)} {before after : List Json} {item : Json} {cause : HomeFailure}
      (spelled : content = utf8Bytes text) (read : Json.read text = .ok (.object members))
      (files : logsOf ((members.lookup "files").getD (.object [])) = .ok logs)
      (structs : members.lookup "structs" = some (.array (before ++ item :: after)))
      (earlier : ∀ other ∈ before, IsEntry tree other) (lacks : NamesNoHome tree item cause) :
      Spoils tree base content (.home cause)

/-- Settings in a value fail unreported only for want of a user's directory. -/
theorem ofJson_unreported_iff :
    ofJson base tree raw = .error failure ∧ failure.isReported = false ↔
      ∃ cause members logs before item after, failure = .home cause ∧ raw = .object members ∧
        logsOf ((members.lookup "files").getD (.object [])) = .ok logs ∧
        members.lookup "structs" = some (.array (before ++ item :: after)) ∧
        (∀ other ∈ before, IsEntry tree other) ∧ NamesNoHome tree item cause := by
  constructor
  · rintro ⟨failed, unreported⟩
    rw [ofJson.eq_def] at failed
    extract_lets place at failed
    split at failed
    · next members =>
      split at failed
      · cases failed
        cases unreported
      · next logs files =>
        split at failed
        · cases failed
          cases unreported
        · next cause unread =>
          cases failed
          obtain ⟨before, item, after, same, earlier, lacks⟩ := structsOf_eq_home_iff.1 unread
          refine ⟨cause, members, logs, before, item, after, rfl, rfl, files, ?_, earlier, lacks⟩
          show Json.member? "structs" (.object members) = _
          cases given : Json.member? "structs" (.object members) with
          | none =>
            rw [given] at same
            exact absurd (Json.array.inj same).symm (by simp)
          | some structs =>
            rw [given] at same
            exact congrArg some same
        · cases failed
    · cases failed
      cases unreported
  · rintro ⟨cause, members, logs, before, item, after, rfl, rfl, files, structs, earlier, lacks⟩
    refine ⟨?_, rfl⟩
    have unread : structsOf base tree (.array (before ++ item :: after)) = .error (.home cause) :=
      structsOf_eq_home_iff.2 ⟨before, item, after, rfl, earlier, lacks⟩
    rw [ofJson]
    simp only [Json.member?]
    rw [files, structs, Option.getD_some, unread]

/-- A document spoils the loading if it fails in a way that is not reported, and only then. -/
theorem spoils_iff :
    Spoils tree base content failure ↔
      ofDocument base tree content = .error failure ∧ failure.isReported = false := by
  constructor
  · intro spoils
    cases spoils with
    | noText failed noText =>
      rw [ofDocument, failed]
      exact ⟨rfl, rfl⟩
    | document spelled failed extreme shown =>
      rw [ofDocument, textOfUtf8_eq_ok_iff.2 spelled]
      dsimp only
      rw [failed]
      exact ⟨rfl, beq_false_of_ne extreme⟩
    | home spelled read files structs earlier lacks =>
      rw [ofDocument, textOfUtf8_eq_ok_iff.2 spelled]
      dsimp only
      rw [read]
      exact ofJson_unreported_iff.2
        ⟨_, _, _, _, _, _, rfl, rfl, files, structs, earlier, lacks⟩
  · rintro ⟨failed, unreported⟩
    rw [ofDocument] at failed
    split at failed
    · next undecoded =>
      cases failed
      refine .noText undecoded fun text same => ?_
      rw [textOfUtf8_eq_ok_iff.2 same] at undecoded
      cases undecoded
    · next text decoded =>
      have spelled := textOfUtf8_eq_ok_iff.1 decoded
      split at failed
      · next refusal refused =>
        cases failed
        refine .document spelled refused ?_ (Json.shownBy_read refused)
        rintro rfl
        cases unreported
      · next raw read =>
        obtain ⟨cause, members, logs, before, item, after, rfl, rfl, files, structs, earlier,
          lacks⟩ := ofJson_unreported_iff.1 ⟨failed, unreported⟩
        exact .home spelled read files structs earlier lacks

/-! ### Loading -/

/-- No file has two logs in settings that were read, and every log has a name that it can have. -/
theorem soundLogs_of_ofDocument (found : ofDocument base tree content = .ok settings) :
    settings.base = base ∧ SoundLogs settings.logs := by
  rw [ofDocument] at found
  split at found
  · cases found
  · split at found
    · cases found
    · next raw read =>
      have distinct := Json.distinct_read read
      rw [ofJson.eq_def] at found
      extract_lets place at found
      split at found
      · next members =>
        have files : (((Json.object members).member? "files").getD (.object [])).Distinct := by
          cases known : (Json.object members).member? "files" with
          | none => exact Json.distinct_empty
          | some found => exact distinct.member known
        split at found
        · cases found
        · next logs readLogs =>
          split at found
          · cases found
          · cases found
          · cases found
            exact ⟨rfl, sound_logsOf files readLogs⟩
      · cases found

theorem not_spoils_empty (failure : SettingsFailure) : ¬ Spoils tree base [] failure := by
  intro spoils
  obtain ⟨failed, unreported⟩ := spoils_iff.1 spoils
  have malformed : ofDocument base tree [] = .error (.json (documentPath base) .malformed) := rfl
  rw [malformed] at failed
  cases failed
  cases unreported

/-- Where there is an empty document, new settings are written to it. -/
theorem load_of_empty (proper : base.Proper)
    (held : tree.Holds (documentPath base).text []) :
    ∃ later, load base tree = .ok { base } later ∧
      tree.write (documentPath base).text (document { base }) = .ok later := by
  have isName : Path.IsName "config.json" := by decide
  obtain ⟨later, written⟩ := FileTree.write_of_holds held (document { base })
  refine ⟨later, ?_, written⟩
  rw [load, FileTree.ensureDirectory_of_holds proper isName held]
  dsimp only
  rw [loadDocument, FileTree.examine_of_holds held]
  dsimp only
  rw [create, save, written]

/-- Whatever the document of settings holds, loading it gives settings, or fails and changes
nothing, where files and directories can be read and written. An empty document gives settings
without anything in them, which are written to it; any other one is left as it is. The names of the
logs that are read are not empty, and have no slash in them. A failure is reported as one of the
settings unless the document is of a kind that spoils the loading. -/
theorem load_means (proper : base.Proper) (held : tree.Holds (documentPath base).text content) :
    (∀ settings later, load base tree = .ok settings later →
      settings.base = base ∧ SoundLogs settings.logs ∧
        (∀ failure, ¬ Spoils tree base content failure) ∧
        if content = [] then
          settings = { base } ∧ tree.write (documentPath base).text settings.document = .ok later
        else later = tree) ∧
      ∀ failure later, load base tree = .error failure later →
        content ≠ [] ∧ later = tree ∧
          (failure.isReported = false ↔ Spoils tree base content failure) := by
  by_cases empty : content = []
  · subst empty
    obtain ⟨written, loaded, saved⟩ := load_of_empty proper held
    rw [loaded]
    refine ⟨fun settings later same => ?_, fun failure later impossible => nomatch impossible⟩
    cases same
    rw [if_pos rfl]
    exact ⟨rfl, (sound_empty base).logs, not_spoils_empty, rfl, saved⟩
  · rw [load_eq_of_holds proper empty held]
    cases found : ofDocument base tree content with
    | ok settings =>
      refine ⟨fun settings later same => ?_, fun failure later impossible => nomatch impossible⟩
      cases same
      obtain ⟨same, logs⟩ := soundLogs_of_ofDocument found
      refine ⟨same, logs, fun failure spoils => ?_, by rw [if_neg empty]⟩
      rw [(spoils_iff.1 spoils).1] at found
      cases found
    | error failure =>
      refine ⟨fun settings later impossible => (nomatch impossible), fun failure later same => ?_⟩
      cases same
      refine ⟨empty, rfl, fun unreported => spoils_iff.2 ⟨found, unreported⟩, fun spoils => ?_⟩
      exact (spoils_iff.1 spoils).2

/-- A tree with a document of settings. -/
def documentTree (content : List UInt8) : FileTree where
  entries := [(["cfg"], .directory), (["cfg", "config.json"], .file content)]
  working := []
  home := []

theorem holds_documentTree (content : List UInt8) :
    (documentTree content).Holds (documentPath ⟨"", ["cfg"]⟩).text content :=
  ⟨["cfg", "config.json"], rfl, rfl⟩

theorem load_means_noFiles :
    Path.Proper ⟨"", ["cfg"]⟩ ∧
      (documentTree [0x7B, 0x7D]).Holds (documentPath ⟨"", ["cfg"]⟩).text [0x7B, 0x7D] ∧
      load ⟨"", ["cfg"]⟩ (documentTree [0x7B, 0x7D]) =
        .ok ⟨⟨"", ["cfg"]⟩, [], []⟩ (documentTree [0x7B, 0x7D]) ∧
      ∀ failure, ¬ Spoils (documentTree [0x7B, 0x7D]) ⟨"", ["cfg"]⟩ [0x7B, 0x7D] failure := by
  have proper : Path.Proper ⟨"", ["cfg"]⟩ := ⟨by decide, by decide⟩
  have held := holds_documentTree [0x7B, 0x7D]
  have loaded : load ⟨"", ["cfg"]⟩ (documentTree [0x7B, 0x7D]) =
      .ok ⟨⟨"", ["cfg"]⟩, [], []⟩ (documentTree [0x7B, 0x7D]) := by
    rw [load_eq_of_holds proper (List.cons_ne_nil _ _) held]
    rfl
  obtain ⟨-, -, unspoiled, -⟩ := (load_means proper held).1 _ _ loaded
  exact ⟨proper, held, loaded, unspoiled⟩

/-- Bytes that spell no text are not reported as a failure of the settings, and neither is a struct
in the directory of a user that there is not, or in one of a user whose name has a NUL in it. -/
theorem load_unreported :
    load ⟨"", ["cfg"]⟩ (documentTree [0xFF]) =
        .error (.encoding ⟨0xFF, 0, 0, .start⟩) (documentTree [0xFF]) ∧
      SettingsFailure.isReported (.encoding ⟨0xFF, 0, 0, .start⟩) = false ∧
      (documentTree []).users.lookup "nosuchuser" = none ∧
      structOf ⟨"", ["cfg"]⟩ (documentTree [])
        (.object [("path", .string "~nosuchuser/s.json")]) = .error (.home .unknownUser) ∧
      structOf ⟨"", ["cfg"]⟩ (documentTree [])
        (.object [("path", .string "~a\x00b/s.json")]) = .error (.home .nulInName) ∧
      ∀ cause, SettingsFailure.isReported (.home cause) = false := by
  refine ⟨?_, rfl, rfl, rfl, rfl, fun _ => rfl⟩
  rw [load_eq_of_holds ⟨by decide, by decide⟩ (List.cons_ne_nil _ _) (holds_documentTree _)]
  rfl

end Settings

end HexEditor
