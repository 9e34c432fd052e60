/-
What settings that were read are like. No file has two logs, the name of a log is one that
a directory can hold, and the path of a struct is a path below the base directory, or one of
its own, in which the directory of a user has been put for a tilde. Only a struct at the
root, or at a base directory without names, is without a name.
-/

import HexEditor.Proofs.Json.Members
import HexEditor.Proofs.Number.Numeral
import HexEditor.Proofs.Outcome
import HexEditor.Proofs.Storage.Paths
import HexEditor.Settings

namespace HexEditor

/-! ### Values that stand for a name -/

theorem positionalText_ne_nil (digits : List Char) (point : Int) :
    positionalText digits point ≠ [] := by
  unfold positionalText
  split <;> simp

theorem shortestText_ne_empty (number : Float) : shortestText number ≠ "" := by
  unfold shortestText
  extract_lets fraction sign
  split
  · split
    · simp
    · decide
  · split
    · simp
    · dsimp only
      rw [Ne, String.ofList_eq_empty_iff, List.append_eq_nil_iff, not_and]
      intro _
      split
      · simp [exponentText]
      · exact positionalText_ne_nil _ _

theorem decimalText_ne_empty (value : Int) : decimalText value ≠ "" := by
  unfold decimalText
  extract_lets magnitude
  split
  · simp
  · rw [Ne, String.ofList_eq_empty_iff]
    exact plainText_ne_nil _

namespace Json

theorem shown_ne_empty (value : Json) : value.shown ≠ "" := by
  cases value with
  | null => decide
  | bool value => cases value <;> decide
  | integer value => exact decimalText_ne_empty value
  | fraction value => exact shortestText_ne_empty value
  | string value => simp [shown, quoted]
  | array items => simp [shown]
  | object members => simp [shown]

/-- A value that counts as given stands for a name that is not empty. -/
theorem plain_ne_empty {value : Json} (given : value.isGiven = true) : value.plain ≠ "" := by
  cases value with
  | string value => simpa [isGiven, plain] using given
  | _ => exact shown_ne_empty _

end Json

/-! ### Homes -/

namespace FileTree

/-- The directories of the users are paths that texts can stand for, as those of a system always
are. -/
structure ProperHomes (tree : FileTree) : Prop where
  home : ∀ name ∈ tree.home, Path.IsName name
  users : ∀ user ∈ tree.users, ∀ name ∈ user.2, Path.IsName name

theorem ProperHomes.of_samePlaces {tree later : FileTree} (homes : tree.ProperHomes)
    (home : later.home = tree.home) (users : later.users = tree.users) : later.ProperHomes :=
  ⟨home ▸ homes.home, users ▸ homes.users⟩

end FileTree

namespace Path

/-- A path that does not begin with a tilde for the directory of a user. -/
def HasNoTilde (path : Path) : Prop :=
  path.isAbsolute = true ∨ ∀ first ∈ path.names.head?, first.toList.head? ≠ some '~'

theorem HasNoTilde.join {base path : Path} (plainBase : base.HasNoTilde)
    (plain : path.HasNoTilde) : (base.join path).HasNoTilde := by
  unfold Path.join
  split
  · exact plain
  · next relative =>
    rcases plainBase with absolute | plainBase
    · exact .inl absolute
    · refine .inr ?_
      cases names : base.names with
      | nil => exact plain.resolve_left relative
      | cons first rest =>
        rw [names] at plainBase
        exact plainBase

end Path

namespace Settings

variable {tree : FileTree} {base path expanded : Path}

/-- A path without a tilde is left alone. -/
theorem expandHome_of_hasNoTilde (plain : path.HasNoTilde) : expandHome tree path = .ok path := by
  unfold expandHome
  split
  · next first rest names =>
    split
    · rfl
    · next relative =>
      have apart := plain.resolve_left relative
      rw [names] at apart
      split
      · next name tilde => exact absurd (by rw [tilde]; rfl) (apart first rfl)
      · rfl
  · rfl

theorem isName_of_homeOf {name : List Char} {home : Location} (homes : tree.ProperHomes)
    (found : homeOf tree name = .ok home) : ∀ other ∈ home, Path.IsName other := by
  unfold homeOf at found
  split at found
  · cases found
    exact homes.home
  · split at found
    · cases found
    · split at found
      · next known =>
        cases found
        exact homes.users (String.ofList name, home) (Table.mem_of_lookup known)
      · cases found

/-- With the directory of a user in it, a path is proper and has no tilde. -/
theorem proper_of_expandHome (homes : tree.ProperHomes) (proper : path.Proper)
    (found : expandHome tree path = .ok expanded) : expanded.Proper ∧ expanded.HasNoTilde := by
  unfold expandHome at found
  split at found
  · next first rest names =>
    split at found
    · next absolute =>
      cases found
      exact ⟨proper, .inl absolute⟩
    · split at found
      · next name tilde =>
        obtain ⟨home, known, rfl⟩ := map_eq_ok_iff.1 found
        refine ⟨⟨.inr (.inl rfl), fun other member => ?_⟩, .inl rfl⟩
        rcases List.mem_append.1 member with above | below
        · exact isName_of_homeOf homes known other above
        · exact proper.names other (by rw [names]; exact List.mem_cons_of_mem _ below)
      · next noTilde =>
        cases found
        refine ⟨proper, .inr fun other member begins => ?_⟩
        rw [names] at member
        cases member
        cases characters : first.toList with
        | nil =>
          rw [characters] at begins
          cases begins
        | cons mark others =>
          rw [characters] at begins
          cases begins
          exact noTilde others characters
  · next names =>
    cases found
    exact ⟨proper, .inr fun first member => by rw [names] at member; cases member⟩

/-! ### Directories that cannot be told -/

/-- Why the name of a user leads to no directory. -/
inductive LacksHome (tree : FileTree) (name : List Char) : HomeFailure → Prop where
  | nulInName (nul : '\x00' ∈ name) : LacksHome tree name .nulInName
  | unknownUser (noNul : '\x00' ∉ name) (unknown : tree.users.lookup (String.ofList name) = none) :
      LacksHome tree name .unknownUser

/-- A path begins with a tilde and a name that leads to no directory. -/
def HasNoHome (tree : FileTree) (path : Path) (cause : HomeFailure) : Prop :=
  path.isAbsolute = false ∧ ∃ first rest name, path.names = first :: rest ∧
    first.toList = '~' :: name ∧ name ≠ [] ∧ LacksHome tree name cause

theorem homeOf_eq_error_iff {name : List Char} {cause : HomeFailure} :
    homeOf tree name = .error cause ↔ name ≠ [] ∧ LacksHome tree name cause := by
  unfold homeOf
  split
  · next empty => exact iff_of_false nofun fun lacks => lacks.1 (List.isEmpty_iff.1 empty)
  · next named =>
    rw [List.isEmpty_iff] at named
    split
    · next nul =>
      constructor
      · intro failed
        cases failed
        exact ⟨named, .nulInName nul⟩
      · rintro ⟨-, lacks⟩
        cases lacks with
        | nulInName => rfl
        | unknownUser noNul => exact absurd nul noNul
    · next noNul =>
      split
      · next home known =>
        refine iff_of_false nofun ?_
        rintro ⟨-, lacks⟩
        cases lacks with
        | nulInName nul => exact noNul nul
        | unknownUser _ unknown =>
          rw [known] at unknown
          cases unknown
      · next unknown =>
        constructor
        · intro failed
          cases failed
          exact ⟨named, .unknownUser noNul unknown⟩
        · rintro ⟨-, lacks⟩
          cases lacks with
          | nulInName nul => exact absurd nul noNul
          | unknownUser => rfl

theorem expandHome_eq_error_iff {cause : HomeFailure} :
    expandHome tree path = .error cause ↔ HasNoHome tree path cause := by
  rw [expandHome, HasNoHome]
  cases names : path.names with
  | nil =>
    refine iff_of_false nofun ?_
    rintro ⟨-, first, rest, name, impossible, -⟩
    cases impossible
  | cons first rest =>
    dsimp only
    cases absolute : path.isAbsolute with
    | true => exact iff_of_false nofun fun lacks => nomatch lacks.1
    | false =>
      rw [if_neg Bool.false_ne_true]
      split
      · next name tilde =>
        rw [map_eq_error_iff, homeOf_eq_error_iff]
        constructor
        · exact fun lacks => ⟨rfl, first, rest, name, rfl, tilde, lacks⟩
        · rintro ⟨-, _, _, other, same, spelled, lacks⟩
          cases same
          rw [tilde] at spelled
          cases spelled
          exact lacks
      · next noTilde =>
        refine iff_of_false nofun ?_
        rintro ⟨-, _, _, name, same, spelled, -⟩
        cases same
        exact noTilde name spelled

end Settings

/-! ### Settings -/

/-- The struct of an entry is at a path from the base directory, and only one without names has no
name itself. -/
structure StructEntry.Placed (base : Path) (entry : StructEntry) : Prop where
  joined : ∃ path : Path, path.Proper ∧ path.HasNoTilde ∧ entry.path = base.join path
  named : entry.name = "" → entry.path.names = []

namespace Settings

/-- A name that a log can have. -/
def IsLogName (name : String) : Prop := name ≠ "" ∧ '/' ∉ name.toList

/-- No file has two logs, and every log has a name that it can have. -/
structure SoundLogs (logs : List (String × String)) : Prop where
  distinct : (logs.map Prod.fst).Nodup
  names : ∀ log ∈ logs, IsLogName log.2

/-- What holds of settings that were read. -/
structure Sound (settings : Settings) : Prop where
  logs : SoundLogs settings.logs
  placed : ∀ entry ∈ settings.structs, entry.Placed settings.base

theorem isLogName_of_logNameOf {file : String} {raw : Json} {name : String}
    (found : logNameOf file raw = .ok name) : IsLogName name := by
  unfold logNameOf at found
  split at found
  · split at found
    · cases found
    · next allowed =>
      cases found
      rwa [not_or] at allowed
  · cases found

theorem isLogName_of_log {file : String} {raw : Json} {log : String × String}
    (found : (do return (file, ← logNameOf file raw) : Except SettingsFault (String × String)) =
      .ok log) : log.1 = file ∧ IsLogName log.2 := by
  obtain ⟨name, named, same⟩ := bind_eq_ok_iff.1 found
  cases same
  exact ⟨rfl, isLogName_of_logNameOf named⟩

/-- The files are those of the document, each with a name that a log can have. -/
theorem sound_logsOf {raw : Json} {logs : List (String × String)} (distinct : raw.Distinct)
    (found : logsOf raw = .ok logs) : SoundLogs logs := by
  unfold logsOf at found
  split at found
  · next members =>
    constructor
    · have same : logs.map Prod.fst = members.map Prod.fst := by
        have all := mapM_eq_ok_iff.1 found
        clear found distinct
        induction all with
        | nil => rfl
        | cons first _ inductionHypothesis =>
          rw [List.map_cons, List.map_cons, inductionHypothesis, (isLogName_of_log first).1]
      cases distinct with
      | object names => rwa [same]
    · exact forall_of_mapM found fun _ _ read => (isLogName_of_log read).2
  · cases found

theorem placed_structOf {base : Path} {tree : FileTree} {raw : Json} {entry : StructEntry}
    (properBase : base.Proper) (homes : tree.ProperHomes)
    (found : structOf base tree raw = .ok entry) : entry.Placed base := by
  unfold structOf at found
  split at found
  · next text given =>
    split at found
    · cases found
    · next path known =>
      cases found
      obtain ⟨proper, plain⟩ := proper_of_expandHome homes (Path.proper_ofString text) known
      refine ⟨⟨path, proper, plain, rfl⟩, fun nameless => ?_⟩
      dsimp only at nameless ⊢
      split at nameless
      · next isGiven => exact absurd nameless (Json.plain_ne_empty isGiven)
      · by_contra some
        exact (properBase.join proper).stem_ne_empty some nameless
  · cases found

/-- What holds of settings that were read in a base directory. -/
theorem sound_ofJson {base : Path} {tree : FileTree} {raw : Json} {settings : Settings}
    (properBase : base.Proper) (homes : tree.ProperHomes) (distinct : raw.Distinct)
    (found : ofJson base tree raw = .ok settings) : settings.base = base ∧ settings.Sound := by
  unfold ofJson at found
  extract_lets place at found
  split at found
  · next members =>
    have files : (((Json.object members).member? "files").getD (.object [])).Distinct := by
      cases known : (Json.object members).member? "files" with
      | none => exact Json.distinct_empty
      | some found => exact distinct.member known
    split at found
    · cases found
    · next logs readLogs =>
      split at found
      · cases found
      · cases found
      · next structs readStructs =>
        cases found
        refine ⟨rfl, sound_logsOf files readLogs, ?_⟩
        unfold structsOf at readStructs
        split at readStructs
        · exact forall_of_mapM readStructs fun _ _ => placed_structOf properBase homes
        · cases readStructs
  · cases found

theorem sound_ofDocument {base : Path} {tree : FileTree} {content : List UInt8}
    {settings : Settings} (properBase : base.Proper) (homes : tree.ProperHomes)
    (found : ofDocument base tree content = .ok settings) :
    settings.base = base ∧ settings.Sound := by
  unfold ofDocument at found
  split at found
  · cases found
  · split at found
    · cases found
    · next raw read => exact sound_ofJson properBase homes (Json.distinct_read read) found

end Settings

end HexEditor
