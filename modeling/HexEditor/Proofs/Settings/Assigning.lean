/-
Logs stay with their files. The settings are asked for logs again and again, with the editor being
started anew in between and files coming and going around the document. What one step keeps is
that the settings are sound, no two files have one log, and the document is read with the logs that
they have, unless a struct of theirs is in the directory of a user that is not known. So a file that
was given a log once is given it ever after, and no other file is. That a document cannot be read
which could be read before happens only with a base directory that begins with a tilde: relative
paths are written with that directory in front of them, and then its name is taken for a user's.
-/

import HexEditor.Proofs.Settings.Reloading

namespace HexEditor.Settings

variable {settings later : Settings} {tree saved : FileTree} {base : Path} {file : String}

/-! ### Paths of logs -/

/-- Logs with different names have different paths. -/
theorem eq_of_append_eq {first second : String} (isFirst : IsLogName first)
    (isSecond : IsLogName second) (same : base.append first = base.append second) :
    first = second := by
  have shape {name : String} (isLogName : IsLogName name) :
      base.append name = { base with names := base.names ++ if name = "." then [] else [name] } := by
    by_cases dot : name = "."
    · rw [dot, if_pos rfl]
      rfl
    · rw [if_neg dot]
      exact Path.append_name ⟨isLogName.1, dot, isLogName.2⟩
  rw [shape isFirst, shape isSecond] at same
  have ends := List.append_cancel_left (congrArg Path.names same)
  by_cases firstDot : first = "." <;> by_cases secondDot : second = "." <;> simp_all

/-- The path of a log that a file is given: that of the log it has, where nothing changes, or else
that of a new one. A new log has the first number under which no file has a log and nothing is in the
base directory, and the settings with it are saved. -/
inductive Given (settings : Settings) (tree : FileTree) (file : String) : Prop where
  | known {name : String} (listed : (fileKey tree file, name) ∈ settings.logs)
      (answered : settings.logPathFor tree file = (.ok (settings.base.append name), settings, tree))
  | new {number : Nat} {saved : FileTree} (unlisted : fileKey tree file ∉ settings.logs.map Prod.fst)
      (answered : settings.logPathFor tree file =
        (.ok (settings.base.append (logName number)),
          settings.withLog (fileKey tree file) (logName number), saved))
      (unused : logName number ∉ settings.logs.map Prod.snd)
      (absent : tree.at? (settings.base.append (logName number)).text = none)
      (first : ∀ passed < number, logName passed ∈ settings.logs.map Prod.snd ∨
        (tree.at? (settings.base.append (logName passed)).text).isSome = true)
      (places : tree.SamePlaces saved)
      (held : saved.Holds (documentPath settings.base).text
        (settings.withLog (fileKey tree file) (logName number)).document)

/-- Every file is given a log where settings are held. -/
theorem given_of_holds (proper : settings.base.Proper) {content : List UInt8}
    (held : tree.Holds (documentPath settings.base).text content) (file : String) :
    settings.Given tree file := by
  cases found : settings.logs.lookup (fileKey tree file) with
  | some name =>
    refine .known (Table.mem_of_lookup found) ?_
    rw [logPathFor, ← fileKey, found]
  | none =>
    have new : fileKey tree file ∉ settings.logs.map Prod.fst := by
      intro listed
      obtain ⟨log, member, same⟩ := List.mem_map.1 listed
      have apart := List.lookup_eq_none_iff.1 found log member
      rw [same] at apart
      simp at apart
    obtain ⟨number, saved, answered, heldLater, places, free, first⟩ :=
      settings.logPathFor_new proper held new
    have notTaken : ¬ settings.isTaken tree (logName number) = true := by
      rw [free]
      exact Bool.false_ne_true
    rw [isTaken_iff, not_or, Option.not_isSome_iff_eq_none] at notTaken
    exact .new new answered notTaken.1 notTaken.2
      (fun passed below => isTaken_iff.1 (first passed below)) places heldLater

/-! ### Settings that are kept -/

/-- A content is read with the logs that settings have, unless the directory of a user that they name
cannot be told. -/
def ReadsBack (settings : Settings) (tree : FileTree) (content : List UInt8) : Prop :=
  (∃ again, ofDocument settings.base tree content = .ok again ∧ again.logs.Perm settings.logs) ∨
    ∃ cause, ofDocument settings.base tree content = .error (.home cause) ∧
      ∃ entry ∈ settings.structs, expandHome tree entry.path = .error cause

/-- Settings are sound, no two files have one log, and the document is read with their logs. -/
structure Kept (settings : Settings) (tree : FileTree) : Prop where
  sound : settings.Sound
  distinct : (settings.logs.map Prod.snd).Nodup
  homes : tree.ProperHomes
  document : ∃ content, content ≠ [] ∧
    tree.Holds (documentPath settings.base).text content ∧ settings.ReadsBack tree content

/-- Settings that were loaded are kept if no two files have one log. -/
theorem kept_of_load {start : FileTree} (proper : base.Proper) (homes : start.ProperHomes)
    (loaded : load base start = .ok settings tree)
    (distinct : (settings.logs.map Prod.snd).Nodup) : settings.base = base ∧ settings.Kept tree := by
  obtain ⟨rfl, sound, places, content, some, held, found⟩ := read_of_load proper homes loaded
  exact ⟨rfl, sound, distinct, homes.of_samePlaces places.home places.users, content, some, held,
    .inl ⟨settings, found, .refl _⟩⟩

/-- What is kept in a tree is kept in another one that has the document. -/
theorem Kept.of_samePlaces {other : FileTree} (kept : settings.Kept tree)
    (places : tree.SamePlaces other)
    (same : ∀ content, tree.Holds (documentPath settings.base).text content →
      other.Holds (documentPath settings.base).text content) : settings.Kept other := by
  obtain ⟨content, some, held, readsBack⟩ := kept.document
  refine ⟨kept.sound, kept.distinct, kept.homes.of_samePlaces places.home places.users, content, some,
    same content held, ?_⟩
  rwa [ReadsBack, ofDocument_of_samePlaces places, expandHome_of_samePlaces places]

/-- Settings that are given one more log are kept. -/
theorem Kept.withLog {key name : String} (proper : settings.base.Proper) (kept : settings.Kept tree)
    (new : key ∉ settings.logs.map Prod.fst) (unused : name ∉ settings.logs.map Prod.snd)
    (isLogName : IsLogName name) (places : tree.SamePlaces saved)
    (held : saved.Holds (documentPath settings.base).text (settings.withLog key name).document) :
    (settings.withLog key name).Kept saved := by
  have logs := kept.sound.logs.add new isLogName
  have properPaths : ∀ entry ∈ settings.structs, entry.path.Proper := by
    intro entry member
    obtain ⟨path, properPath, -, joined⟩ := (kept.sound.placed entry member).joined
    rw [joined]
    exact proper.join properPath
  refine ⟨⟨logs, kept.sound.placed⟩, ?_, kept.homes.of_samePlaces places.home places.users, _,
    document_ne_nil _, held, ?_⟩
  · rw [Settings.withLog, List.map_append, List.map_singleton]
    exact List.nodup_append_comm.1 (List.nodup_cons.2 ⟨unused, kept.distinct⟩)
  · have readBack := (settings.withLog key name).ofDocument_cases saved logs properPaths
    rcases readBack with ⟨⟨structs, read⟩, -⟩ | unknown
    · exact .inl ⟨_, read, perm_logs_reread _⟩
    · exact .inr unknown

/-- Where the document of a directory is held, the path to that directory does not begin with a user
whose name has a NUL in it. -/
theorem expandHome_join_ne_nulInName {path : Path} {content : List UInt8} (proper : base.Proper)
    (held : tree.Holds (documentPath base).text content) (plain : path.HasNoTilde) :
    expandHome tree (base.join path) ≠ .error .nulInName := by
  intro failed
  obtain ⟨relative, first, rest, name, names, tilde, -, lacks⟩ := expandHome_eq_error_iff.1 failed
  obtain ⟨location, located, -⟩ := held
  have noNul := (FileTree.locate_eq_ok_iff.1 located).2.1
  cases lacks with
  | nulInName nul =>
    unfold Path.join at relative names
    split at names
    · next absolute =>
      rw [if_pos absolute, absolute] at relative
      cases relative
    · next inBase =>
      cases above : base.names with
      | nil =>
        rw [above, List.nil_append] at names
        refine plain.resolve_left inBase first ?_ ?_
        · rw [names, List.head?_cons, Option.mem_some_iff]
        · rw [tilde, List.head?_cons]
      | cons other others =>
        rw [above, List.cons_append] at names
        cases names
        have inName : '\x00' ∈ first.toList := by
          rw [tilde]
          exact List.mem_cons_of_mem _ nul
        have inDocument : first ∈ (documentPath base).names := by
          rw [documentPath, Path.append_name (by decide), above]
          exact List.mem_cons_self
        have properDocument : (documentPath base).Proper :=
          proper.join (Path.proper_ofString "config.json")
        exact noNul (properDocument.mem_text inDocument inName)

/-- Settings that are kept are loaded with the logs that they have, or cannot be loaded because of a
user that is not known. A base directory without a tilde cannot be taken for such a user. -/
theorem Kept.load (proper : settings.base.Proper) (kept : settings.Kept tree) :
    match load settings.base tree with
    | .ok again same => same = tree ∧ again.logs.Perm settings.logs
    | .error failure same => same = tree ∧ failure = .home .unknownUser ∧
      ¬ settings.base.HasNoTilde ∧
      ∃ entry ∈ settings.structs, expandHome tree entry.path = .error .unknownUser := by
  obtain ⟨content, some, held, readsBack⟩ := kept.document
  rw [load_eq_of_holds proper some held]
  rcases readsBack with ⟨again, read, same⟩ | ⟨cause, failed, entry, member, unknown⟩
  · rw [read]
    exact ⟨rfl, same⟩
  · rw [failed]
    obtain ⟨path, -, plain, joined⟩ := (kept.sound.placed entry member).joined
    have tilde : ¬ settings.base.HasNoTilde := by
      intro plainBase
      rw [joined, expandHome_of_hasNoTilde (plainBase.join plain)] at unknown
      cases unknown
    cases cause with
    | unknownUser => exact ⟨rfl, rfl, tilde, entry, member, unknown⟩
    | nulInName =>
      rw [joined] at unknown
      exact absurd unknown (expandHome_join_ne_nulInName proper held plain)

/-! ### Steps and runs -/

/-- What happens in a step, with the answer that is given: a file asks for its log and is told a path,
the settings are loaded again, or something happens elsewhere in the tree. -/
inductive Step : Settings → FileTree → List (String × Path) → Settings → FileTree → Prop where
  | ask {settings later : Settings} {tree saved : FileTree} (file : String) {path : Path}
      (answered : settings.logPathFor tree file = (.ok path, later, saved)) :
      Step settings tree [(fileKey tree file, path)] later saved
  | reload {settings again : Settings} {tree same : FileTree}
      (loaded : load settings.base tree = .ok again same) : Step settings tree [] again same
  | elsewhere {settings : Settings} {tree other : FileTree} (places : tree.SamePlaces other)
      (kept : ∀ content, tree.Holds (documentPath settings.base).text content →
        other.Holds (documentPath settings.base).text content) :
      Step settings tree [] settings other

/-- A run of steps, with all answers in their order. -/
inductive Run (settings : Settings) (tree : FileTree) :
    List (String × Path) → Settings → FileTree → Prop where
  | start : Run settings tree [] settings tree
  | step {before new : List (String × Path)} {middle later : Settings} {between saved : FileTree}
      (run : Run settings tree before middle between) (step : Step middle between new later saved) :
      Run settings tree (before ++ new) later saved

/-- What came of settings: they are kept in the same directory and have all logs that they had, and
those that were answers. -/
structure Grown (settings : Settings) (answers : List (String × Path)) (later : Settings)
    (saved : FileTree) : Prop where
  base : later.base = settings.base
  kept : later.Kept saved
  logs : settings.logs ⊆ later.logs
  answers : ∀ answer ∈ answers,
    ∃ name, (answer.1, name) ∈ later.logs ∧ answer.2 = settings.base.append name

theorem grown_ask {path : Path} (proper : settings.base.Proper) (kept : settings.Kept tree)
    (answered : settings.logPathFor tree file = (.ok path, later, saved)) :
    settings.Grown [(fileKey tree file, path)] later saved := by
  obtain ⟨content, -, held, -⟩ := kept.document
  cases given_of_holds proper held file with
  | known listed known =>
    rw [known] at answered
    cases answered
    exact ⟨rfl, kept, List.Subset.refl _, List.forall_mem_singleton.2 ⟨_, listed, rfl⟩⟩
  | new unlisted new unused absent first places held =>
    rw [new] at answered
    cases answered
    have grown := kept.withLog proper unlisted unused (isLogName_logName _) places held
    exact ⟨rfl, grown, List.subset_append_left _ _, List.forall_mem_singleton.2
      ⟨_, List.mem_append_right _ List.mem_cons_self, rfl⟩⟩

theorem grown_reload {again : Settings} {same : FileTree} (proper : settings.base.Proper)
    (kept : settings.Kept tree) (loaded : load settings.base tree = .ok again same) :
    settings.Grown [] again same := by
  have found := kept.load proper
  rw [loaded] at found
  obtain ⟨-, logs⟩ := found
  have distinct : (again.logs.map Prod.snd).Nodup := (logs.map Prod.snd).nodup_iff.2 kept.distinct
  obtain ⟨sameBase, keptAgain⟩ := kept_of_load proper kept.homes loaded distinct
  exact ⟨sameBase, keptAgain, logs.symm.subset, nofun⟩

/-- A step keeps what is kept. -/
theorem grown_step {answers : List (String × Path)} (proper : settings.base.Proper)
    (kept : settings.Kept tree) (step : Step settings tree answers later saved) :
    settings.Grown answers later saved := by
  cases step with
  | ask file answered => exact grown_ask proper kept answered
  | reload loaded => exact grown_reload proper kept loaded
  | elsewhere places same => exact ⟨rfl, kept.of_samePlaces places same, List.Subset.refl _, nofun⟩

/-- What came of settings in a run. -/
theorem grown_run {answers : List (String × Path)} (proper : settings.base.Proper)
    (kept : settings.Kept tree) (run : Run settings tree answers later saved) :
    settings.Grown answers later saved := by
  induction run with
  | start => exact ⟨rfl, kept, List.Subset.refl _, nofun⟩
  | step _ step inductionHypothesis =>
    obtain ⟨sameBase, keptMiddle, logs, before⟩ := inductionHypothesis
    rw [← sameBase] at proper
    obtain ⟨laterBase, keptLater, more, new⟩ := grown_step proper keptMiddle step
    refine ⟨laterBase.trans sameBase, keptLater, List.Subset.trans logs more, fun answer member => ?_⟩
    rcases List.mem_append.1 member with old | added
    · obtain ⟨name, listed, told⟩ := before answer old
      exact ⟨name, more listed, told⟩
    · rw [← sameBase]
      exact new answer added

/-- Two answers tell the same path if they are for the same file, and only then. -/
theorem Grown.answers_eq_iff {answers : List (String × Path)}
    (grown : settings.Grown answers later saved) {first second : String × Path}
    (isFirst : first ∈ answers) (isSecond : second ∈ answers) :
    first.1 = second.1 ↔ first.2 = second.2 := by
  obtain ⟨firstName, firstListed, firstTold⟩ := grown.answers first isFirst
  obtain ⟨secondName, secondListed, secondTold⟩ := grown.answers second isSecond
  have logs := grown.kept.sound.logs
  constructor
  · intro sameFile
    have same := List.inj_on_of_nodup_map logs.distinct firstListed secondListed sameFile
    rw [firstTold, secondTold, (Prod.mk.inj same).2]
  · intro samePath
    rw [firstTold, secondTold] at samePath
    have sameName := eq_of_append_eq (logs.names _ firstListed) (logs.names _ secondListed) samePath
    exact (Prod.mk.inj (List.inj_on_of_nodup_map grown.kept.distinct firstListed secondListed
      sameName)).1

/-- Settings are loaded in which no two files have one log. Whatever is asked of them then, however
often they are loaded again and whatever happens in the tree around their document: all logs stay with
their files, and two answers tell the same path if and only if they are for the same file. Every file
is given a log, at once, and a new one has the first name that no log and nothing in the directory
has. And the settings are always loaded again with the logs that they have, unless the base directory
begins with a tilde and a struct is in the directory of a user that is not known. -/
theorem logs_never_shared {start : FileTree} {answers : List (String × Path)} (proper : base.Proper)
    (homes : start.ProperHomes) (loaded : load base start = .ok settings tree)
    (distinct : (settings.logs.map Prod.snd).Nodup)
    (run : Run settings tree answers later saved) :
    ((later.logs.map Prod.fst).Nodup ∧ (later.logs.map Prod.snd).Nodup ∧
        settings.logs ⊆ later.logs ∧
        ∀ answer ∈ answers, ∃ name, (answer.1, name) ∈ later.logs ∧ answer.2 = base.append name) ∧
      (∀ first ∈ answers, ∀ second ∈ answers, first.1 = second.1 ↔ first.2 = second.2) ∧
      (∀ file, later.Given saved file) ∧
      match load base saved with
      | .ok again same => same = saved ∧ again.logs.Perm later.logs
      | .error failure same => same = saved ∧ failure = .home .unknownUser ∧ ¬ base.HasNoTilde ∧
        ∃ entry ∈ later.structs, expandHome saved entry.path = .error .unknownUser := by
  obtain ⟨rfl, kept⟩ := kept_of_load proper homes loaded distinct
  have grown := grown_run proper kept run
  have sameBase := grown.base
  have loadsAgain := grown.kept.load (sameBase ▸ proper)
  rw [sameBase] at loadsAgain
  obtain ⟨content, -, held, -⟩ := grown.kept.document
  exact ⟨⟨grown.kept.sound.logs.distinct, grown.kept.distinct, grown.logs, grown.answers⟩,
    fun _ isFirst _ isSecond => grown.answers_eq_iff isFirst isSecond,
    given_of_holds (sameBase ▸ proper) held, loadsAgain⟩

/-- An absolute path to the directory of the example. -/
def workBase : Path := ⟨"/", ["work", "cfg"]⟩

/-- Two files that ask for their logs one after the other are told two paths, and the settings are
loaded again with both logs. -/
theorem logs_never_shared_twoFiles :
    ∃ first second later saved again,
      Run (pairSettings workBase).reread pairTree [("/work/x", first), ("/work/y", second)] later saved ∧
        first ≠ second ∧ load workBase saved = .ok again saved ∧ again.logs.Perm later.logs := by
  have proper : workBase.Proper := ⟨by decide, by decide⟩
  have located : pairTree.locate (documentPath workBase).text = .ok ["work", "cfg", "config.json"] := by
    decide +kernel
  have loaded := load_pairTree proper located
  have noLogs := logs_reread_pairSettings workBase
  have distinct : ((pairSettings workBase).reread.logs.map Prod.snd).Nodup := by
    rw [noLogs]
    exact List.nodup_nil
  have keyX : fileKey pairTree "x" = "/work/x" := by decide +kernel
  have newX : fileKey pairTree "x" ∉ (pairSettings workBase).reread.logs.map Prod.fst := by
    rw [noLogs]
    exact List.not_mem_nil
  obtain ⟨firstNumber, middle, askedX, held, places, -⟩ :=
    logPathFor_new (pairSettings workBase).reread proper ⟨_, located, rfl⟩ newX
  have keyY : fileKey middle "y" = "/work/y" := by
    rw [fileKey, places.working]
    decide +kernel
  have differ : "/work/y" ≠ "/work/x" := by decide
  have newY : fileKey middle "y" ∉ (((pairSettings workBase).reread.withLog (fileKey pairTree "x")
      (logName firstNumber)).logs.map Prod.fst) := by
    rw [withLog, noLogs, keyX, keyY, List.nil_append, List.map_singleton, List.mem_singleton]
    exact differ
  obtain ⟨secondNumber, saved, askedY, -⟩ := logPathFor_new
    ((pairSettings workBase).reread.withLog (fileKey pairTree "x") (logName firstNumber))
    proper held newY
  have run := Run.step (.step .start (.ask "x" askedX)) (.ask "y" askedY)
  obtain ⟨-, apart, -, reloads⟩ :=
    logs_never_shared proper properHomes_pairTree loaded distinct run
  rw [keyX, keyY] at run apart
  have paths := apart _ List.mem_cons_self _ (List.mem_cons_of_mem _ List.mem_cons_self)
  cases reloaded : load workBase saved with
  | ok again same =>
    rw [reloaded] at reloads
    obtain ⟨rfl, logs⟩ := reloads
    rw [keyX, keyY] at logs
    exact ⟨_, _, _, same, again, run, fun same => differ (paths.2 same).symm, reloaded, logs⟩
  | error failure same =>
    rw [reloaded] at reloads
    exact absurd (.inl rfl) reloads.2.2.1

/-- A tree in which such settings are kept in a directory whose name begins with a tilde. -/
def tildeTree : FileTree where
  entries := [(["work"], .directory), (["work", "~nouser"], .directory),
    (["work", "~nouser", "config.json"], .file (pairSettings {}).document)]
  working := ["work"]
  home := ["work"]

/-- The path to that directory. -/
def tildeBase : Path := ⟨"", ["~nouser"]⟩

/-- There the path of the struct is saved behind a name that is taken for that of a user, so that
settings that are given a log cannot be loaded again. -/
theorem load_after_tilde :
    load tildeBase tildeTree = .ok (pairSettings tildeBase).reread tildeTree ∧
      ∃ path later saved,
        (pairSettings tildeBase).reread.logPathFor tildeTree "x" = (.ok path, later, saved) ∧
          load tildeBase saved = .error (.home .unknownUser) saved := by
  have proper : tildeBase.Proper := ⟨by decide, by decide⟩
  have homes : tildeTree.ProperHomes := ⟨by decide, by decide⟩
  have located : tildeTree.locate (documentPath tildeBase).text =
      .ok ["work", "~nouser", "config.json"] := by decide +kernel
  have held : tildeTree.Holds (documentPath tildeBase).text (pairSettings tildeBase).document :=
    ⟨_, located, rfl⟩
  have loaded := load_pairSettings proper held
  have new : fileKey tildeTree "x" ∉ (pairSettings tildeBase).reread.logs.map Prod.fst := by
    rw [logs_reread_pairSettings]
    exact List.not_mem_nil
  obtain ⟨number, saved, asked, heldLater, places, -⟩ :=
    logPathFor_new (pairSettings tildeBase).reread proper held new
  refine ⟨loaded, _, _, saved, asked, ?_⟩
  have logs := (sound_of_load proper homes loaded).2.1.logs.add new (isLogName_logName number)
  have entries : ∀ entry ∈ (pairSettings tildeBase).reread.structs, entry.path.Proper ∧
      expandHome saved entry.path = .error .unknownUser := by
    intro entry member
    rw [List.mem_singleton.1 member, expandHome_of_samePlaces places]
    exact ⟨⟨.inl rfl, by decide⟩, rfl⟩
  have readBack := ofDocument_cases
    ((pairSettings tildeBase).reread.withLog (fileKey tildeTree "x") (logName number)) saved logs
    fun entry member => (entries entry member).1
  rcases readBack with ⟨-, known⟩ | ⟨cause, failed, entry, member, unknown⟩
  · obtain ⟨path, expanded⟩ := known _ List.mem_cons_self
    rw [(entries _ List.mem_cons_self).2] at expanded
    cases expanded
  · rw [(entries entry member).2] at unknown
    cases unknown
    have read : ofDocument tildeBase saved ((pairSettings tildeBase).reread.withLog
        (fileKey tildeTree "x") (logName number)).document = .error (.home .unknownUser) := failed
    rw [load_eq_of_holds proper (document_ne_nil _) heldLater, read]

end HexEditor.Settings
