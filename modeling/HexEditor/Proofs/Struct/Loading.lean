/-
Structs that are loaded together. A file is read as the struct that it holds, and the last file of
a name that holds one is what the name stands for; a file that holds none is passed over. There are
files that cannot be passed over, which end the loading with all structs lost: a path that is none
for a NUL in it, and among definitions bytes that spell no text, integers with too many digits,
values nested too deep, and numbers that are too long for the message that refuses them.
-/

import HexEditor.Proofs.Json.Refusals
import HexEditor.Proofs.Layout.Definition
import HexEditor.Proofs.Storage.Trees
import HexEditor.Proofs.Text.Decoding
import HexEditor.StructFile

namespace HexEditor.Struct

variable {tree : FileTree} {path : Path} {struct : Struct} {content : List UInt8}

/-! ### One file -/

/-- The file at a path holds a struct: a layout that a definition in a document describes, or else a
program. -/
inductive Loads (tree : FileTree) (path : Path) : Struct → Prop where
  | layout {text : List Char} {raw : Json} {root : Node} (isLayout : isLayoutPath path = true)
      (held : tree.Holds path.text (utf8Bytes text)) (read : Json.read text = .ok raw)
      (described : root.Described raw) : Loads tree path (.layout root [])
  | program {content : List UInt8} (isProgram : isLayoutPath path = false)
      (held : tree.Holds path.text content) : Loads tree path (.program content.toArray)

/-- What is at a path, or the path itself, ends the loading of structs. -/
inductive Spoils (tree : FileTree) (path : Path) : StructFailure → Prop where
  | nul (inPath : '\x00' ∈ path.text.toList) : Spoils tree path (.file ⟨.nulInPath, path.text⟩)
  | noText {content : List UInt8} {failure : Utf8Failure} (isLayout : isLayoutPath path = true)
      (held : tree.Holds path.text content) (failed : textOfUtf8 content = .error failure)
      (noText : ∀ text, content ≠ utf8Bytes text) : Spoils tree path (.content (.encoding failure))
  | document {text : List Char} {failure : Json.Failure} (isLayout : isLayoutPath path = true)
      (held : tree.Holds path.text (utf8Bytes text)) (failed : Json.read text = .error failure)
      (extreme : failure ≠ .malformed) (shown : failure.ShownBy Json.nestingLimit text) :
      Spoils tree path (.content (.document failure))
  | definition {text : List Char} {raw : Json} (isLayout : isLayoutPath path = true)
      (held : tree.Holds path.text (utf8Bytes text)) (read : Json.read text = .ok raw)
      (failed : Node.ofJson raw = .error .unshowable) (long : raw.HoldsLong) :
      Spoils tree path (.content (.definition .unshowable))

theorem layoutOf_of_read {text : List Char} {raw : Json} (read : Json.read text = .ok raw) :
    layoutOf (utf8Bytes text) = (Node.ofJson raw).mapError .definition := by
  rw [layoutOf, textOfUtf8_utf8Bytes]
  dsimp only
  rw [read]

theorem layoutOf_of_refused {text : List Char} {failure : Json.Failure}
    (failed : Json.read text = .error failure) :
    layoutOf (utf8Bytes text) = .error (.document failure) := by
  rw [layoutOf, textOfUtf8_utf8Bytes]
  dsimp only
  rw [failed]

/-- A content is read as a layout if it is a document that describes it. -/
theorem layoutOf_eq_ok_iff {root : Node} :
    layoutOf content = .ok root ↔
      ∃ text raw, content = utf8Bytes text ∧ Json.read text = .ok raw ∧ root.Described raw := by
  constructor
  · intro done
    rw [layoutOf] at done
    split at done
    · cases done
    · next text decoded =>
      split at done
      · cases done
      · next raw read =>
        exact ⟨text, raw, textOfUtf8_eq_ok_iff.1 decoded, read,
          (Node.ofJson_eq_ok_iff raw root).1 (mapError_eq_ok_iff.1 done)⟩
  · rintro ⟨text, raw, rfl, read, described⟩
    rw [layoutOf_of_read read]
    exact mapError_eq_ok_iff.2 ((Node.ofJson_eq_ok_iff raw root).2 described)

/-- A definition that is not passed over is no text, or asks too much of a reader or a message. -/
theorem spoils_of_layoutOf {failure : ContentFailure} (isLayout : isLayoutPath path = true)
    (held : tree.Holds path.text content) (failed : layoutOf content = .error failure)
    (ends : failure.isPassedOver = false) : Spoils tree path (.content failure) := by
  rw [layoutOf] at failed
  split at failed
  · next undecoded =>
    cases failed
    refine .noText isLayout held undecoded fun text same => ?_
    rw [textOfUtf8_eq_ok_iff.2 same] at undecoded
    cases undecoded
  · next text decoded =>
    rw [textOfUtf8_eq_ok_iff.1 decoded] at held
    split at failed
    · next refusal refused =>
      cases failed
      refine .document isLayout held refused ?_ (Json.shownBy_read refused)
      rintro rfl
      cases ends
    · next raw read =>
      obtain ⟨reason, refused, rfl⟩ := mapError_eq_error_iff.1 failed
      cases reason with
      | unshowable => exact .definition isLayout held read refused (holdsLong_of_ofJson raw refused)
      | _ => cases ends

theorem load_of_holds (held : tree.Holds path.text content) :
    load tree path = (ofContent path content).mapError .content := by
  rw [load, FileTree.read_eq_ok_iff.2 held]

theorem load_eq_ok_iff : load tree path = .ok struct ↔ Loads tree path struct := by
  constructor
  · intro done
    rw [load] at done
    split at done
    · cases done
    · next content read =>
      have held := FileTree.read_eq_ok_iff.1 read
      have found := mapError_eq_ok_iff.1 done
      rw [ofContent] at found
      split at found
      · next isLayout =>
        obtain ⟨root, laidOut, rfl⟩ := map_eq_ok_iff.1 found
        obtain ⟨text, raw, rfl, read, described⟩ := layoutOf_eq_ok_iff.1 laidOut
        exact .layout isLayout held read described
      · next isProgram =>
        cases found
        exact .program (Bool.eq_false_of_not_eq_true isProgram) held
  · intro loads
    cases loads with
    | layout isLayout held read described =>
      rw [load_of_holds held, mapError_eq_ok_iff, ofContent, if_pos isLayout, map_eq_ok_iff]
      exact ⟨_, layoutOf_eq_ok_iff.2 ⟨_, _, rfl, read, described⟩, rfl⟩
    | program isProgram held =>
      rw [load_of_holds held, ofContent, isProgram]
      rfl

/-- The files that end the loading of structs are those that fail without being passed over. -/
theorem spoils_iff {failure : StructFailure} :
    Spoils tree path failure ↔ load tree path = .error failure ∧ failure.isPassedOver = false := by
  constructor
  · intro spoils
    cases spoils with
    | nul inPath =>
      obtain ⟨read, -⟩ := tree.read_eq_nulInPath_iff.2 ⟨inPath, rfl⟩
      rw [load, read]
      exact ⟨rfl, rfl⟩
    | noText isLayout held failed noText =>
      rw [load_of_holds held, ofContent, if_pos isLayout, layoutOf, failed]
      exact ⟨rfl, rfl⟩
    | document isLayout held failed extreme shown =>
      rw [load_of_holds held, ofContent, if_pos isLayout, layoutOf_of_refused failed]
      exact ⟨rfl, beq_false_of_ne extreme⟩
    | definition isLayout held read failed long =>
      rw [load_of_holds held, ofContent, if_pos isLayout, layoutOf_of_read read, failed]
      exact ⟨rfl, rfl⟩
  · rintro ⟨failed, ends⟩
    rw [load] at failed
    split at failed
    · next fault read =>
      cases failed
      have nul : fault.fault = .nulInPath := by
        simpa [StructFailure.isPassedOver] using ends
      obtain ⟨inPath, rfl⟩ := tree.read_eq_nulInPath_iff.1 ⟨read, nul⟩
      exact .nul inPath
    · next content read =>
      have held := FileTree.read_eq_ok_iff.1 read
      obtain ⟨reason, refused, rfl⟩ := mapError_eq_error_iff.1 failed
      rw [ofContent] at refused
      split at refused
      · next isLayout =>
        exact spoils_of_layoutOf isLayout held (map_eq_error_iff.1 refused) ends
      · cases refused

/-! ### All files -/

/-- No file of a name holds a struct. -/
def NoneLoads (tree : FileTree) (name : String) (entries : List StructEntry) : Prop :=
  ∀ entry ∈ entries, entry.name = name → ∀ struct, ¬ Loads tree entry.path struct

/-- A struct is that of the last file of a name that holds one. -/
inductive LastLoaded (tree : FileTree) (name : String) (struct : Struct) : List StructEntry → Prop where
  | here {entry : StructEntry} {rest : List StructEntry} (named : entry.name = name)
      (loads : Loads tree entry.path struct) (last : NoneLoads tree name rest) :
      LastLoaded tree name struct (entry :: rest)
  | later {entry : StructEntry} {rest : List StructEntry} (last : LastLoaded tree name struct rest) :
      LastLoaded tree name struct (entry :: rest)

section Entries

variable {name : String} {entry : StructEntry} {entries rest : List StructEntry}
  {structs loaded : List (String × Struct)}

theorem lastLoaded_cons_iff :
    LastLoaded tree name struct (entry :: rest) ↔
      LastLoaded tree name struct rest ∨
        entry.name = name ∧ Loads tree entry.path struct ∧ NoneLoads tree name rest := by
  constructor
  · intro last
    cases last with
    | here named loads last => exact .inr ⟨named, loads, last⟩
    | later last => exact .inl last
  · rintro (last | ⟨named, loads, last⟩)
    · exact .later last
    · exact .here named loads last

theorem noneLoads_cons_iff :
    NoneLoads tree name (entry :: rest) ↔
      (entry.name = name → ∀ struct, ¬ Loads tree entry.path struct) ∧ NoneLoads tree name rest :=
  List.forall_mem_cons

/-- A file that holds a struct takes the place of those of its name before it. -/
theorem replaces_of_load {found : Struct} (done : load tree entry.path = .ok found) :
    (LastLoaded tree name struct rest ∨
        (Table.set entry.name found structs).lookup name = some struct ∧ NoneLoads tree name rest) ↔
      LastLoaded tree name struct (entry :: rest) ∨
        structs.lookup name = some struct ∧ NoneLoads tree name (entry :: rest) := by
  have loads : Loads tree entry.path struct ↔ found = struct := by
    rw [← load_eq_ok_iff, done, Except.ok.injEq]
  rw [lastLoaded_cons_iff, noneLoads_cons_iff, Table.lookup_set, loads]
  by_cases same : name = entry.name
  · subst same
    have here : ¬ ∀ struct, ¬ Loads tree entry.path struct :=
      fun none => none found (load_eq_ok_iff.1 done)
    simp [here]
  · have apart : entry.name ≠ name := Ne.symm same
    simp [same, apart]

/-- A file that holds no struct changes nothing. -/
theorem keeps_of_load {failure : StructFailure} (failed : load tree entry.path = .error failure) :
    (LastLoaded tree name struct rest ∨
        structs.lookup name = some struct ∧ NoneLoads tree name rest) ↔
      LastLoaded tree name struct (entry :: rest) ∨
        structs.lookup name = some struct ∧ NoneLoads tree name (entry :: rest) := by
  have none (other : Struct) : ¬ Loads tree entry.path other := by
    intro loads
    rw [load_eq_ok_iff.2 loads] at failed
    cases failed
  rw [lastLoaded_cons_iff, noneLoads_cons_iff]
  simp [none]

/-- What a name stands for in the end: what the last file of that name holds, or what it stood for at
first if no file of that name holds a struct. -/
theorem lookup_loadAll (done : loadAll tree structs entries = .ok loaded) :
    loaded.lookup name = some struct ↔
      LastLoaded tree name struct entries ∨
        structs.lookup name = some struct ∧ NoneLoads tree name entries := by
  induction entries generalizing structs with
  | nil =>
    cases done
    have none : ¬ LastLoaded tree name struct [] := nofun
    have vacuous : NoneLoads tree name [] := nofun
    simp [none, vacuous]
  | cons entry rest inductionHypothesis =>
    rw [loadAll] at done
    split at done
    · next loads => exact (inductionHypothesis done).trans (replaces_of_load loads)
    · next failed =>
      split at done
      · exact (inductionHypothesis done).trans (keeps_of_load failed)
      · cases done

theorem not_spoils_of_loads (done : load tree path = .ok struct) (failure : StructFailure) :
    ¬ Spoils tree path failure := by
  intro spoils
  rw [(spoils_iff.1 spoils).1] at done
  cases done

theorem not_spoils_of_passedOver {reason : StructFailure} (failed : load tree path = .error reason)
    (passed : reason.isPassedOver = true) (failure : StructFailure) : ¬ Spoils tree path failure := by
  intro spoils
  obtain ⟨same, ends⟩ := spoils_iff.1 spoils
  rw [failed] at same
  cases same
  rw [passed] at ends
  cases ends

theorem not_spoils_of_loadAll (done : loadAll tree structs entries = .ok loaded) :
    ∀ entry ∈ entries, ∀ failure, ¬ Spoils tree entry.path failure := by
  induction entries generalizing structs with
  | nil => exact nofun
  | cons entry rest inductionHypothesis =>
    rw [loadAll] at done
    rw [List.forall_mem_cons]
    split at done
    · next loads => exact ⟨not_spoils_of_loads loads, inductionHypothesis done⟩
    · next failed =>
      split at done
      · next passed => exact ⟨not_spoils_of_passedOver failed passed, inductionHypothesis done⟩
      · cases done

/-- The first file that cannot be passed over ends the loading. -/
theorem spoils_of_loadAll {failure : StructFailure}
    (failed : loadAll tree structs entries = .error (path, failure)) :
    ∃ before entry after, entries = before ++ entry :: after ∧ entry.path = path ∧
      Spoils tree path failure ∧ ∀ earlier ∈ before, ∀ other, ¬ Spoils tree earlier.path other := by
  induction entries generalizing structs with
  | nil => cases failed
  | cons entry rest inductionHypothesis =>
    have behind {structs : List (String × Struct)}
        (goesOn : loadAll tree structs rest = .error (path, failure))
        (harmless : ∀ other, ¬ Spoils tree entry.path other) :
        ∃ before found after, entry :: rest = before ++ found :: after ∧ found.path = path ∧
          Spoils tree path failure ∧
          ∀ earlier ∈ before, ∀ other, ¬ Spoils tree earlier.path other := by
      obtain ⟨before, found, after, rfl, same, spoils, earlier⟩ := inductionHypothesis goesOn
      exact ⟨entry :: before, found, after, rfl, same, spoils,
        List.forall_mem_cons.2 ⟨harmless, earlier⟩⟩
    rw [loadAll] at failed
    split at failed
    · next loads => exact behind failed (not_spoils_of_loads loads)
    · next reason refused =>
      split at failed
      · next passed => exact behind failed (not_spoils_of_passedOver refused passed)
      · next ends =>
        cases failed
        exact ⟨[], entry, rest, rfl, rfl,
          spoils_iff.2 ⟨refused, Bool.eq_false_of_not_eq_true ends⟩, nofun⟩

end Entries

/-- Structs are loaded from all files of a list, unless one of them cannot be passed over. A name then
stands for what the last file of that name holds that holds a struct, and for nothing if there is no
such file. Otherwise the first file that cannot be passed over ends the loading, and its failure is
all that is left. -/
theorem loadAll_means (tree : FileTree) (entries : List StructEntry) :
    match loadAll tree [] entries with
    | .ok loaded =>
      (∀ entry ∈ entries, ∀ failure, ¬ Spoils tree entry.path failure) ∧
        ∀ name struct, loaded.lookup name = some struct ↔ LastLoaded tree name struct entries
    | .error (path, failure) =>
      ∃ before entry after, entries = before ++ entry :: after ∧ entry.path = path ∧
        Spoils tree path failure ∧
        ∀ earlier ∈ before, ∀ other, ¬ Spoils tree earlier.path other := by
  cases ended : loadAll tree [] entries with
  | ok loaded =>
    refine ⟨not_spoils_of_loadAll ended, fun name struct => ?_⟩
    have nothing : (([] : List (String × Struct)).lookup name = some struct) = False :=
      eq_false nofun
    rw [lookup_loadAll ended, nothing, false_and, or_false]
  | error failed =>
    obtain ⟨path, failure⟩ := failed
    exact spoils_of_loadAll ended

/-- A tree with a definition that is a single byte, which no text begins with, and a program. -/
def brokenTree : FileTree where
  entries := [(["broken.json"], .file [0xFF]), (["program"], .file [0])]
  working := []
  home := []

/-- Bytes that spell no text are not passed over, and a struct behind them is not loaded. -/
theorem loadAll_noText :
    loadAll brokenTree [] [⟨"broken", ⟨"", ["broken.json"]⟩⟩, ⟨"program", ⟨"", ["program"]⟩⟩] =
        .error (⟨"", ["broken.json"]⟩, .content (.encoding ⟨0xFF, 0, 0, .start⟩)) ∧
      loadAll brokenTree [] [⟨"program", ⟨"", ["program"]⟩⟩] =
        .ok [("program", .program #[0])] :=
  ⟨rfl, rfl⟩

end HexEditor.Struct
