/-
Settings: which log belongs to which file, and which structs are known. They are kept
in one document in a base directory, together with the logs. A file without a log is
given the first name that no other file has and that is not taken in the directory,
and the assignment is saved at once.
-/

import HexEditor.Json.Writer
import HexEditor.StructFile

namespace HexEditor

/-- The settings. -/
structure Settings where
  /-- The directory that the document and the logs are in. -/
  base : Path
  /-- The names of the logs of files, which go by their absolute paths. -/
  logs : List (String × String) := []
  structs : List StructEntry := []
  deriving DecidableEq, Repr

/-- What is wrong with a document of settings. -/
inductive SettingsFault where
  | noObject
  | logsNoObject
  | logName (file : String)
  | structsNoList
  | structWithoutPath
  deriving DecidableEq, Repr

def SettingsFault.message : SettingsFault → String
  | .noObject => "expected a JSON object"
  | .logsNoObject => "'files' must be an object"
  | .logName file => "invalid undo_file_name for " ++ quoted file
  | .structsNoList => "'structs' must be a list"
  | .structWithoutPath => "struct entries need a 'path'"

/-- Why the directory of a user cannot be told. -/
inductive HomeFailure where
  | unknownUser
  /-- The name of the user has a NUL in it, which is not even looked up. -/
  | nulInName
  deriving DecidableEq, Repr

def HomeFailure.message : HomeFailure → String
  | .unknownUser => "Could not determine home directory."
  | .nulInName => FileFault.nulInPath.message

/-- Why settings cannot be read. -/
inductive SettingsFailure where
  | base (path : Path) (failure : FileFailure)
  | document (path : Path) (failure : FileFailure)
  | json (path : Path) (failure : Json.Failure)
  | fault (path : Path) (fault : SettingsFault)
  | encoding (failure : Utf8Failure)
  /-- The document cannot be written, or even looked for. -/
  | file (failure : FileFailure)
  /-- A path begins with the name of a user whose directory cannot be told. -/
  | home (failure : HomeFailure)

def SettingsFailure.message : SettingsFailure → String
  | .base path failure => "Failed to create " ++ path.text ++ ": " ++ failure.message
  | .document path failure => path.text ++ ": " ++ failure.message
  | .json path .malformed => path.text ++ ": " ++ Json.Failure.malformed.message
  | .json _ failure => failure.message
  | .fault path found => path.text ++ ": " ++ found.message
  | .encoding failure => failure.message
  | .file failure => failure.message
  | .home failure => failure.message

namespace Settings

def defaultBase (home : Location) : Path := { root := "/", names := home ++ [".hexstruct"] }

def documentPath (base : Path) : Path := base.append "config.json"

/-! ### Writing -/

/-- The settings as they are written, with files in the order of their paths. -/
def toJson (settings : Settings) : Json :=
  let logs := settings.logs.mergeSort fun first second => first.1 ≤ second.1
  .object [
    ("files", .object (logs.map fun (file, log) =>
      (file, .object [("undo_file_name", .string log)]))),
    ("structs", .array (settings.structs.map fun entry =>
      .object [("name", .string entry.name), ("path", .string entry.path.text)]))]

def document (settings : Settings) : List UInt8 :=
  utf8Bytes (settings.toJson.indented 0 ++ ['\n'])

def save (settings : Settings) (tree : FileTree) : Except FileFailure FileTree :=
  tree.write (documentPath settings.base).text settings.document

/-! ### Reading -/

/-- The name of the log of a file, by what the document says of the file. -/
def logNameOf (file : String) (raw : Json) : Except SettingsFault String :=
  match raw.member? "undo_file_name" with
  | some (.string name) =>
    if name = "" ∨ '/' ∈ name.toList then .error (.logName file) else .ok name
  | _ => .error (.logName file)

def logsOf (raw : Json) : Except SettingsFault (List (String × String)) :=
  match raw with
  | .object members => members.mapM fun (file, entry) => do return (file, ← logNameOf file entry)
  | _ => .error .logsNoObject

/-- The directory of the user of a name; no name stands for the user of the program. -/
def homeOf (tree : FileTree) (name : List Char) : Except HomeFailure Location :=
  if name.isEmpty then
    .ok tree.home
  else if '\x00' ∈ name then
    .error .nulInName
  else
    match tree.users.lookup (String.ofList name) with
    | some home => .ok home
    | none => .error .unknownUser

/-- A path in which the directory of a user may be written as a tilde and the name of the user, or
as a tilde alone for the user of the program. -/
def expandHome (tree : FileTree) (path : Path) : Except HomeFailure Path :=
  match path.names with
  | first :: rest =>
    if path.isAbsolute then
      .ok path
    else
      match first.toList with
      | '~' :: name => (homeOf tree name).map fun home => { root := "/", names := home ++ rest }
      | _ => .ok path
  | [] => .ok path

/-- Why an entry of the list of structs is none. -/
inductive EntryFailure where
  | fault (fault : SettingsFault)
  | home (failure : HomeFailure)

/-- The entry of a struct, by what the document says of it. -/
def structOf (base : Path) (tree : FileTree) (raw : Json) : Except EntryFailure StructEntry :=
  match raw.member? "path" with
  | some (.string text) =>
    match expandHome tree (Path.ofString text) with
    | .error failure => .error (.home failure)
    | .ok path =>
      let path := base.join path
      let name := (raw.member? "name").getD .null
      .ok ⟨if name.isGiven then name.plain else path.stem, path⟩
  | _ => .error (.fault .structWithoutPath)

def structsOf (base : Path) (tree : FileTree) (raw : Json) :
    Except EntryFailure (List StructEntry) :=
  match raw with
  | .array items => items.mapM (structOf base tree)
  | _ => .error (.fault .structsNoList)

def ofJson (base : Path) (tree : FileTree) (raw : Json) : Except SettingsFailure Settings :=
  let place := documentPath base
  match raw with
  | .object _ =>
    match logsOf ((raw.member? "files").getD (.object [])) with
    | .error fault => .error (.fault place fault)
    | .ok logs =>
      match structsOf base tree ((raw.member? "structs").getD (.array [])) with
      | .error (.fault fault) => .error (.fault place fault)
      | .error (.home failure) => .error (.home failure)
      | .ok structs => .ok { base, logs, structs }
  | _ => .error (.fault place .noObject)

def ofDocument (base : Path) (tree : FileTree) (content : List UInt8) :
    Except SettingsFailure Settings :=
  match textOfUtf8 content with
  | .error failure => .error (.encoding failure)
  | .ok text =>
    match Json.read text with
    | .error failure => .error (.json (documentPath base) failure)
    | .ok raw => ofJson base tree raw

/-- Settings without anything in them, written down. -/
def create (base : Path) : EStateM SettingsFailure FileTree Settings := fun tree =>
  let fresh : Settings := { base }
  match fresh.save tree with
  | .ok tree => .ok fresh tree
  | .error failure => .error (.file failure) tree

/-- Reads the document of a base directory that is there. Without a document, or with an empty one,
there are no settings yet, and that is written down. -/
def loadDocument (base : Path) : EStateM SettingsFailure FileTree Settings := fun tree =>
  let place := documentPath base
  match tree.examine place.text with
  | .error failure => .error (.file failure) tree
  | .ok none => create base tree
  | .ok (some (.file [])) => create base tree
  | .ok (some _) =>
    match tree.read place.text with
    | .error failure => .error (.document place failure) tree
    | .ok content =>
      match ofDocument base tree content with
      | .ok settings => .ok settings tree
      | .error failure => .error failure tree

def baseFailure (base : Path) (failure : FileFailure) : SettingsFailure :=
  if failure.fault = .nulInPath then .file failure else .base base failure

/-- Reads the settings in a base directory, which is made if it is not there. -/
def load (base : Path) : EStateM SettingsFailure FileTree Settings := fun tree =>
  match FileTree.ensureDirectory base tree with
  | .error failure tree => .error (baseFailure base failure) tree
  | .ok () tree => loadDocument base tree

/-! ### Logs -/

def logName (number : Nat) : String := "undo-" ++ decimalText number

/-- Whether a log cannot have a name: a file has it, or there is something of that name. -/
def isTaken (settings : Settings) (tree : FileTree) (name : String) : Bool :=
  (settings.logs.map Prod.snd).contains name ||
    (tree.at? (settings.base.append name).text).isSome

/-- The first free name from a number on, looking at as many as `attempts`. -/
def freeName (settings : Settings) (tree : FileTree) (number : Nat) : Nat → String
  | 0 => logName number
  | attempts + 1 =>
    if settings.isTaken tree (logName number) then settings.freeName tree (number + 1) attempts
    else logName number

/-- The first name that a new log can have; there are more names to try than can be taken. -/
def nextLogName (settings : Settings) (tree : FileTree) : String :=
  settings.freeName tree 0 (settings.logs.length + tree.entries.length)

/-- The path of the log of a file. A file without one is given one, which is saved. -/
def logPathFor (settings : Settings) (tree : FileTree) (file : String) :
    Except FileFailure Path × Settings × FileTree :=
  let key := (Path.absolute { root := "/", names := tree.working } file).text
  match settings.logs.lookup key with
  | some name => (.ok (settings.base.append name), settings, tree)
  | none =>
    let name := settings.nextLogName tree
    let settings := { settings with logs := Table.set key name settings.logs }
    match settings.save tree with
    | .ok tree => (.ok (settings.base.append name), settings, tree)
    | .error failure => (.error failure, settings, tree)

end Settings

end HexEditor
