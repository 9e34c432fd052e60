/-
Starting a session: the settings are read, the file and its log are opened, the
structs are loaded, and one of them may be put on show. What becomes of the files on
the way stays so, even if the session does not start in the end.
-/

import HexEditor.CommandLine.Arguments
import HexEditor.Session.Basic
import HexEditor.Settings

namespace HexEditor

/-- Why a session did not start. -/
inductive StartFailure where
  | settings (failure : SettingsFailure)
  | file (failure : FileFailure)
  | log (path : Path) (corruption : LogCorruption)
  | struct (path : Path) (failure : StructFailure)
  | activation (failure : ActionFailure)
  /-- An option was given nothing where something is needed. -/
  | missingValue

def StartFailure.message : StartFailure → String
  | .settings failure => failure.message
  | .file failure => failure.message
  | .log path corruption => path.text ++ ": " ++ corruption.message
  | .struct path failure => failure.message path
  | .activation failure => failure.message
  | .missingValue => "an option needs a value"

/-- Why a run breaks down without a word to the user. -/
inductive Breakdown where
  | missingValue
  | unknownUser
  | nestedTooDeep
  deriving DecidableEq, Repr

def Breakdown.message : Breakdown → String
  | .missingValue => StartFailure.missingValue.message
  | .unknownUser => HomeFailure.unknownUser.message
  | .nestedTooDeep => Json.Failure.tooDeep.message

/-- The breakdown that a failure is, unless the user is told of it. -/
def StartFailure.breakdown? : StartFailure → Option Breakdown
  | .missingValue => some .missingValue
  | .settings (.home .unknownUser) => some .unknownUser
  | .settings (.json _ .tooDeep) => some .nestedTooDeep
  | .struct _ (.content (.document .tooDeep)) => some .nestedTooDeep
  | _ => none

/-- A session and where its log is. -/
structure OpenSession where
  session : Session
  logPath : Path

def SettingsPlace.base? (home : Location) : SettingsPlace → Option Path
  | .home => some (Settings.defaultBase home)
  | .directory path => some (Path.ofString path)
  | .nothing => none

namespace Startup

/-- A part of the work of starting, which may change the files and fail. -/
abbrev Action := EStateM StartFailure FileTree

def readSettings (place : SettingsPlace) : Action Settings := fun tree =>
  match place.base? tree.home with
  | none => .error .missingValue tree
  | some base =>
    match Settings.load base tree with
    | .ok settings tree => .ok settings tree
    | .error failure tree => .error (.settings failure) tree

def readFile (path : String) : Action (List UInt8) := do
  match (← get).read path with
  | .ok content => return content
  | .error failure => throw (.file failure)

def findLog (settings : Settings) (file : String) : Action Path := do
  let (found, _, tree) := settings.logPathFor (← get) file
  set tree
  match found with
  | .ok path => return path
  | .error failure => throw (.file failure)

/-- Opens a log, whose file is made if it is not there. -/
def openLog (path : Path) : Action EditLog := do
  match (← get).openOrCreate path.text with
  | .error failure => throw (.file failure)
  | .ok (content, tree) =>
    let (opened, content) := EditLog.openContent content
    set (tree.replace path.text content)
    match opened with
    | .ok log => return log
    | .error corruption => throw (.log path corruption)

/-- The struct files to load: those that the settings list, then those that the arguments name. -/
def structEntries (listed : List StructEntry) (named : List (Option String)) :
    Action (List StructEntry) :=
  match named.mapM id with
  | none => throw .missingValue
  | some paths =>
    return listed ++ paths.map fun path =>
      ⟨Path.dropExtension (Path.baseName path), Path.ofString path⟩

def loadStructs (entries : List StructEntry) : Action (List (String × Struct)) := do
  match Struct.loadAll (← get) [] entries with
  | .ok structs => return structs
  | .error (path, failure) => throw (.struct path failure)

def showStruct (name : Option String) (session : Session) : Action Session :=
  match name with
  | none => pure session
  | some name =>
    if name = "" then
      pure session
    else
      match Session.activate name session with
      | .ok _ session => pure session
      | .error failure _ => throw (.activation failure)

/-- Opens the session that the arguments ask for on a screen of some rows. -/
def openSession (arguments : Arguments) (rows : Int) : Action OpenSession := do
  let settings ← readSettings arguments.place
  let _ ← readFile arguments.path
  let logPath ← findLog settings arguments.path
  let log ← openLog logPath
  let structs ← loadStructs (← structEntries settings.structs arguments.structs)
  let content ← readFile arguments.path
  let session := Session.start { content := content.toArray } log structs rows
  let session ← showStruct arguments.active session
  return ⟨session.refresh, logPath⟩

end Startup

end HexEditor
