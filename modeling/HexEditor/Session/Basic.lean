/-
The state of an editing session: the file and its log, the window, the mode, the
command line, the status, the stack of jumps, the struct on show, and the digit that
is typed but not yet committed. All work on a session is an action, which may fail
with some of its changes made.
-/

import HexEditor.History.Log
import HexEditor.Session.Address
import HexEditor.Struct
import HexEditor.Window.Pointing

namespace HexEditor

/-- What keys do to the file. -/
inductive Mode where
  /-- Nothing. -/
  | read
  /-- Undo and redo. -/
  | modify
  /-- Undo and redo, and digits replace bytes. -/
  | replace
  deriving DecidableEq, Repr

def Mode.name : Mode → String
  | .read => "READ-ONLY"
  | .modify => "MODIFY"
  | .replace => "REPLACE"

/-- The style a status is painted in. -/
inductive StatusStyle where
  | error
  | warning
  deriving DecidableEq, Repr

def StatusStyle.name : StatusStyle → String
  | .error => "error"
  | .warning => "warning"

/-- A message to the user. -/
structure Status where
  style : StatusStyle
  text : String
  deriving DecidableEq, Repr

/-- A byte of which one digit has been typed. -/
structure PendingByte where
  address : Int
  old : UInt8
  value : UInt8
  deriving DecidableEq, Repr

/-- The direction of a step through the history. -/
inductive HistoryStep where
  | undo
  | redo
  deriving DecidableEq, Repr

def HistoryStep.name : HistoryStep → String
  | .undo => "undo"
  | .redo => "redo"

/-- Why a command or a key was not carried out. -/
inductive CommandFailure where
  | address (failure : AddressFailure)
  | usage (command arguments : String)
  | unknownCommand (name : String)
  | unknownStruct (name : String)
  | noJumps
  | readOnly (step : HistoryStep)
  | nothingLeft (step : HistoryStep)
  | notLogged (cause : LogFailure)
  | notWritten (cause : StorageFailure)
  deriving DecidableEq, Repr

def CommandFailure.message : CommandFailure → String
  | .address failure => failure.message
  | .usage command arguments => "Usage: " ++ command ++ " <" ++ arguments ++ ">"
  | .unknownCommand name => "Unknown command “" ++ name ++ "”"
  | .unknownStruct name => "Unknown struct “" ++ name ++ "”"
  | .noJumps => "Jump stack empty"
  | .readOnly step => "Cannot " ++ step.name ++ " in read-only mode"
  | .nothingLeft step => "Nothing to " ++ step.name
  | .notLogged cause => "Undo log error: " ++ cause.message
  | .notWritten cause => "Write error: " ++ cause.message

/-- Why an action failed. -/
inductive ActionFailure where
  | command (failure : CommandFailure)
  | log (failure : LogFailure)
  | storage (failure : StorageFailure)
  deriving DecidableEq, Repr

def ActionFailure.message : ActionFailure → String
  | .command failure => failure.message
  | .log failure => failure.message
  | .storage failure => failure.message

/-- The message that tells the user of a failure. A log that could not be settled is worth a warning
only, because the edit itself was made. -/
def ActionFailure.status (failure : ActionFailure) : Status :=
  match failure with
  | .log (.notSettled _) => ⟨.warning, "Warning: " ++ failure.message⟩
  | _ => ⟨.error, "Error: " ++ failure.message⟩

/-- An editing session. -/
structure Session where
  file : EditedFile
  log : EditLog
  structs : List (String × Struct) := []
  window : Window
  mode : Mode := .read
  /-- What is typed behind the colon while a command is being typed. -/
  commandLine : Option (List Char) := none
  status : Option Status := none
  /-- The offsets to jump back to, last one first. -/
  jumps : List Int := []
  active : Option String := none
  rows : List PanelRow := []
  quit : Bool := false
  pending : Option PendingByte := none

namespace Session

def start (file : EditedFile) (log : EditLog) (structs : List (String × Struct)) (height : Int) :
    Session where
  file := file
  log := log
  structs := structs
  window := { fileLength := file.size, height }

/-- The half-typed byte, as long as the cursor is still on it. -/
def pendingByte (session : Session) : Option PendingByte :=
  session.pending.filter fun pending =>
    session.window.nibble == 1 && pending.address == session.window.cursor

abbrev Action := EStateM ActionFailure Session

/-- Work on the window alone. -/
def onWindow (move : Window → Window) : Action Unit :=
  modify fun session => { session with window := move session.window }

/-- Work on the log alone, whose failures count as given. -/
def onLog {Value : Type} (cause : LogFailure → ActionFailure) (action : EditLog.Action Value) :
    Action Value := fun session =>
  match action session.log with
  | .ok value log => .ok value { session with log }
  | .error failure log => .error (cause failure) { session with log }

/-- Gives up with a failure of a command. -/
def refuse {Value : Type} (failure : CommandFailure) : Action Value := throw (.command failure)

/-! ### Annotations -/

/-- The file behind computing the rows of a struct. If bytes are asked for, the first read is an
access. -/
def behindRows (struct : Struct) (session : Session) : EditedFile :=
  if session.file.heldBack.isSome && !session.file.refusesRead &&
      struct.asksForBytes session.window.cursor session.window.height then
    session.file.flush
  else
    session.file

/-- Recomputes the rows of the struct on show. Where that fails there are no rows, and the failure
is the status unless there is one already. -/
def refresh (session : Session) : Session :=
  let shown := session.active.bind fun name =>
    (session.structs.lookup name).map fun struct => (name, struct)
  match shown with
  | none => { session with rows := [] }
  | some (name, struct) =>
    let file := session.behindRows struct
    match struct.annotate session.file.reader session.window.cursor session.window.height with
    | .ok (rows, struct) =>
      { session with file, rows, structs := Table.set name struct session.structs }
    | .error failure =>
      { session with
        file
        rows := []
        status := session.status.or (some ⟨.error, "struct: " ++ failure.message⟩) }

def activate (name : String) : Action Unit := do
  if ((← get).structs.lookup name).isSome then
    modify fun session => { session with active := some name }
  else
    refuse (.unknownStruct name)

end Session

end HexEditor
