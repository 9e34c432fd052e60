/-
Keys, commands and pointers. While a command is being typed all keys go to the
command line; otherwise digits replace bytes in the mode that allows it, and the
other keys move, change the mode or step through the history. Failures never leave a
key: they become the status.
-/

import HexEditor.Input.Event
import HexEditor.Session.Editing
import HexEditor.Text.Uppercase

namespace HexEditor.Session

/-! ### Commands -/

def execute (line : String) : Action Unit :=
  match wordsOf line with
  | [] => pure ()
  | command :: arguments =>
    if command = "g" ∨ command = "goto" then
      match arguments with
      | [target] =>
        match parseAddress target with
        | .ok address => goto address
        | .error failure => refuse (.address failure)
      | _ => refuse (.usage command "address|start|end")
    else if command = "q" ∨ command = "quit" then
      modify fun session => { session with quit := true }
    else if command = "struct" then
      match arguments with
      | [name] => activate name
      | _ => refuse (.usage command "struct name")
    else if command = "undo" then
      stepHistory .undo
    else if command = "redo" then
      stepHistory .redo
    else
      refuse (.unknownCommand command)

/-- Sets what is typed of a command, or closes the command line. -/
def setCommandLine (line : Option (List Char)) : Action Unit :=
  modify fun session => { session with commandLine := line }

/-- A key that is typed while the command line holds some characters. -/
def typeCommand (line : List Char) : Key → Action Unit
  | .enter => do
    setCommandLine none
    execute (String.ofList line)
  | .escape => setCommandLine none
  | .backspace => setCommandLine (if line.isEmpty then none else some line.dropLast)
  | .char character => setCommandLine (some (line ++ [character]))
  | .control character => setCommandLine (some (line ++ '^' :: capitals character))
  | _ => pure ()

/-! ### Keys -/

/-- The value of a character as a digit of base sixteen. -/
def hexDigit? (character : Char) : Option Nat := (digitValue? character).filter (· < 16)

/-- A character that is typed while there is no command line and no digit is expected. -/
def typeCharacter (character : Char) : Action Unit :=
  if character = ':' then setCommandLine (some [])
  else if character = 'M' then setMode .modify
  else if character = 'R' then setMode .replace
  else if character = 'q' then modify fun session => { session with quit := true }
  else if character = 't' then pushJump
  else if character = 'u' then stepHistory .undo
  else pure ()

/-- A key that is typed while there is no command line. -/
def typeKey (mode : Mode) : Key → Action Unit
  | .char character =>
    match hexDigit? character with
    | some digit => if mode = .replace then typeDigit digit else typeCharacter character
    | none => typeCharacter character
  | .up => onWindow Window.up
  | .down => onWindow Window.down
  | .left => onWindow Window.left
  | .right => onWindow Window.right
  | .home => onWindow Window.rowStart
  | .finish => onWindow Window.rowEnd
  | .pageUp => onWindow Window.pageUp
  | .pageDown => onWindow Window.pageDown
  | .controlHome => goto 0
  | .controlFinish => goto wordLimit
  | .escape => setMode .read
  | .control character =>
    if character = 't' then jumpBack
    else if character = 'r' then stepHistory .redo
    else pure ()
  | _ => pure ()

/-- What a key does before failures are reported. -/
def dispatch (key : Key) : Action Unit := do
  let session ← get
  match session.commandLine with
  | some line => typeCommand line key
  | none => typeKey session.mode key

/-- The session behind an action, with a failure as its status. -/
def reporting (action : Action Unit) (session : Session) : Session :=
  match action session with
  | .ok _ session => session
  | .error failure session => { session with status := some failure.status }

def handleKey (key : Key) (session : Session) : Session :=
  (reporting (dispatch key) { session with status := none }).refresh

/-- A pointer is used; while a command is being typed it does nothing. -/
def handlePointer (report : PointerReport) (session : Session) : Session :=
  let session := { session with status := none }
  if session.commandLine.isNone then
    let (changed, window) := session.window.point report
    let session := { session with window }
    if changed then session.refresh else session
  else
    session

/-- The screen gets another height, and the length of the file is looked up again. A failure to do
so is not reported here, but it ends the work before anything has changed. -/
def resize (height : Int) (session : Session) : Session :=
  match session.file.length with
  | .ok length =>
    { session with
      file := session.file.flush
      window := session.window.resize height (some length) }.refresh
  | .error _ => session

def handleEvent (event : InputEvent) (session : Session) : Session :=
  match event with
  | .key key => session.handleKey key
  | .pointer report => session.handlePointer report

/-- Handles the events of an input up to its first pause, or until the user quits. No report in an
input with the usual limit is so long that it cannot be read; one that is ends the input. -/
def handleInput (input : Input) (session : Session) : Session :=
  if session.quit then
    session
  else
    match _read : input.nextEvent with
    | (.event event, rest) => handleInput rest (session.handleEvent event)
    | (_, _) => session
termination_by input.size
decreasing_by
  have progress := input.size_nextEvent
  rw [_read] at progress
  have : input.size ≠ 0 := fun empty => by simpa using progress.2 empty
  have : rest.size ≤ input.size - 1 := progress.1
  omega

end HexEditor.Session
