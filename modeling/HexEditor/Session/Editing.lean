/-
Editing. Every change to the file is logged first, then made, and then the log is
settled; undo and redo read the log, replay the byte and settle. So a change that
fails halfway is still in the log, and a settled log never runs behind the file.
-/

import HexEditor.Session.Basic

namespace HexEditor.Session

/-! ### Jumps -/

def pushJump : Action Unit :=
  modify fun session => { session with jumps := session.window.cursor :: session.jumps }

def goto (target : Int) (recenter : Bool := true) : Action Unit := do
  pushJump
  onWindow fun window => window.goto target recenter

def jumpBack : Action Unit := do
  match (← get).jumps with
  | [] => refuse .noJumps
  | target :: rest =>
    modify fun session => { session with jumps := rest }
    onWindow fun window => window.goto target true

/-! ### Bytes -/

def writeByte (address : Int) (value : UInt8) : Action Unit := fun session =>
  match session.file.writeByte address value.toNat with
  | (.ok _, file) => .ok () { session with file }
  | (.error failure, file) => .error (.command (.notWritten failure)) { session with file }

def readByte (address : Int) : Action UInt8 := fun session =>
  let file := session.file.behindRead address 1
  match session.file.byteAt address with
  | .ok byte => .ok byte { session with file }
  | .error failure => .error (.storage failure) { session with file }

/-- Changes the mode, and drops a half-typed byte. -/
def setMode (mode : Mode) : Action Unit :=
  modify fun session =>
    { session with mode, pending := none, window := session.window.resetNibble }

/-- Logs the replacement of a byte, makes it, and settles the log. -/
def replaceByte (address : Int) (old new : UInt8) : Action Unit := do
  onLog (fun cause => .command (.notLogged cause)) (EditLog.enter address old.toNat new.toNat)
  writeByte address new
  onLog .log EditLog.settle

def withUpperDigit (byte : UInt8) (digit : Nat) : UInt8 :=
  UInt8.ofNat (16 * digit + byte.toNat % 16)

def withLowerDigit (byte : UInt8) (digit : Nat) : UInt8 :=
  UInt8.ofNat (byte.toNat / 16 * 16 + digit)

/-- Moves the cursor on behind an action, whether it failed or not. -/
def thenRight (action : Action Unit) : Action Unit := fun session =>
  let moved (session : Session) : Session := { session with window := session.window.right }
  match action session with
  | .ok _ session => .ok () (moved session)
  | .error failure session => .error failure (moved session)

/-- Types a digit over the byte under the cursor: the first one is kept back, and the second one
commits the byte and moves on. -/
def typeDigit (digit : Nat) : Action Unit := do
  let session ← get
  if session.window.fileLength ≠ 0 then
    match session.pendingByte with
    | none =>
      let address := session.window.cursor
      let old ← readByte address
      modify fun session =>
        { session with
          pending := some ⟨address, old, withUpperDigit old digit⟩
          window := { session.window with nibble := 1 } }
    | some pending =>
      modify fun session => { session with pending := none }
      thenRight (replaceByte pending.address pending.old (withLowerDigit pending.value digit))

/-! ### History -/

/-- Writes a byte that the log gave, settles the log, and jumps there. -/
def replay (address : UInt64) (value : UInt8) : Action Unit := do
  writeByte address.toNat value
  onLog .log EditLog.settle
  goto address.toNat

/-- The operation of the log behind a step through the history. -/
def logStep : HistoryStep → EditLog.Action (Option (UInt64 × UInt8))
  | .undo => EditLog.undo
  | .redo => EditLog.redo

def stepHistory (step : HistoryStep) : Action Unit := do
  if (← get).mode = .read then
    refuse (.readOnly step)
  else
    match ← onLog .log (logStep step) with
    | none => refuse (.nothingLeft step)
    | some (address, value) => replay address value

end HexEditor.Session
