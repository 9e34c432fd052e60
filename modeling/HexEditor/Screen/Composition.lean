/-
The whole screen. The upper rows show bytes, the last but one is a separator, and the
last one shows the status, the command line, or the mode and the cursor. The rows of
the struct on show stand to the right. Each line is composed on its own from the
session and from the bytes that are visible.
-/

import HexEditor.Screen.Row
import HexEditor.Session.Basic

namespace HexEditor

/-- The first column of the struct on show. -/
def panelColumn : Nat := 92

/-- Why the visible bytes cannot be shown. -/
inductive ViewFailure where
  | storage (failure : StorageFailure)
  /-- The half-typed byte is not among them. -/
  | pendingOutside
  deriving DecidableEq, Repr

def ViewFailure.message : ViewFailure → String
  | .storage failure => failure.message
  | .pendingOutside => "the byte being typed is not on the screen"

/-- Rows with a byte replaced that lies at a distance from the first one. -/
def replaceInRows (rows : List (List UInt8)) (distance : Int) (value : UInt8) :
    Option (List (List UInt8)) :=
  let row := (distance / 16).toNat
  if 0 ≤ distance ∧ row < rows.length then
    some (rows.modify row fun bytes => bytes.set (distance % 16).toNat value)
  else
    none

/-- The rows of the visible bytes, with the half-typed byte as it is typed so far. -/
def Session.visibleBytes (session : Session) : Except ViewFailure (List (List UInt8)) :=
  match session.file.readRows session.window.base session.window.endOffset with
  | .error failure => .error (.storage failure)
  | .ok rows =>
    match session.pendingByte with
    | none => .ok rows
    | some pending =>
      match replaceInRows rows (pending.address - session.window.base) pending.value with
      | some rows => .ok rows
      | none => .error .pendingOutside

def Mode.style : Mode → String
  | .read => "mode-read"
  | .modify => "mode-modify"
  | .replace => "mode-replace"

/-- The line of the status, of the command line, or else of the mode and the cursor. -/
def Session.statusLine (session : Session) : ScreenLine :=
  match session.status, session.commandLine with
  | some status, _ =>
    ScreenLine.put {} 0 (alignLeft lineWidth status.text.toList) (some status.style.name)
  | none, some line => ScreenLine.put {} 0 (':' :: alignLeft (lineWidth - 1) line)
  | none, none =>
    let mode := session.mode.name.toList
    let place := (hexText session.window.cursor).toList
    (ScreenLine.put {} ((16 : Int) - mode.length) mode (some session.mode.style)).put
      ((lineWidth : Int) - place.length) place (some "loc")

/-- The line of a visible row with the cursor marked on it. -/
def Session.markCursor (session : Session) (line : ScreenLine) : ScreenLine :=
  let byte := session.window.cursor % 16
  let column := gridColumn + byteColumn byte
  let start := if session.pendingByte.isSome then column + 1 else column
  let line := (line.underlay ⟨0, lineWidth, "active-line"⟩).mark ⟨start, column + 2, "cursor"⟩
  if session.commandLine.isNone then
    line.mark ⟨charColumn + byte, charColumn + byte + 1, "active-char"⟩
  else
    line

/-- The line with a number as far as it shows bytes, which are given by rows. -/
def Session.bytesLine (session : Session) (rows : List (List UInt8)) (number : Nat) : ScreenLine :=
  match rows[number]? with
  | none => {}
  | some bytes =>
    let window := session.window
    let offset := window.base + 16 * number
    let line := rowLine offset (bytes.take (min 16 (window.endOffset - offset)).toNat)
    if window.cursorVisible ∧ (window.cursor - window.base) / 16 = number then
      session.markCursor line
    else
      line

def Session.lineAt (session : Session) (rows : List (List UInt8)) (number : Nat) : ScreenLine :=
  let line := session.bytesLine rows number
  let line := match session.rows[number]? with
    | some row => line.put panelColumn row.text.toList (some row.style)
    | none => line
  let line := if (number : Int) + 2 = session.window.height then
      line.put 0 (List.replicate lineWidth '─') (some "separator")
    else
      line
  if (number : Int) + 1 = session.window.height then session.statusLine.laidOver line else line

def Session.screen (session : Session) : Except ViewFailure (List ScreenLine) :=
  let numbers := List.range session.window.height.toNat
  if 0 < session.window.visibleRows then
    session.visibleBytes.map fun rows => numbers.map (session.lineAt rows)
  else
    .ok (numbers.map (session.lineAt []))

end HexEditor
