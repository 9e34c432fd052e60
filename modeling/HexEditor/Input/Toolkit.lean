/-
Keys and mouse as a window reports them. Some keys have other names there, a modifier
on its own is no key, and a shifted character is its capital. The mouse reports pixels,
of which a cell of the screen covers several.
-/

import HexEditor.Number.FloorDivision
import HexEditor.Number.Literal
import HexEditor.Text.Uppercase
import HexEditor.Window.Pointing

namespace HexEditor

/-! ### Keys -/

/-- Names of keys that have another name in the editor. -/
def keyAliases : List (String × String) :=
  [("return", "enter"), ("esc", "escape"), ("page_up", "pageup"), ("page_down", "pagedown")]

/-- The keys that only modify others. -/
def modifierKeys : List String := ["shift", "control", "alt", "super", "cmd"]

/-- The name in the editor of a key that a window reports, unless it means nothing there. -/
def editorKeyName? (reported : Option String) : Option String :=
  match reported with
  | none | some "" => none
  | some reported =>
    let name := (keyAliases.lookup reported).getD reported
    if modifierKeys.contains name || "alt+".toList.isPrefixOf name.toList then
      none
    else
      match name.toList with
      | ['s', 'h', 'i', 'f', 't', '+', character] => some (String.ofList (capitals character))
      | _ => some name

/-! ### The mouse -/

/-- A value that a window gives for a number. -/
inductive WindowNumber where
  | integer (value : Int)
  | fraction (value : Float)
  | none

/-- Why a mouse event has no meaning. -/
inductive MouseFailure where
  | number (failure : ConversionFailure)
  /-- The name of a button spells no number. -/
  | button (failure : LiteralFailure)
  | noNumber
  deriving DecidableEq, Repr

def MouseFailure.message : MouseFailure → String
  | .number failure => failure.message
  | .button failure => failure.message
  | .noNumber => "expected a number"

def WindowNumber.toFloat : WindowNumber → Except MouseFailure Float
  | integer value => (nearestFloat value).mapError .number
  | fraction value => .ok value
  | none => .error .noNumber

/-- A number without what follows its point. -/
def WindowNumber.toInt : WindowNumber → Except MouseFailure Int
  | integer value => .ok value
  | fraction value => (truncated value).mapError .number
  | none => .error .noNumber

/-- The cell, of some pixels each, that a coordinate lies in; coordinates count from the middle of
the first pixel. -/
def cellOf (coordinate pixels : WindowNumber) : Except MouseFailure Int := do
  let place := (← coordinate.toFloat) + 0.5
  (floorDivide place (← pixels.toFloat)).mapError .number

/-- What a window says about the button of a mouse event. -/
inductive MouseButton where
  | none
  | number (value : WindowNumber)
  | name (text : String)

def MouseButton.isUp : MouseButton → Bool
  | name text => text == "up"
  | _ => false

def MouseButton.toInt : MouseButton → Except MouseFailure Int
  | none => .ok 0
  | number value => value.toInt
  | name "" => .ok 0
  | name text => (readInteger 10 text).mapError .button

/-- A mouse event of a window, of which the coordinates are missing outside the screen. -/
structure MouseEvent where
  isScroll : Bool
  x : Option WindowNumber
  y : Option WindowNumber
  button : MouseButton

/-- The pointer report for a mouse event on cells of a size, unless it is outside the screen or of a
button without use. -/
def MouseEvent.report? (event : MouseEvent) (width height : WindowNumber) :
    Except MouseFailure (Option PointerReport) :=
  match event.x, event.y with
  | some x, some y => do
    let column ← cellOf x width
    let row ← cellOf y height
    if event.isScroll then
      return some ⟨if event.button.isUp then wheelUp else wheelDown, column, row, true⟩
    else
      let number ← event.button.toInt
      return if 1 ≤ number ∧ number ≤ 3 then some ⟨number - 1, column, row, true⟩ else none
  | _, _ => .ok none

end HexEditor
