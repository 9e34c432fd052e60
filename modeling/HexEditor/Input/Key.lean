/-
Keys. A key is a character, a control character, one of the keys that the editor
knows, or any other one by its name. Names are the only form in which a key enters or
leaves the program, and every name stands for a key.
-/

import HexEditor.Number.Numeral

namespace HexEditor

/-- A key. -/
inductive Key where
  | char (character : Char)
  /-- A character typed together with the control key. -/
  | control (character : Char)
  | enter
  | backspace
  | tab
  | escape
  | up
  | down
  | left
  | right
  | home
  | finish
  | pageUp
  | pageDown
  | controlHome
  | controlFinish
  /-- A key that the editor has no use for. -/
  | other (name : String)
  deriving DecidableEq, Repr

/-- Why a code is that of no key. -/
inductive CodeFailure where
  | noCharacter
  /-- The code of a character would have to be a word of 32 bits. -/
  | noWord
  deriving DecidableEq, Repr

def CodeFailure.message : CodeFailure → String
  | .noCharacter => "chr() arg not in range(0x110000)"
  | .noWord => "the code of a character has at most 32 bits"

namespace Key

def named : List (String × Key) :=
  [("enter", .enter), ("backspace", .backspace), ("tab", .tab), ("escape", .escape), ("up", .up),
   ("down", .down), ("left", .left), ("right", .right), ("home", .home), ("end", .finish),
   ("pageup", .pageUp), ("pagedown", .pageDown), ("ctrl+home", .controlHome),
   ("ctrl+end", .controlFinish)]

def name : Key → String
  | char character => String.singleton character
  | control character => "ctrl+" ++ String.singleton character
  | enter => "enter"
  | backspace => "backspace"
  | tab => "tab"
  | escape => "escape"
  | up => "up"
  | down => "down"
  | left => "left"
  | right => "right"
  | home => "home"
  | finish => "end"
  | pageUp => "pageup"
  | pageDown => "pagedown"
  | controlHome => "ctrl+home"
  | controlFinish => "ctrl+end"
  | other name => name

def ofName (name : String) : Key :=
  match name.toList with
  | [character] => .char character
  | ['c', 't', 'r', 'l', '+', character] => .control character
  | _ => (named.lookup name).getD (.other name)

/-- Every key that is reached by a name bears that name. -/
theorem name_ofName (text : String) : (ofName text).name = text := by
  unfold ofName
  split
  · next character single =>
    apply String.toList_injective
    simp [name, single]
  · next character control =>
    apply String.toList_injective
    simp [name, control]
  · simp only [named, List.lookup_cons, List.lookup_nil]
    repeat' split
    all_goals simp_all [name]

/-- The key that a code from a terminal stands for: the code of a character, or one below those of
all printable characters. -/
def ofCode (code : Int) : Key :=
  if code = 0x0A ∨ code = 0x0D then .enter
  else if code = 0x7F ∨ code = 0x08 then .backspace
  else if code = 0x09 then .tab
  else if code < 0x20 then .control (Char.ofNat (code + 0x60).toNat)
  else .char (Char.ofNat code.toNat)

/-- The key that a code stands for, if it is the code of one. -/
def ofCode? (code : Int) : Except CodeFailure Key :=
  if -0x60 ≤ code ∧ code < 0x110000 then .ok (ofCode code)
  else if 0x7FFFFFFF < code ∨ code + 0x60 < -0x80000000 then .error .noWord
  else .error .noCharacter

def ofByte (byte : UInt8) : Key := ofCode byte.toNat

end Key

end HexEditor
