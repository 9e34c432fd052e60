/-
Values of JSON. Objects keep their members in order; integers and fractions are
kept apart, because a fraction is never taken for an integer. Messages show a value
in a notation of their own, in which strings are quoted as names are.
-/

import HexEditor.Number.Shortest
import HexEditor.Table
import HexEditor.Text.Quoted

namespace HexEditor

/-- A value of JSON. -/
inductive Json where
  | null
  | bool (value : Bool)
  | integer (value : Int)
  | fraction (value : Float)
  | string (value : String)
  | array (items : List Json)
  | object (members : List (String × Json))
  deriving Inhabited

namespace Json

/-- The member of an object with a given name; other values have no members. -/
def member? (name : String) : Json → Option Json
  | object members => members.lookup name
  | _ => none

/-! ### Values in messages -/

mutual

/-- A value as messages show it. -/
def shown : Json → String
  | null => "None"
  | bool true => "True"
  | bool false => "False"
  | integer value => decimalText value
  | fraction value => shortestText value
  | string value => quoted value
  | array items => "[" ++ shownItems items ++ "]"
  | object members => "\x7b" ++ shownMembers members ++ "\x7d"

/-- Items behind one another with commas between them. -/
def shownItems : List Json → String
  | [] => ""
  | [item] => shown item
  | item :: rest => shown item ++ ", " ++ shownItems rest

/-- Members behind one another with commas between them. -/
def shownMembers : List (String × Json) → String
  | [] => ""
  | [(name, value)] => quoted name ++ ": " ++ shown value
  | (name, value) :: rest =>
    quoted name ++ ": " ++ shown value ++ ", " ++ shownMembers rest

end

/-- A value as it stands for a name: a string as it is and anything else as messages show it. -/
def plain : Json → String
  | string value => value
  | other => other.shown

/-- Whether a value counts as given: it is neither null, false, zero nor empty. -/
def isGiven : Json → Bool
  | null => false
  | bool value => value
  | integer value => value != 0
  | fraction value => value != 0
  | string value => value != ""
  | array items => !items.isEmpty
  | object members => !members.isEmpty

end Json

end HexEditor
