/-
Writing JSON. Text is written in ASCII: characters past it are escaped by their
units in UTF-16. A document for people has one item or member a line, two blanks
deeper at each level; a compact one has no blanks at all.
-/

import HexEditor.Json.Value

namespace HexEditor.Json

def unitEscape (unit : Nat) : List Char := '\\' :: 'u' :: hexDigitsOfWidth 4 unit

def writtenChar (character : Char) : List Char :=
  let code := character.toNat
  if character == '"' || character == '\\' then ['\\', character]
  else if character == '\n' then ['\\', 'n']
  else if character == '\r' then ['\\', 'r']
  else if character == '\t' then ['\\', 't']
  else if character == '\x08' then ['\\', 'b']
  else if character == '\x0c' then ['\\', 'f']
  else if 0x20 ≤ code && code < 0x7F then [character]
  else if code < 0x10000 then unitEscape code
  else
    unitEscape (0xD800 + (code - 0x10000) / 0x400) ++
      unitEscape (0xDC00 + (code - 0x10000) % 0x400)

def writtenString (text : String) : List Char :=
  '"' :: (text.toList.flatMap writtenChar ++ ['"'])

/-- A fraction; those that are no numbers have names. -/
def writtenFraction (value : Float) : List Char :=
  if value.isNaN then "NaN".toList
  else if value.isInf then (if value < 0 then "-Infinity" else "Infinity").toList
  else (shortestText value).toList

/-- A value without items or members. -/
def writtenScalar : Json → List Char
  | .bool true => "true".toList
  | .bool false => "false".toList
  | .integer value => (decimalText value).toList
  | .fraction value => writtenFraction value
  | .string value => writtenString value
  | _ => "null".toList

def lineStart (level : Nat) : List Char := '\n' :: List.replicate (2 * level) ' '

mutual

/-- A value with one item or member a line. -/
def indented (level : Nat) : Json → List Char
  | .array [] => ['[', ']']
  | .array items => '[' :: (indentedItems (level + 1) items ++ lineStart level ++ [']'])
  | .object [] => ['{', '}']
  | .object members => '{' :: (indentedMembers (level + 1) members ++ lineStart level ++ ['}'])
  | scalar => writtenScalar scalar

def indentedItems (level : Nat) : List Json → List Char
  | [] => []
  | [item] => lineStart level ++ indented level item
  | item :: rest => lineStart level ++ indented level item ++ ',' :: indentedItems level rest

def indentedMembers (level : Nat) : List (String × Json) → List Char
  | [] => []
  | [(name, value)] => lineStart level ++ writtenString name ++ ':' :: ' ' :: indented level value
  | (name, value) :: rest =>
    lineStart level ++ writtenString name ++ ':' :: ' ' :: indented level value ++
      ',' :: indentedMembers level rest

end

mutual

/-- A value without blanks, in front of what follows it. -/
def compactOnto (tail : List Char) : Json → List Char
  | .array items => '[' :: compactItems (']' :: tail) items
  | .object members => '{' :: compactMembers ('}' :: tail) members
  | scalar => writtenScalar scalar ++ tail

/-- Items with commas between them, in front of what follows them. -/
def compactItems (tail : List Char) : List Json → List Char
  | [] => tail
  | [item] => compactOnto tail item
  | item :: rest => compactOnto (',' :: compactItems tail rest) item

/-- Members with commas between them, in front of what follows them. -/
def compactMembers (tail : List Char) : List (String × Json) → List Char
  | [] => tail
  | [(name, value)] => writtenString name ++ ':' :: compactOnto tail value
  | (name, value) :: rest =>
    writtenString name ++ ':' :: compactOnto (',' :: compactMembers tail rest) value

end

/-- A value without blanks. -/
def compact (value : Json) : String := String.ofList (compactOnto [] value)

end HexEditor.Json
