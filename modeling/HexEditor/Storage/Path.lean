/-
Paths of files. A path is a root, if it is absolute, and the names on the way; empty
names and single dots are left out, and two dots stay, because what they lead to is
not decided by the path. Two slashes at the start are a root of their own, and more
than two are one.
-/

import HexEditor.Number.Numeral

namespace HexEditor

/-- A path. -/
structure Path where
  /-- What stands in front of the first name: nothing, `/` or `//`. -/
  root : String := ""
  names : List String := []
  deriving DecidableEq, Repr

/-- The parts of a text between slashes; `part` holds the characters, last one first, of the part
being read. -/
def splitSlashes (part : List Char) : List Char → List String
  | [] => [String.ofList part.reverse]
  | '/' :: rest => String.ofList part.reverse :: splitSlashes [] rest
  | character :: rest => splitSlashes (character :: part) rest

/-- What stands in front of the first name of a path. -/
def rootOf : List Char → String
  | '/' :: '/' :: '/' :: _ => "/"
  | '/' :: '/' :: _ => "//"
  | '/' :: _ => "/"
  | _ => ""

namespace Path

def ofString (text : String) : Path where
  root := rootOf text.toList
  names := (splitSlashes [] text.toList).filter fun name => name != "" && name != "."

def text (path : Path) : String :=
  if path.root == "" && path.names.isEmpty then "."
  else path.root ++ String.intercalate "/" path.names

def isAbsolute (path : Path) : Bool := path.root != ""

def join (directory path : Path) : Path :=
  if path.isAbsolute then path else { directory with names := directory.names ++ path.names }

/-- A path with one more part, which may itself be a path. -/
def append (directory : Path) (part : String) : Path := directory.join (ofString part)

def parent (path : Path) : Path := { path with names := path.names.dropLast }

def name (path : Path) : String := path.names.getLast?.getD ""

/-- A name cut in front of its last dot, unless the dot is its first or last character. -/
def splitName (name : List Char) : List Char × List Char :=
  let ending := name.reverse.takeWhile (· != '.')
  let start := name.take (name.length - ending.length - 1)
  if ending.length = name.length || ending.isEmpty || start.isEmpty then (name, [])
  else (start, name.drop start.length)

/-- The last name without what follows its last dot. -/
def stem (path : Path) : String := String.ofList (splitName path.name.toList).1

/-- What follows the last dot of the last name, with the dot. -/
def extension (path : Path) : String := String.ofList (splitName path.name.toList).2

/-! ### Plain text operations -/

def baseName (text : String) : String := (splitSlashes [] text.toList).getLast?.getD ""

/-- A name without its last dot and what follows, unless only dots stand in front of that dot. -/
def dropExtension (name : String) : String :=
  let characters := name.toList
  let ending := characters.reverse.takeWhile (· != '.')
  let start := characters.take (characters.length - ending.length - 1)
  if ending.length = characters.length || start.all (· == '.') then name else String.ofList start

/-- Names with those that two dots take back left out; `kept` holds the ones so far, last one
first. -/
def resolveDots (kept : List String) : List String → List String
  | [] => kept.reverse
  | ".." :: rest => resolveDots (kept.drop 1) rest
  | name :: rest => resolveDots (name :: kept) rest

/-- The absolute path of a text seen from a directory, with two dots resolved by name. -/
def absolute (directory : Path) (text : String) : Path :=
  let path := directory.join (ofString text)
  { path with names := resolveDots [] path.names }

end Path

end HexEditor
