/-
A tree of files. Every location is a directory or a file with its content. Paths are
followed name by name from the working directory or from the root, so that a path
through a file or through nothing fails in its own way; failures show the path as it
was given. A name that is too long fails where it is looked up, which is in a directory
that is there. A path with a NUL in it is no path at all. Nothing else can fail: there
are no permissions, no links, and no device that refuses to read or write.
-/

import HexEditor.Storage.Path
import HexEditor.Table
import HexEditor.Text.Quoted

namespace HexEditor

/-- Why a path does not lead to what was asked for. -/
inductive FileFault where
  | notFound
  | exists
  | notDirectory
  | isDirectory
  | nameTooLong
  | nulInPath
  deriving DecidableEq, Repr

/-- The wording of a fault, with its number if it has one. -/
def FileFault.message : FileFault → String
  | .notFound => "[Errno 2] No such file or directory"
  | .exists => "[Errno 17] File exists"
  | .notDirectory => "[Errno 20] Not a directory"
  | .isDirectory => "[Errno 21] Is a directory"
  | .nameTooLong => "[Errno 36] File name too long"
  | .nulInPath => "embedded null byte"

/-- A fault with the path it is about. -/
structure FileFailure where
  fault : FileFault
  path : String
  deriving DecidableEq, Repr

/-- The wording of a failure; what is no path is not shown. -/
def FileFailure.message (failure : FileFailure) : String :=
  if failure.fault = .nulInPath then failure.fault.message
  else failure.fault.message ++ ": " ++ quoted failure.path

def nameLimit : Nat := 255

def pathLimit : Nat := 4095

/-- What there is at a location. -/
inductive FileEntry where
  | directory
  | file (content : List UInt8)
  deriving DecidableEq, Repr

/-- The names on the way from the root. -/
abbrev Location := List String

/-- Directories and files by their locations. All of them can be read and written. -/
structure FileTree where
  entries : List (Location × FileEntry) := []
  working : Location
  home : Location
  /-- The directories of the users that are known by name. -/
  users : List (String × Location) := []

namespace FileTree

/-- What there is at a location; the root is always a directory. -/
def entry? (tree : FileTree) (location : Location) : Option FileEntry :=
  if location.isEmpty then some .directory else tree.entries.lookup location

def put (tree : FileTree) (location : Location) (entry : FileEntry) : FileTree :=
  { tree with entries := Table.set location entry tree.entries }

/-- Follows names from a location, which has to be a directory as long as there are names to
follow. -/
def follow (tree : FileTree) (location : Location) : List String → Except FileFault Location
  | [] => .ok location
  | name :: rest =>
    match tree.entry? location with
    | none => .error .notFound
    | some (.file _) => .error .notDirectory
    | some .directory =>
      if name = "" ∨ name = "." then tree.follow location rest
      else if name = ".." then tree.follow location.dropLast rest
      else if nameLimit < name.utf8ByteSize then .error .nameTooLong
      else tree.follow (location ++ [name]) rest

/-- The locations that a path passes through if there is a directory at each of them but the
last. -/
def locationsOn (tree : FileTree) (path : Path) : List Location :=
  let start := if path.isAbsolute then [] else tree.working
  path.names.foldl (fun (passed : List Location) name =>
    let last := passed.getLast?.getD start
    passed ++ [if name = ".." then last.dropLast else last ++ [name]]) []

/-- The location that a path leads to; its last name need not be there. -/
def locate (tree : FileTree) (path : String) : Except FileFailure Location :=
  if path = "" then
    .error ⟨.notFound, path⟩
  else if '\x00' ∈ path.toList then
    .error ⟨.nulInPath, path⟩
  else if pathLimit < path.utf8ByteSize then
    .error ⟨.nameTooLong, path⟩
  else
    let start := if path.toList.head? = some '/' then [] else tree.working
    (tree.follow start (splitSlashes [] path.toList)).mapError fun fault => ⟨fault, path⟩

def read (tree : FileTree) (path : String) : Except FileFailure (List UInt8) := do
  match tree.entry? (← tree.locate path) with
  | none => throw ⟨.notFound, path⟩
  | some .directory => throw ⟨.isDirectory, path⟩
  | some (.file content) => return content

/-- The content of a file, and the tree in which it is there even if it was not before. -/
def openOrCreate (tree : FileTree) (path : String) :
    Except FileFailure (List UInt8 × FileTree) := do
  let location ← tree.locate path
  match tree.entry? location, tree.entry? location.dropLast with
  | some .directory, _ => throw ⟨.isDirectory, path⟩
  | some (.file content), _ => return (content, tree)
  | none, some .directory => return ([], tree.put location (.file []))
  | none, some (.file _) => throw ⟨.notDirectory, path⟩
  | none, none => throw ⟨.notFound, path⟩

/-- Replaces the content of a file, which is made if it is not there. -/
def write (tree : FileTree) (path : String) (content : List UInt8) :
    Except FileFailure FileTree := do
  let (_, tree) ← tree.openOrCreate path
  return tree.put (← tree.locate path) (.file content)

/-- Replaces the content of a file as far as it can be written. -/
def replace (tree : FileTree) (path : String) (content : List UInt8) : FileTree :=
  match tree.write path content with
  | .ok tree => tree
  | .error _ => tree

/-- What there is at a path, if anything, which cannot be told for a name that is too long. -/
def examine (tree : FileTree) (path : String) : Except FileFailure (Option FileEntry) :=
  match tree.locate path with
  | .ok location => .ok (tree.entry? location)
  | .error failure => if failure.fault = .nameTooLong then .error failure else .ok none

def at? (tree : FileTree) (path : String) : Option FileEntry :=
  match tree.examine path with
  | .ok entry => entry
  | .error _ => none

def makeDirectory (tree : FileTree) (path : String) : Except FileFailure FileTree := do
  let location ← tree.locate path
  match tree.entry? location, tree.entry? location.dropLast with
  | some _, _ => throw ⟨.exists, path⟩
  | none, some .directory => return tree.put location .directory
  | none, some (.file _) => throw ⟨.notDirectory, path⟩
  | none, none => throw ⟨.notFound, path⟩

/-- Makes a directory unless it is there, with as many of the directories above it as `depth` allows
for; those that were made stay even if it cannot be made. -/
def makeDirectories (tree : FileTree) (path : Path) : Nat → EStateM.Result FileFailure FileTree Unit
  | 0 => .error ⟨.notFound, path.text⟩ tree
  | depth + 1 =>
    match tree.makeDirectory path.text with
    | .ok tree => .ok () tree
    | .error failure =>
      if failure.fault = .notFound ∧ path.names ≠ [] then
        match tree.makeDirectories path.parent depth with
        | .error failure tree => .error failure tree
        | .ok () tree =>
          match tree.makeDirectory path.text with
          | .ok tree => .ok () tree
          | .error failure =>
            if tree.at? path.text = some .directory then .ok () tree else .error failure tree
      else if tree.at? path.text = some .directory then
        .ok () tree
      else
        .error failure tree

/-- Makes a directory with all directories above it, unless it is there. -/
def ensureDirectory (path : Path) : EStateM FileFailure FileTree Unit := fun tree =>
  tree.makeDirectories path (path.names.length + 1)

/-- The files below the working directory with their paths from there. -/
def workingFiles (tree : FileTree) : List (String × List UInt8) :=
  tree.entries.filterMap fun (location, entry) =>
    match entry with
    | .file content =>
      if tree.working.isPrefixOf location then
        some (String.intercalate "/" (location.drop tree.working.length), content)
      else
        none
    | .directory => none

end FileTree

end HexEditor
