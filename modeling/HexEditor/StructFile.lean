/-
Struct files. A file that ends in `.json` holds the definition of a layout, and any
other file holds a program. A file that is not there or does not hold a struct can be
passed over; a file that is not even text, or that holds a number too long to read or
values nested too deep, cannot, and neither can what is not the path of a file.
-/

import HexEditor.Json.Reader
import HexEditor.Layout.Definition
import HexEditor.Storage.FileTree
import HexEditor.Struct

namespace HexEditor

/-- The name that a struct is given, and the file that it is in. -/
structure StructEntry where
  name : String
  path : Path
  deriving DecidableEq, Repr

/-- Why the content of a file is no struct. -/
inductive ContentFailure where
  | encoding (failure : Utf8Failure)
  | document (failure : Json.Failure)
  | definition (failure : DefinitionFailure)

def ContentFailure.message (path : Path) : ContentFailure → String
  | .encoding failure => failure.message
  | .document .malformed => path.text ++ ": " ++ Json.Failure.malformed.message
  | .document failure => failure.message
  | .definition failure => failure.message

/-- Whether the editor does without a struct with such a content. -/
def ContentFailure.isPassedOver : ContentFailure → Bool
  | .encoding _ => false
  | .document failure => failure == .malformed
  | .definition .unshowable => false
  | .definition _ => true

/-- Why there is no struct at a path. -/
inductive StructFailure where
  | file (failure : FileFailure)
  | content (failure : ContentFailure)

def StructFailure.message (path : Path) : StructFailure → String
  | .file failure => failure.message
  | .content failure => failure.message path

/-- Whether the editor does without the struct and goes on. -/
def StructFailure.isPassedOver : StructFailure → Bool
  | .file failure => failure.fault != .nulInPath
  | .content failure => failure.isPassedOver

namespace Struct

def isLayoutPath (path : Path) : Bool :=
  path.extension.toList.map Char.toLower == ".json".toList

def layoutOf (content : List UInt8) : Except ContentFailure Node :=
  match textOfUtf8 content with
  | .error failure => .error (.encoding failure)
  | .ok text =>
    match Json.read text with
    | .error failure => .error (.document failure)
    | .ok raw => (Node.ofJson raw).mapError .definition

/-- The struct that the content of the file at a path holds. -/
def ofContent (path : Path) (content : List UInt8) : Except ContentFailure Struct :=
  if isLayoutPath path then (layoutOf content).map fun root => .layout root []
  else .ok (.program content.toArray)

def load (tree : FileTree) (path : Path) : Except StructFailure Struct :=
  match tree.read path.text with
  | .error failure => .error (.file failure)
  | .ok content => (ofContent path content).mapError .content

/-- The structs that are named by some files, added to those there are already; one takes the place
of an earlier one of its name. The first file that cannot be passed over ends it. -/
def loadAll (tree : FileTree) (structs : List (String × Struct)) :
    List StructEntry → Except (Path × StructFailure) (List (String × Struct))
  | [] => .ok structs
  | entry :: rest =>
    match load tree entry.path with
    | .ok struct => loadAll tree (Table.set entry.name struct structs) rest
    | .error failure =>
      if failure.isPassedOver then loadAll tree structs rest else .error (entry.path, failure)

end Struct

end HexEditor
