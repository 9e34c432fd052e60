/-
The command line of the editor. What the run may look at is copied from the disk into
a tree of files: the file to edit, the directory of the settings, and the struct files.
The run itself works on that tree, and what it has changed is written to the disk
afterwards.
-/

import HexEditor.CommandLine.Run

namespace HexEditor.Disk

def locationText (location : Location) : String :=
  "/" ++ String.intercalate "/" location

def copyEntry (tree : FileTree) (location : Location) : IO FileTree := do
  let place := (← IO.currentDir) / locationText location
  if ← place.isDir then
    return tree.put location .directory
  else if ← place.pathExists then
    return tree.put location (.file (← IO.FS.readBinFile place).toList)
  else
    return tree

def copyPath (tree : FileTree) (path : Path) : IO FileTree :=
  (tree.locationsOn path).foldlM copyEntry tree

def copyEntries (tree : FileTree) (directory : Path) : IO FileTree := do
  let place := (← IO.currentDir) / directory.text
  if ← place.isDir then
    let names := (← place.readDir).toList.map fun entry => directory.append entry.fileName
    names.foldlM copyPath tree
  else
    return tree

/-- The users of the system with their directories, as the list of them says. -/
def knownUsers : IO (List (String × Location)) := do
  let list := (← IO.currentDir) / "/etc/passwd"
  if ← list.pathExists then
    return (← IO.FS.lines list).toList.filterMap fun line =>
      match line.splitOn ":" with
      | [name, _, _, _, _, home, _] => some (name, (Path.ofString home).names)
      | _ => none
  else
    return []

/-- A tree with nothing in it but the directory that the program was started in. -/
def emptyTree : IO FileTree := do
  let working := Path.ofString (← IO.currentDir).toString
  let home := Path.ofString ((← IO.getEnv "HOME").getD "/")
  copyPath { working := working.names, home := home.names, users := ← knownUsers }
    { root := "/", names := working.names }

/-- Copies everything that a run with some arguments may look at. -/
def copyFor (arguments : Arguments) : IO FileTree := do
  let tree ← emptyTree
  let tree ← (Path.ofString arguments.path ::
    (arguments.structs.filterMap id).map Path.ofString).foldlM copyPath tree
  match arguments.place.base? tree.home with
  | none => return tree
  | some base =>
    let tree ← copyEntries (← copyPath tree base) base
    match Settings.load base tree with
    | .ok settings _ => (settings.structs.map StructEntry.path).foldlM copyPath tree
    | .error _ _ => return tree

/-- Writes the entries of a tree that are not the same in an older one. -/
def writeChanges (older newer : FileTree) : IO Unit :=
  newer.entries.forM fun (location, entry) => do
    if older.entry? location ≠ some entry then
      match entry with
      | .directory => IO.FS.createDirAll (locationText location)
      | .file content => IO.FS.writeBinFile (locationText location) ⟨content.toArray⟩

def usage : String :=
  "usage: hexeditor [-h] [--rows ROWS] [--font-size SIZE] [--config-dir DIRECTORY]\n" ++
  "                 [--struct PATH] [--activate NAME] [--headless] [-v] path\n"

def run (given : List String) : IO UInt32 := do
  match Arguments.ofList given with
  | .error .help =>
    IO.print usage
    return 0
  | .error failure =>
    IO.eprint usage
    return failure.status.toUInt32
  | .ok arguments =>
    let tree ← copyFor arguments
    let input ← if arguments.headless then (← IO.getStdin).readBinToEnd else pure .empty
    let (ending, changed) := arguments.run input.toList tree
    writeChanges tree changed
    match ending with
    | .finished status output errors =>
      IO.print output
      IO.eprint errors
      return status.toUInt32
    | .brokenDown cause =>
      IO.eprintln cause.message
      return 1

end HexEditor.Disk

def main (given : List String) : IO UInt32 := HexEditor.Disk.run given
