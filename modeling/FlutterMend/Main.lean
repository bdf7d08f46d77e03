import FlutterMend.CommandLine
import FlutterMend.FileTree.Change

/-!
# The program

The program takes a picture of the part of the disk that a run can reach, lets the run work on the
picture, and then writes the files that have changed back to the disk.
-/

namespace FlutterMend.Picture

/-- The absolute path of a location. -/
def pathOf (loc : Location) : String := Walk.pathOf "/" loc

/-- The target of a link that leads nowhere. -/
def nowhere : String := "/\x01"

/-- The names on an absolute path without links. -/
def locationOf (path : String) : Location :=
  (Path.steps path).filterMap fun step =>
    match step with
    | .child name => some name
    | _ => none

/-- The tree with a directory at a location and at those on the way to it. -/
def addDirectories (t : FileTree) (loc : Location) : FileTree :=
  (t.makeDirectoriesAt [] (FileTree.beginnings (loc.reverse.map Step.child))).1

/-- The tree with a file at a location, unless something is there already. -/
def addFile (t : FileTree) (loc : Location) (content : ByteArray) : FileTree :=
  match loc.getLast? with
  | none => t
  | some name => (addDirectories t loc.dropLast).create loc.dropLast name (.file content)

/-- The tree with a directory wherever the steps come by, and the location at which they end. -/
def addSteps (t : FileTree) (start : Location) (steps : List Step) : FileTree × Location :=
  steps.foldl (fun (t, loc) step =>
    match step with
    | .child name => (addDirectories t (loc ++ [name]), loc ++ [name])
    | .up => (t, loc.dropLast)
    | _ => (t, loc)) (addDirectories t start, start)

/-- Where something on the disk is in a picture, given where the root is on the disk and in the
picture. -/
def place (rootOnDisk root loc : Location) : Location :=
  match rootOnDisk.isPrefixOf? loc with
  | some below => root ++ below
  | none => loc

/-- Adds an entry of a directory with everything below it. Of files and links only those count that
a run may read, and a directory behind a link is not looked into. -/
partial def addEntry (c : Config) (placeOf : Location → Location) (dir : Location) (t : FileTree)
    (entry : IO.FS.DirEntry) : IO FileTree := do
  let some name := Name.ofString? entry.fileName | return t
  match (← entry.path.symlinkMetadata).type with
  | .dir =>
    (← entry.path.readDir).foldlM (addEntry c placeOf (dir ++ [name]))
      (t.create dir name .directory)
  | .file =>
    if c.accepts name.text then
      return t.create dir name (.file (← IO.FS.readBinFile entry.path))
    else return t
  | .symlink =>
    if c.accepts name.text then
      match ← entry.path.metadata.toBaseIO with
      | .ok behind =>
        let target ← IO.FS.realPath entry.path
        let loc := placeOf (locationOf target.toString)
        let t ←
          if behind.type == .dir then pure (addDirectories t loc)
          else pure (addFile t loc (← IO.FS.readBinFile target))
        return t.create dir name (.link (pathOf loc))
      | .error (.noFileOrDirectory ..) => return t.create dir name (.link nowhere)
      | .error _ => return t.create dir name (.link name.text)
    else return t
  | .other => return t

/-- The picture for a run, and the location of the root in it. -/
def take (c : Config) : IO (FileTree × Location) := do
  let here ← IO.FS.realPath "."
  let workingDirectory := locationOf here.toString
  let start := if Path.isAbsolute c.root then [] else workingDirectory
  let t := { FileTree.empty with workingDirectory }
  let root := here / c.root
  if c.validate.isOk && c.root != "" && (← root.isDir) then
    let (t, loc) := addSteps t start (Path.steps c.root)
    let rootOnDisk := locationOf (← IO.FS.realPath root).toString
    return (← (← root.readDir).foldlM (addEntry c (place rootOnDisk loc) loc) t, loc)
  else return (addDirectories t workingDirectory, start)

/-- Writes the files of a picture whose content has changed. -/
def writeBack (c : Config) (root : Location) (before after : FileTree) : IO Unit := do
  for (loc, entry) in after.table.entries do
    match entry with
    | .file content =>
      if before.get? loc ≠ some entry then
        let path :=
          match root.isPrefixOf? loc with
          | some below => Walk.pathOf c.root below
          | none => pathOf loc
        IO.FS.writeBinFile path content
    | _ => pure ()

end FlutterMend.Picture

open FlutterMend in
def main (arguments : List String) : IO UInt32 := do
  let setting ← IO.getEnv "RUST_LOG"
  let execution ←
    match Arguments.parse arguments with
    | .ok (.run c) => do
      let (picture, root) ← Picture.take c
      let execution := CommandLine.execute arguments setting picture
      Picture.writeBack c root picture execution.tree
      pure execution
    | _ => pure (CommandLine.execute arguments setting .empty)
  IO.eprint execution.stderr
  IO.print execution.stdout
  return execution.code.toUInt32
