import FlutterMend.FileTree.Resolve

/-!
# Changing the shape of a tree

Making directories and links, and taking entries away or to another place. A change at the end of a
path concerns the entry of that name itself: a link there is not followed.
-/

namespace FlutterMend.FileTree

/-- The last of the steps, and the directory from which it is taken. A slash at the end is passed
over. -/
def followToLast (t : FileTree) (start : Location) (steps : List Step) :
    Except FileError (Location × Step) :=
  let steps := if steps.getLast? = some .slash then steps.dropLast else steps
  match steps.getLast? with
  | none => .ok (start, .here)
  | some last =>
    match t.followLinks .inspect maxLinks start (steps.dropLast ++ [.here]) with
    | .error e => .error e
    | .ok (.free _ _) => .error .missing
    | .ok (.entry dir) => .ok (dir, last)

/-- The tree with a new entry where steps lead. Only a directory is made at a name with a slash
after it. -/
def createAt (t : FileTree) (start : Location) (steps : List Step) (entry : Entry) :
    Except FileError FileTree :=
  match t.followToLast start steps with
  | .error e => .error e
  | .ok (dir, .child name) =>
    if (t.get? (dir ++ [name])).isSome then .error .alreadyExists
    else if steps.getLast? = some .slash ∧ entry ≠ .directory then .error .missing
    else .ok (t.create dir name entry)
  | .ok (_, .tooLong) => .error .nameTooLong
  | .ok _ => .error .alreadyExists

def isDirectoryAt (t : FileTree) (start : Location) (steps : List Step) : Bool :=
  match t.followLinks .inspect maxLinks start steps with
  | .ok (.entry loc) => t.get? loc == some .directory
  | _ => false

/-- Makes the directory that the first steps lead to, and before it those that the later steps lead
to if it cannot be made without them. An error leaves behind the directories made before it. -/
def makeDirectoriesAt (t : FileTree) (start : Location) :
    List (List Step) → FileTree × Except FileError Unit
  | [] => (t, .ok ())
  | steps :: above =>
    let attempt (t : FileTree) : FileTree × Except FileError Unit :=
      match t.createAt start steps .directory with
      | .ok t => (t, .ok ())
      | .error e => (t, if t.isDirectoryAt start steps then .ok () else .error e)
    match t.createAt start steps .directory with
    | .error .missing =>
      match makeDirectoriesAt t start above with
      | (t, .ok ()) => attempt t
      | failed => failed
    | _ => attempt t

/-- The beginnings of a list that is given in reverse order, from the longest to the shortest one
that is not empty. -/
def beginnings : List Step → List (List Step)
  | [] => []
  | last :: above => (last :: above).reverse :: beginnings above

/-- Refuses texts that are no path at all. -/
def checkPath (path : String) : Except FileError Unit :=
  if '\x00' ∈ path.toList then .error .nullInPath
  else if maxPathSize ≤ path.utf8ByteSize then .error .nameTooLong
  else .ok ()

/-- Makes a directory and those above it that are missing. A directory that exists is left alone. -/
def makeDirectories (t : FileTree) (path : String) : FileTree × Except FileError Unit :=
  match checkPath path with
  | .error e => (t, .error e)
  | .ok () =>
    let steps := Path.steps path
    let proper := steps.filter fun step => step != .here && step != .slash
    t.makeDirectoriesAt (t.startOf path) <|
      match proper.reverse with
      | [] => []
      | _ :: above => steps :: beginnings above

/-- Makes a link with the given target, which need not exist. -/
def makeLink (t : FileTree) (target path : String) : Except FileError FileTree := do
  checkPath target
  checkPath path
  if target = "" then throw .missing
  t.createAt (t.startOf path) (Path.steps path) (.link target)

/-- Removes an entry with everything below it. -/
def removePath (t : FileTree) (path : String) : Except FileError FileTree := do
  match ← t.resolve .inspectLink path with
  | .free _ _ => throw .missing
  | .entry loc => return t.remove loc

/-- The name that a last step gives to an entry that is to be moved. -/
def nameOfLast : Step → Except FileError Name
  | .child name => .ok name
  | .tooLong => .error .nameTooLong
  | _ => .error .busy

/-- Takes an entry to another name, with everything below it. A directory may take the place of an
empty directory, and anything else that of anything but a directory. -/
def rename (t : FileTree) (source target : String) : Except FileError FileTree := do
  checkPath source
  checkPath target
  if source = "" ∨ target = "" then throw .missing
  let sourceSteps := Path.steps source
  let targetSteps := Path.steps target
  let (sourceDir, sourceLast) ← t.followToLast (t.startOf source) sourceSteps
  let (targetDir, targetLast) ← t.followToLast (t.startOf target) targetSteps
  let sourceLoc := sourceDir ++ [← nameOfLast sourceLast]
  let some entry := t.get? sourceLoc
    | throw .missing
  let targetLoc := targetDir ++ [← nameOfLast targetLast]
  let slash := sourceSteps.getLast? = some .slash ∨ targetSteps.getLast? = some .slash
  if entry ≠ .directory ∧ slash then throw .notDirectory
  if sourceLoc = targetLoc then return t
  if sourceLoc.isPrefixOf targetLoc then throw .invalidArgument
  if targetLoc.isPrefixOf sourceLoc then throw .directoryNotEmpty
  match entry, t.get? targetLoc with
  | _, none => return t.move sourceLoc targetLoc
  | .directory, some .directory =>
    if t.children targetLoc ≠ [] then throw .directoryNotEmpty
    return (t.remove targetLoc).move sourceLoc targetLoc
  | .directory, some _ => throw .notDirectory
  | _, some .directory => throw .isDirectory
  | _, some _ => return (t.remove targetLoc).move sourceLoc targetLoc

end FlutterMend.FileTree
