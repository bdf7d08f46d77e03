import FlutterMend.FileTree.Basic
import FlutterMend.FileTree.FileError
import FlutterMend.FileTree.Path

/-!
# Following paths

A path is followed step by step from a directory. Links met on the way are replaced by the steps of
their targets, and after forty links the path is given up. What the path leads to is either an entry
or a free name in a directory.
-/

namespace FlutterMend

/-- Where a path leads. -/
inductive Place where
  | entry (loc : Location)
  | free (dir : Location) (name : Name)
  deriving DecidableEq, Repr

/-- What a path is followed for: the entry behind a link at its end, the entry at its end even if
that is a link, or a file that is to be written. -/
inductive Purpose where
  | inspect
  | inspectLink
  | write
  deriving DecidableEq, Repr

namespace FileTree

/-- Follows steps from a directory. A link is handed on, with the directory to start from and the
steps that are then left. A file is never written at a name with a slash after it. -/
def followSteps (t : FileTree) (purpose : Purpose)
    (onLink : Location → List Step → Except FileError Place) :
    Location → List Step → Except FileError Place
  | dir, [] => .ok (.entry dir)
  | dir, .here :: steps | dir, .slash :: steps => followSteps t purpose onLink dir steps
  | dir, .up :: steps => followSteps t purpose onLink dir.dropLast steps
  | _, .tooLong :: steps =>
    .error (if purpose = .write ∧ steps = [.slash] then .isDirectory else .nameTooLong)
  | dir, .child name :: steps =>
    if purpose = .write ∧ steps = [.slash] then
      .error .isDirectory
    else
      match t.get? (dir ++ [name]) with
      | none => if steps = [] then .ok (.free dir name) else .error .missing
      | some .directory => followSteps t purpose onLink (dir ++ [name]) steps
      | some (.file _) =>
        if steps = [] then .ok (.entry (dir ++ [name])) else .error .notDirectory
      | some (.link target) =>
        if steps = [] ∧ purpose = .inspectLink then .ok (.entry (dir ++ [name]))
        else onLink (if Path.isAbsolute target then [] else dir) (Path.steps target ++ steps)

/-- Follows steps through at most the given number of links. -/
def followLinks (t : FileTree) (purpose : Purpose) :
    Nat → Location → List Step → Except FileError Place
  | 0 => followSteps t purpose fun _ _ => .error .tooManyLinks
  | links + 1 => followSteps t purpose (followLinks t purpose links)

/-- The number of links that may be met on one path. -/
def maxLinks : Nat := 40

/-- The length in bytes that a path must not reach. -/
def maxPathSize : Nat := 4096

/-- The directory from which the steps of a path are followed. -/
def startOf (t : FileTree) (path : String) : Location :=
  if Path.isAbsolute path then [] else t.workingDirectory

/-- Follows a path. -/
def resolve (t : FileTree) (purpose : Purpose) (path : String) : Except FileError Place :=
  if '\x00' ∈ path.toList then .error .nullInPath
  else if path = "" then .error .missing
  else if maxPathSize ≤ path.utf8ByteSize then .error .nameTooLong
  else if t.get? (t.startOf path) ≠ some .directory then .error .missing
  else followLinks t purpose maxLinks (t.startOf path) (Path.steps path)

end FileTree

end FlutterMend
