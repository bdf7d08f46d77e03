import FlutterMend.Fault
import FlutterMend.FileTree.Access
import FlutterMend.Rule

/-!
# Source files

The text of a file on its way through a list of rules. It is read once, revised in memory, and
written back only if it differs from what was read.
-/

namespace FlutterMend

structure SourceFile where
  path : String
  loaded : Text
  text : Text
  deriving DecidableEq, Repr

namespace SourceFile

def load (t : FileTree) (path : String) : Except Fault SourceFile :=
  match t.readText path with
  | .error e => .error (.read path e)
  | .ok s => .ok { path, loaded := s, text := s }

/-- The file after a list of rules, and those of the rules that changed its text. -/
def apply (file : SourceFile) (rules : List Rule) : SourceFile × List Rule :=
  let revision := Revision.ofRules rules file.text
  ({ file with text := revision.text }, revision.applied)

def isModified (file : SourceFile) : Bool := file.text != file.loaded

/-- Writes a modified file back. The tree and whether it was written to. -/
def persist (file : SourceFile) (t : FileTree) : Except Fault (FileTree × Bool) :=
  if file.isModified then
    match t.write file.path (FileTree.encode file.text) with
    | .error e => .error (.write file.path e)
    | .ok t => .ok (t, true)
  else .ok (t, false)

end SourceFile

end FlutterMend
