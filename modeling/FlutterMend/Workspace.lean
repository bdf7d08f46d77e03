import FlutterMend.Fault
import FlutterMend.FileTree.Access
import FlutterMend.FileTree.Change

/-!
# Workspaces

Preparing and inspecting a tree from its working directory. All paths are taken from there, and the
empty path is the working directory itself.
-/

namespace FlutterMend.Workspace

/-- A path from the working directory. -/
def fromHere (path : String) : String := "./" ++ path

/-- Writes a file and makes the directories above it that are missing. -/
def write (t : FileTree) (path : String) (content : ByteArray) : FileTree × Except Fault Unit :=
  let parent := Path.parent path
  match t.makeDirectories (fromHere parent) with
  | (t, .error e) => (t, .error (.create parent e))
  | (t, .ok ()) =>
    match t.write (fromHere path) content with
    | .error e => (t, .error (.write path e))
    | .ok t => (t, .ok ())

def read (t : FileTree) (path : String) : Except Fault Text :=
  match t.readText (fromHere path) with
  | .error e => .error (.read path e)
  | .ok s => .ok s

def makeDirectories (t : FileTree) (path : String) : FileTree × Except FileError Unit :=
  t.makeDirectories (fromHere path)

def makeLink (t : FileTree) (target path : String) : Except FileError FileTree :=
  t.makeLink target (fromHere path)

def remove (t : FileTree) (path : String) : Except FileError FileTree :=
  t.removePath (fromHere path)

def rename (t : FileTree) (source target : String) : Except FileError FileTree :=
  t.rename (fromHere source) (fromHere target)

/-- All entries of a tree with their paths from the top, in the order of the bytes of the paths. -/
def contents (t : FileTree) : List (String × Entry) :=
  let bytes (path : String) : List UInt8 := path.toUTF8.data.toList
  (t.table.entries.map fun (loc, entry) => ("/".intercalate (loc.map Name.text), entry)).mergeSort
    fun a b => !(bytes b.1 < bytes a.1)

end FlutterMend.Workspace
