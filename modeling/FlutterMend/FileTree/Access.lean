import FlutterMend.FileTree.Resolve
import FlutterMend.Text

/-!
# Reading and writing by path

The operations that a fix run needs of a file tree. Reading and listing leave the tree as it is, and
writing changes the content of one file or creates it.
-/

namespace FlutterMend.FileTree

/-- The entry that a path leads to, and where it is. -/
def locate (t : FileTree) (purpose : Purpose) (path : String) :
    Except FileError (Location × Entry) :=
  match t.resolve purpose path with
  | .error e => .error e
  | .ok (.free _ _) => .error .missing
  | .ok (.entry loc) =>
    match t.get? loc with
    | none => .error .missing
    | some entry => .ok (loc, entry)

/-- The kind of the entry that a path leads to. -/
def kindOf (t : FileTree) (purpose : Purpose) (path : String) : Except FileError Entry.Kind :=
  (t.locate purpose path).map fun (_, entry) => entry.kind

/-- Whether a path leads to a directory, possibly through links. -/
def isDirectory (t : FileTree) (path : String) : Bool :=
  match t.kindOf .inspect path with
  | .ok .directory => true
  | _ => false

/-- The names in the directory that a path leads to, in ascending order. -/
def list (t : FileTree) (path : String) : Except FileError (List (Name × Entry.Kind)) :=
  match t.locate .inspect path with
  | .error e => .error e
  | .ok (loc, .directory) => .ok (t.children loc)
  | .ok _ => .error .notDirectory

/-- The text that a file content stands for, if it is valid UTF-8. -/
def decode? (content : ByteArray) : Option Text := (String.fromUTF8? content).map String.toList

def encode (s : Text) : ByteArray := (String.ofList s).toUTF8

@[simp] theorem decode?_encode (s : Text) : decode? (encode s) = some s := by
  unfold decode? encode String.fromUTF8?
  rw [String.toUTF8_eq_toByteArray, dif_pos (String.ofList s).isValidUTF8]
  exact congrArg some String.toList_ofList

/-- The text of the file that a path leads to. -/
def readText (t : FileTree) (path : String) : Except FileError Text :=
  match t.locate .inspect path with
  | .error e => .error e
  | .ok (_, .file content) =>
    match decode? content with
    | some s => .ok s
    | none => .error .notText
  | .ok _ => .error .isDirectory

/-- The tree with the given content in the file that a path leads to, which is created if its
directory exists. -/
def write (t : FileTree) (path : String) (content : ByteArray) : Except FileError FileTree :=
  match t.resolve .write path with
  | .error e => .error e
  | .ok (.free dir name) => .ok (t.create dir name (.file content))
  | .ok (.entry loc) =>
    match t.get? loc with
    | some (.file _) => .ok (t.setContent loc content)
    | _ => .error .isDirectory

end FlutterMend.FileTree
