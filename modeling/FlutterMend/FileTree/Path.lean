import FlutterMend.FileTree.Location
import FlutterMend.Text

/-!
# Paths

A path is kept as it was written, because reports repeat it. Its meaning is a list of steps, one for
each segment between slashes; empty segments mean nothing, except that a slash at the very end asks
for a directory.
-/

namespace FlutterMend

/-- One step along a path. A segment that is longer than any name leads nowhere. -/
inductive Step where
  | here
  | up
  | child (name : Name)
  | tooLong
  | slash
  deriving DecidableEq, Repr

def Step.ofSegment (segment : Text) : Step :=
  if segment = ['.'] then .here
  else if segment = ['.', '.'] then .up
  else
    match Name.ofString? (String.ofList segment) with
    | some name => .child name
    | none => .tooLong

namespace Path

/-- The texts between the slashes of a path. -/
def segments (path : String) : List Text := Text.pieces '/' path.toList

def isAbsolute (path : String) : Bool := path.toList.head? == some '/'

def stepsOfSegments : List Text → List Step
  | [] => []
  | [[]] => [.slash]
  | [] :: rest => stepsOfSegments rest
  | segment :: rest => Step.ofSegment segment :: stepsOfSegments rest

def steps (path : String) : List Step := stepsOfSegments (segments path)

/-- Whether a segment names something, rather than the directory it stands in. -/
def isProper (segment : Text) : Bool := segment != [] && segment != ['.']

/-- The parts of a path that count when paths are compared. A first segment always counts, since it
tells an absolute path from a relative one. -/
def components (path : String) : List Text :=
  match segments path with
  | [] => []
  | first :: rest => first :: rest.filter isProper

/-- The path of an entry of a directory. -/
def join (dir name : String) : String :=
  match dir.toList.getLast? with
  | none | some '/' => dir ++ name
  | some _ => dir ++ "/" ++ name

/-- The last name on a path, or the whole path if it does not end with a name. -/
def fileName (path : String) : String :=
  match ((segments path).filter isProper).getLast? with
  | none | some ['.', '.'] => path
  | some segment => String.ofList segment

/-- The segments up to the last proper one. -/
def trimRight (segments : List Text) : List Text :=
  (segments.reverse.dropWhile fun segment => !isProper segment).reverse

/-- A relative path without its last part, as it is written before it. -/
def parent (path : String) : String :=
  String.ofList <|
    ['/'].intercalate (trimRight (trimRight (segments path)).dropLast)

end Path

end FlutterMend
