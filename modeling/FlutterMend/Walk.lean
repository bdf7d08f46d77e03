import FlutterMend.Config
import FlutterMend.FileTree.Access

/-!
# Walks

A walk goes through the directory tree below a root and finds the files to revise. It goes depth
first, in the order of the names, and does not descend into links, except into a root that is one. A
directory is listed when the walk comes to it. From then on its entries are remembered with their
kinds, and the walk does not see what becomes of them later, except that a link is followed when the
walk comes to it to tell whether it leads to a directory.
-/

namespace FlutterMend

/-- What a walk has still to visit: the root, or an entry found below it. -/
inductive Pending where
  | root
  | found (below : Location) (kind : Entry.Kind)
  deriving DecidableEq, Repr

structure Walk where
  config : Config
  pending : List Pending
  deriving DecidableEq, Repr

/-- What comes of visiting one entry: perhaps an item of the walk, which is the path of an eligible
file or a fault, perhaps the path of an entry that is passed over because it is no file, and the
entries found in it. -/
structure Visit where
  item : Option (Except Fault String) := none
  skipped : Option String := none
  children : List Pending := []

namespace Walk

/-- The path of an entry below a root. -/
def pathOf (root : String) (below : Location) : String :=
  below.foldl (fun dir name => Path.join dir name.text) root

/-- Whether the entry at a path counts as a file: a file by its kind, or a link that does not lead
to a directory. -/
def isFile (t : FileTree) (path : String) : Entry.Kind → Bool
  | .file => true
  | .directory => false
  | .link => !t.isDirectory path

/-- Checks the name and the kind of an entry. -/
def inspect (c : Config) (t : FileTree) (path name : String) (kind : Entry.Kind) : Visit :=
  if c.accepts name then
    if isFile t path kind then { item := some (.ok path) } else { skipped := some path }
  else {}

/-- Lists a directory, which is no file, as part of a visit. -/
def descend (c : Config) (t : FileTree) (path : String) (below : Location) (visit : Visit) :
    Visit :=
  match t.list path with
  | .error e => { visit with item := some (.error (.walk c.root path e)) }
  | .ok names =>
    { visit with children := names.map fun (name, kind) => .found (below ++ [name]) kind }

/-- Visits the root, through a link if it is one. -/
def visitRoot (c : Config) (t : FileTree) : Visit :=
  match t.kindOf .inspectLink c.root with
  | .error e => { item := some (.error (.walk c.root c.root e)) }
  | .ok kind =>
    match t.kindOf .inspect c.root with
    | .error e => { item := some (.error (.walk c.root c.root e)) }
    | .ok kindBehind =>
      let visit := inspect c t c.root (Path.fileName c.root) kind
      if kindBehind = .directory then descend c t c.root [] visit else visit

def visit (c : Config) (t : FileTree) : Pending → Visit
  | .root => visitRoot c t
  | .found below kind =>
    let path := pathOf c.root below
    let name := (below.getLast?.map Name.text).getD ""
    let visit := inspect c t path name kind
    if kind = .directory then descend c t path below visit else visit

/-- Begins a walk. A root that is not a directory is not visited at all. -/
def start (c : Config) (t : FileTree) : Walk :=
  { config := c, pending := if t.isDirectory c.root then [.root] else [] }

/-- Visits the next entry, unless the walk is over. -/
def step (t : FileTree) (w : Walk) : Option (Visit × Walk) :=
  match w.pending with
  | [] => none
  | entry :: rest =>
    let v := visit w.config t entry
    some (v, { w with pending := v.children ++ rest })

/-- A number of steps after which a walk through an unchanging tree is over: no pending entry leads
to more entries than there are in the tree. -/
def budget (t : FileTree) (w : Walk) : Nat := w.pending.length * (t.size + 1)

/-- The next item within a number of steps, with the entries passed over on the way to it. -/
def nextWithin (t : FileTree) : Nat → Walk → Option (Except Fault String) × List String × Walk
  | 0, w => (none, [], w)
  | steps + 1, w =>
    match step t w with
    | none => (none, [], w)
    | some (v, w) =>
      match v.item with
      | some item => (some item, v.skipped.toList, w)
      | none =>
        let (item, skipped, w) := nextWithin t steps w
        (item, v.skipped.toList ++ skipped, w)

/-- The next item of a walk, if there is one, with the entries passed over on the way to it. -/
def next (t : FileTree) (w : Walk) : Option (Except Fault String) × List String × Walk :=
  nextWithin t (budget t w) w

/-- The items found within a number of steps. -/
def itemsWithin (t : FileTree) : Nat → Walk → List (Except Fault String)
  | 0, _ => []
  | steps + 1, w =>
    match step t w with
    | none => []
    | some (v, w) => v.item.toList ++ itemsWithin t steps w

/-- All items that a walk through an unchanging tree has still to find. -/
def items (t : FileTree) (w : Walk) : List (Except Fault String) := itemsWithin t (budget t w) w

end Walk

end FlutterMend
