import FlutterMend.FileTree.Location
import FlutterMend.SortedTable

/-!
# File trees

A file tree is a sorted table of entries. It has a directory at the top, which is in no table, and
whatever the table holds lies in a directory. Two trees with the same entries at the same locations
are equal, so nothing but names, contents and link targets can tell trees apart.

A tree changes in three ways: a directory gets a new entry, a file gets new content, or an entry
goes with everything below it. Each is a total function that leaves the tree as it is where the
change makes no sense, and each is described by what `get?` finds afterwards.
-/

namespace FlutterMend

inductive Entry where
  | file (content : ByteArray)
  | directory
  | link (target : String)

namespace Entry

instance : DecidableEq Entry
  | file a, file b => decidable_of_iff (a.data = b.data) (by simp [ByteArray.ext_iff])
  | directory, directory => isTrue rfl
  | link a, link b => decidable_of_iff (a = b) (by simp)
  | file _, directory | file _, link _ | directory, file _ | directory, link _ | link _, file _
  | link _, directory => isFalse nofun

inductive Kind where
  | file
  | directory
  | link
  deriving DecidableEq, Repr

def kind : Entry → Kind
  | file _ => .file
  | directory => .directory
  | link _ => .link

end Entry

/-- A tree of named entries, and the directory from which relative paths are followed. -/
structure FileTree where
  table : SortedTable Location Entry
  top_unbound : table.get? [] = none
  parent_directory : ∀ dir name, (table.get? (dir ++ [name])).isSome →
    dir = [] ∨ table.get? dir = some .directory
  workingDirectory : Location := []

namespace FileTree

def empty : FileTree where
  table := .empty
  top_unbound := rfl
  parent_directory := by simp

instance : Inhabited FileTree := ⟨empty⟩

theorem ext {s t : FileTree} (table : s.table = t.table)
    (workingDirectory : s.workingDirectory = t.workingDirectory) : s = t := by
  cases s; cases t; cases table; cases workingDirectory; rfl

/-- The entry at a location. The top of the tree is a directory. -/
def get? (t : FileTree) (loc : Location) : Option Entry :=
  if loc = [] then some .directory else t.table.get? loc

@[simp] theorem get?_top (t : FileTree) : t.get? [] = some .directory := rfl

theorem get?_append_singleton (t : FileTree) (dir : Location) (name : Name) :
    t.get? (dir ++ [name]) = t.table.get? (dir ++ [name]) := by
  simp [get?]

theorem get?_eq_directory_iff {t : FileTree} {loc : Location} :
    t.get? loc = some .directory ↔ loc = [] ∨ t.table.get? loc = some .directory := by
  by_cases h : loc = [] <;> simp [get?, h]

/-- Every entry lies in a directory. -/
theorem get?_parent {t : FileTree} {dir : Location} {name : Name}
    (h : (t.get? (dir ++ [name])).isSome) : t.get? dir = some .directory :=
  get?_eq_directory_iff.2 (t.parent_directory dir name (by rwa [get?_append_singleton] at h))

/-- The number of entries below the top. -/
def size (t : FileTree) : Nat := t.table.size

/-- The names in a directory in ascending order, with the kinds of their entries. -/
def children (t : FileTree) (dir : Location) : List (Name × Entry.Kind) :=
  t.table.entries.filterMap fun (loc, entry) =>
    match dir.isPrefixOf? loc with
    | some [name] => some (name, entry.kind)
    | _ => none

/-- The tree with a new entry in a directory. Nothing happens if the name is taken, or if there is
no such directory. -/
def create (t : FileTree) (dir : Location) (name : Name) (entry : Entry) : FileTree :=
  if h : t.get? dir = some .directory ∧ t.get? (dir ++ [name]) = none then
    { t with
      table := t.table.insert (dir ++ [name]) entry
      top_unbound := by simp [t.top_unbound]
      parent_directory := by
        intro dir₁ name₁ bound
        obtain ⟨isDirectory, free⟩ := h
        rw [get?_append_singleton] at free
        have kept : ∀ loc, t.table.get? loc = some .directory →
            (t.table.insert (dir ++ [name]) entry).get? loc = some .directory := by
          intro loc hloc
          have : loc ≠ dir ++ [name] := by rintro rfl; simp [free] at hloc
          simp [this, hloc]
        rw [SortedTable.get?_insert] at bound
        split at bound
        · next same =>
          obtain ⟨rfl, -⟩ := List.append_inj' same rfl
          exact (get?_eq_directory_iff.1 isDirectory).imp_right (kept _)
        · exact (t.parent_directory dir₁ name₁ bound).imp_right (kept _) }
  else t

/-- The tree with new content in the file at a location. Nothing happens if no file is there. -/
def setContent (t : FileTree) (loc : Location) (content : ByteArray) : FileTree :=
  if h : (t.table.get? loc).map Entry.kind = some .file then
    { t with
      table := t.table.insert loc (.file content)
      top_unbound := by
        have : loc ≠ [] := by rintro rfl; simp [t.top_unbound] at h
        simp [this.symm, t.top_unbound]
      parent_directory := by
        intro dir name bound
        have kept : ∀ loc₁, t.table.get? loc₁ = some .directory →
            (t.table.insert loc (.file content)).get? loc₁ = some .directory := by
          intro loc₁ hloc
          have : loc₁ ≠ loc := by rintro rfl; simp [hloc, Entry.kind] at h
          simp [this, hloc]
        have : (t.table.get? (dir ++ [name])).isSome := by
          rw [SortedTable.get?_insert] at bound
          split at bound
          · next same =>
            obtain ⟨e, he, -⟩ := Option.map_eq_some_iff.1 h
            simp [same, he]
          · exact bound
        exact (t.parent_directory dir name this).imp_right (kept _) }
  else t

/-- The tree without the entry at a location and without everything below it. -/
def remove (t : FileTree) (loc : Location) : FileTree :=
  { t with
    table := t.table.filterKeys fun key => !loc.isPrefixOf key
    top_unbound := by simp [t.top_unbound]
    parent_directory := by
      intro dir name bound
      rw [SortedTable.get?_filterKeys] at bound
      split at bound
      · next outside =>
        refine (t.parent_directory dir name bound).imp_right fun hdir => ?_
        have : loc.isPrefixOf dir = false := by
          simp only [Bool.not_eq_true', List.isPrefixOf_iff_prefix, ← Bool.not_eq_true] at outside ⊢
          exact fun h => outside (h.trans (List.prefix_append _ _))
        simp [this, hdir]
      · simp at bound }

theorem get?_create {t : FileTree} {dir : Location} {name : Name} (entry : Entry)
    (isDirectory : t.get? dir = some .directory) (free : t.get? (dir ++ [name]) = none)
    (loc : Location) :
    (t.create dir name entry).get? loc =
      if loc = dir ++ [name] then some entry else t.get? loc := by
  rw [create, dif_pos ⟨isDirectory, free⟩]
  by_cases top : loc = []
  · subst top; simp
  · simp [get?, top]

theorem get?_setContent {t : FileTree} {loc : Location} (content : ByteArray)
    (isFile : (t.get? loc).map Entry.kind = some .file) (loc₁ : Location) :
    (t.setContent loc content).get? loc₁ =
      if loc₁ = loc then some (.file content) else t.get? loc₁ := by
  have notTop : loc ≠ [] := by rintro rfl; simp [Entry.kind] at isFile
  have bound : (t.table.get? loc).map Entry.kind = some .file := by
    simpa [get?, notTop] using isFile
  rw [setContent, dif_pos bound]
  by_cases top : loc₁ = []
  · subst top; simp [Ne.symm notTop]
  · simp [get?, top]

theorem get?_remove (t : FileTree) {loc : Location} (notTop : loc ≠ []) (loc₁ : Location) :
    (t.remove loc).get? loc₁ = if loc <+: loc₁ then none else t.get? loc₁ := by
  by_cases top : loc₁ = []
  · subst top; simp [notTop]
  · by_cases below : loc <+: loc₁
    · simp [get?, remove, top, below, List.isPrefixOf_iff_prefix.2 below]
    · have : loc.isPrefixOf loc₁ = false := by simpa [← List.isPrefixOf_iff_prefix] using below
      simp [get?, remove, top, below, this]

/-- The tree with the entries in turn put at their places. -/
def addAll (t : FileTree) (entries : List (Location × Entry)) : FileTree :=
  entries.foldl (fun t (loc, entry) =>
    match loc.getLast? with
    | none => t
    | some name => t.create loc.dropLast name entry) t

/-- The tree with an entry and everything below it taken to another location. -/
def move (t : FileTree) (source target : Location) : FileTree :=
  (t.remove source).addAll <| t.table.entries.filterMap fun (loc, entry) =>
    (source.isPrefixOf? loc).map fun rest => (target ++ rest, entry)

end FileTree

end FlutterMend
