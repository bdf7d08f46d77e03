import FlutterMend.FileTree.Access
import Mathlib

/-!
# The shape of a tree

Two trees have the same shape if they differ in the contents of files only. Paths lead to the same
places in such trees, and directories have the same children. Writing to a file leaves the shape as
it is.
-/

namespace FlutterMend

/-- An entry without the content of a file. -/
def Entry.emptied : Entry → Entry
  | file _ => file .empty
  | e => e

theorem Entry.kind_emptied (e : Entry) : e.emptied.kind = e.kind := by
  cases e <;> rfl

namespace SortedTable

variable {κ ν μ : Type} [LT κ] [DecidableEq κ] [Std.Irrefl (α := κ) (· < ·)]
  [Trans (α := κ) (· < ·) (· < ·) (· < ·)]

/-- Tables that agree on every key up to a function of the values have the same lists up to it. -/
theorem entries_map_eq {s t : SortedTable κ ν} {f : ν → μ}
    (h : ∀ k, (t.get? k).map f = (s.get? k).map f) :
    t.entries.map (fun e => (e.1, f e.2)) = s.entries.map (fun e => (e.1, f e.2)) := by
  have sorted (u : SortedTable κ ν) :
      (u.entries.map fun e => (e.1, f e.2)).Pairwise fun a b => a.1 < b.1 := by
    rw [List.pairwise_map]
    exact u.sorted
  have nodup (u : SortedTable κ ν) : (u.entries.map fun e => (e.1, f e.2)).Nodup := by
    refine (sorted u).imp fun {a b} lt eq => ?_
    rw [eq] at lt
    exact Std.Irrefl.irrefl _ lt
  have mem (u : SortedTable κ ν) (k : κ) (v : μ) :
      (k, v) ∈ u.entries.map (fun e => (e.1, f e.2)) ↔ (u.get? k).map f = some v := by
    rw [List.mem_map, Option.map_eq_some_iff]
    constructor
    · rintro ⟨⟨k', w⟩, inside, eq⟩
      cases eq
      exact ⟨w, mem_entries_iff.1 inside, rfl⟩
    · rintro ⟨w, bound, rfl⟩
      exact ⟨(k, w), mem_entries_iff.2 bound, rfl⟩
  refine List.Perm.eq_of_pairwise (fun a b _ _ ab ba => ?_) (sorted t) (sorted s)
    ((List.perm_ext_iff_of_nodup (nodup t) (nodup s)).2 fun (k, v) => ?_)
  · exact absurd (Trans.trans ab ba) (Std.Irrefl.irrefl _)
  · rw [mem, mem, h]

end SortedTable

namespace FileTree

/-- The children of a directory depend on the kinds of the entries only. -/
theorem children_eq_filterMap (t : FileTree) (dir : Location) : t.children dir =
    (t.table.entries.map fun e => (e.1, e.2.kind)).filterMap fun (loc, kind) =>
      match dir.isPrefixOf? loc with
      | some [name] => some (name, kind)
      | _ => none := by
  rw [List.filterMap_map]
  rfl

/-- A tree is determined by its entries and the directory from which relative paths are followed. -/
theorem eq_of_get? {s t : FileTree} (workingDirectory : t.workingDirectory = s.workingDirectory)
    (h : ∀ loc, t.get? loc = s.get? loc) : t = s := by
  refine FileTree.ext (SortedTable.ext ?_) workingDirectory
  have bound : ∀ loc, (t.table.get? loc).map id = (s.table.get? loc).map id := by
    intro loc
    cases eq : loc with
    | nil => rw [t.top_unbound, s.top_unbound]
    | cons name rest => simpa [get?, eq] using h loc
  simpa using SortedTable.entries_map_eq bound

/-- Two trees differ in the contents of files only. -/
structure SameShape (s t : FileTree) : Prop where
  workingDirectory : t.workingDirectory = s.workingDirectory
  get? : ∀ loc, (t.get? loc).map Entry.emptied = (s.get? loc).map Entry.emptied

namespace SameShape

variable {s t u : FileTree}

theorem symm (h : SameShape s t) : SameShape t s :=
  ⟨h.workingDirectory.symm, fun loc => (h.get? loc).symm⟩

/-- The tables bind the same locations to entries of the same kinds. -/
theorem table_kind (h : SameShape s t) (loc : Location) :
    (t.table.get? loc).map Entry.kind = (s.table.get? loc).map Entry.kind := by
  cases eq : loc with
  | nil => rw [t.top_unbound, s.top_unbound]
  | cons name rest =>
    have := congrArg (Option.map Entry.kind) (h.get? loc)
    simpa [FileTree.get?, eq, Function.comp_def, Entry.kind_emptied] using this

theorem children (h : SameShape s t) (dir : Location) : t.children dir = s.children dir := by
  have entries := SortedTable.entries_map_eq h.table_kind
  rw [children_eq_filterMap, children_eq_filterMap, entries]

theorem size (h : SameShape s t) : t.size = s.size := by
  simpa [FileTree.size, SortedTable.size] using
    congrArg List.length (SortedTable.entries_map_eq h.table_kind)

theorem get?_eq_none (h : SameShape s t) {loc : Location} (absent : s.get? loc = none) :
    t.get? loc = none := by
  simpa [absent] using h.get? loc

theorem get?_directory (h : SameShape s t) {loc : Location}
    (directory : s.get? loc = some .directory) : t.get? loc = some .directory := by
  have same := h.get? loc
  rw [directory] at same
  obtain ⟨e, he, eq⟩ := Option.map_eq_some_iff.1 same
  cases e <;> cases eq
  exact he

theorem get?_link (h : SameShape s t) {loc : Location} {target : String}
    (link : s.get? loc = some (.link target)) : t.get? loc = some (.link target) := by
  have same := h.get? loc
  rw [link] at same
  obtain ⟨e, he, eq⟩ := Option.map_eq_some_iff.1 same
  cases e <;> cases eq
  exact he

theorem get?_file (h : SameShape s t) {loc : Location} {content : ByteArray}
    (file : s.get? loc = some (.file content)) :
    ∃ content', t.get? loc = some (.file content') := by
  have same := h.get? loc
  rw [file] at same
  obtain ⟨e, he, eq⟩ := Option.map_eq_some_iff.1 same
  cases e <;> cases eq
  exact ⟨_, he⟩

theorem followSteps (h : SameShape s t) (purpose : Purpose)
    (onLink : Location → List Step → Except FileError Place) (dir : Location)
    (steps : List Step) :
    t.followSteps purpose onLink dir steps = s.followSteps purpose onLink dir steps := by
  induction steps generalizing dir with
  | nil => rfl
  | cons step steps ih =>
    cases step with
    | here => exact ih dir
    | slash => exact ih dir
    | up => exact ih dir.dropLast
    | tooLong => rfl
    | child name =>
      rw [FileTree.followSteps, FileTree.followSteps]
      cases found : s.get? (dir ++ [name]) with
      | none => rw [h.get?_eq_none found]
      | some entry =>
        cases entry with
        | directory => rw [h.get?_directory found, ih]
        | link target => rw [h.get?_link found]
        | file content =>
          obtain ⟨content', found'⟩ := h.get?_file found
          rw [found']

theorem followLinks (h : SameShape s t) (purpose : Purpose) (links : Nat) :
    t.followLinks purpose links = s.followLinks purpose links := by
  induction links with
  | zero =>
    funext dir steps
    exact h.followSteps purpose _ dir steps
  | succ links ih =>
    funext dir steps
    rw [FileTree.followLinks, FileTree.followLinks, ih, h.followSteps]

theorem resolve (h : SameShape s t) (purpose : Purpose) (path : String) :
    t.resolve purpose path = s.resolve purpose path := by
  have start : t.startOf path = s.startOf path := by
    rw [startOf, startOf, h.workingDirectory]
  have directory : t.get? (s.startOf path) = some .directory ↔
      s.get? (s.startOf path) = some .directory :=
    ⟨h.symm.get?_directory, h.get?_directory⟩
  rw [FileTree.resolve, FileTree.resolve, start, h.followLinks]
  simp only [ne_eq, directory]

theorem locate (h : SameShape s t) (purpose : Purpose) (path : String) :
    (t.locate purpose path).map (fun (loc, e) => (loc, e.emptied)) =
      (s.locate purpose path).map (fun (loc, e) => (loc, e.emptied)) := by
  rw [FileTree.locate, FileTree.locate, h.resolve]
  match s.resolve purpose path with
  | .error e => rfl
  | .ok (.free dir name) => rfl
  | .ok (.entry loc) =>
    have same := h.get? loc
    cases found : s.get? loc with
    | none => simp only [found, h.get?_eq_none found]
    | some entry =>
      rw [found] at same
      obtain ⟨entry', found', eq⟩ := Option.map_eq_some_iff.1 same
      simp only [found, found', Except.map, eq]

theorem kindOf (h : SameShape s t) (purpose : Purpose) (path : String) :
    t.kindOf purpose path = s.kindOf purpose path := by
  have kindOf_eq (u : FileTree) : u.kindOf purpose path =
      ((u.locate purpose path).map fun (loc, e) => (loc, e.emptied)).map (·.2.kind) := by
    rw [FileTree.kindOf]
    cases u.locate purpose path with
    | error e => rfl
    | ok found => exact congrArg Except.ok (Entry.kind_emptied _).symm
  rw [kindOf_eq, kindOf_eq, h.locate]

theorem isDirectory (h : SameShape s t) (path : String) :
    t.isDirectory path = s.isDirectory path := by
  rw [FileTree.isDirectory, FileTree.isDirectory, h.kindOf]

theorem list (h : SameShape s t) (path : String) : t.list path = s.list path := by
  have same := h.locate .inspect path
  rw [FileTree.list, FileTree.list]
  match found : s.locate .inspect path, found' : t.locate .inspect path with
  | .error e, .error e' =>
    rw [found, found'] at same
    cases same
    rfl
  | .error e, .ok _ | .ok _, .error e' =>
    rw [found, found'] at same
    cases same
  | .ok (loc, e), .ok (loc', e') =>
    rw [found, found'] at same
    obtain ⟨rfl, eq⟩ : loc' = loc ∧ e'.emptied = e.emptied := by
      simpa [Except.map] using same
    cases e <;> cases e' <;> cases eq
    · rfl
    · exact congrArg Except.ok (h.children _)
    · rfl

end SameShape

end FileTree

end FlutterMend
