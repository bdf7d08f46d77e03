import FlutterMend.Proofs.Walk.Open
import FlutterMend.Workspace

/-!
# What a walk finds

A walk through an unchanging tree finds just the eligible entries below its root: files, and links
that do not lead to a directory, whose name has the extension and which are in a directory that is
reached from the root without following a link.
-/

namespace FlutterMend

open FileTree

/-- An entry below a root, which is at the given location, that a walk is to find. -/
structure Eligible (c : Config) (t : FileTree) (root below : Location) : Prop where
  directories : ∀ above, above <+: below → above ≠ below →
    t.get? (root ++ above) = some .directory
  named : ∃ name, below.getLast? = some name ∧ ("." ++ c.extension).toList <:+ name.text.toList
  entry : (∃ content, t.get? (root ++ below) = some (.file content)) ∨
    (∃ target, t.get? (root ++ below) = some (.link target)) ∧
      t.isDirectory (Walk.pathOf c.root below) = false

namespace FileTree

/-- Above every entry there are directories only. -/
theorem get?_of_prefix {t : FileTree} {loc above : Location} (bound : (t.get? loc).isSome)
    (isPrefix : above <+: loc) (ne : above ≠ loc) : t.get? above = some .directory := by
  induction loc using List.reverseRecOn with
  | nil => exact absurd (List.prefix_nil.1 isPrefix) ne
  | append_singleton dir name ih =>
    have parent := get?_parent bound
    rcases List.prefix_concat_iff.1 isPrefix with rfl | isPrefix
    · exact absurd rfl ne
    · by_cases same : above = dir
      · rwa [same]
      · exact ih (by simp [parent]) isPrefix same

end FileTree

section Eligible

variable {c : Config} {t : FileTree} {root below : Location}

theorem Eligible.isSome (h : Eligible c t root below) : (t.get? (root ++ below)).isSome := by
  rcases h.entry with ⟨content, found⟩ | ⟨⟨target, found⟩, -⟩ <;> simp [found]

theorem Eligible.not_directory (h : Eligible c t root below) :
    t.get? (root ++ below) ≠ some .directory := by
  rcases h.entry with ⟨content, found⟩ | ⟨⟨target, found⟩, -⟩ <;> simp [found]

/-- An eligible entry below something other than a directory is that thing itself. -/
theorem Eligible.eq_of_prefix (h : Eligible c t root below) {above : Location}
    (isPrefix : above <+: below) (notDirectory : t.get? (root ++ above) ≠ some .directory) :
    above = below := by
  by_contra ne
  exact notDirectory (h.directories above isPrefix ne)

/-- An entry is eligible just if it counts as a file and its name is accepted. -/
theorem eligible_iff {above : Location} {name : Name} {kind : Entry.Kind}
    (stands : (t.get? (root ++ (above ++ [name]))).map Entry.kind = some kind) :
    Eligible c t root (above ++ [name]) ↔ c.accepts name.text = true ∧
      Walk.isFile t (Walk.pathOf c.root (above ++ [name])) kind = true := by
  obtain ⟨entry, found, rfl⟩ := Option.map_eq_some_iff.1 stands
  have isFile_iff : Walk.isFile t (Walk.pathOf c.root (above ++ [name])) entry.kind = true ↔
      (∃ content, entry = .file content) ∨ (∃ target, entry = .link target) ∧
        t.isDirectory (Walk.pathOf c.root (above ++ [name])) = false := by
    cases entry <;> simp [Walk.isFile, Entry.kind]
  rw [isFile_iff]
  constructor
  · rintro ⟨-, ⟨name', last, accepted⟩, file⟩
    rw [List.getLast?_concat] at last
    cases last
    exact ⟨Config.accepts_iff.2 accepted, by simpa [found] using file⟩
  · rintro ⟨accepted, file⟩
    refine ⟨fun dir isPrefix ne => ?_, ⟨name, List.getLast?_concat, Config.accepts_iff.1 accepted⟩,
      by simpa [found] using file⟩
    refine get?_of_prefix (by rw [found]; rfl) ((List.prefix_append_right_inj root).2 isPrefix) ?_
    simpa using ne

end Eligible

/-- An entry that a walk has still to visit stands where the walk takes it to be, in a directory
that its path leads to. -/
def Pending.Stands (c : Config) (t : FileTree) (root : Location) : Pending → Prop
  | .root => t.locate .inspect c.root = .ok (root, .directory)
  | .found below kind => ∃ above name, below = above ++ [name] ∧
      t.locate .inspect (Walk.pathOf c.root above) = .ok (root ++ above, .directory) ∧
      (t.get? (root ++ below)).map Entry.kind = some kind

namespace Pending

variable {c : Config} {t : FileTree} {root : Location} {entry : Pending}

/-- A directory that is to be visited is where its path leads, unless the path is too long. -/
theorem Stands.locate (stands : entry.Stands c t root) (notLeaf : ¬entry.IsLeaf c t) :
    t.locate .inspect (Walk.pathOf c.root entry.below) = .ok (root ++ entry.below, .directory) ∨
      t.locate .inspect (Walk.pathOf c.root entry.below) = .error .nameTooLong := by
  cases entry with
  | root =>
    left
    rw [below, List.append_nil]
    exact stands
  | found below kind =>
    obtain ⟨above, name, rfl, located, found⟩ := stands
    obtain rfl := not_not.1 notLeaf
    obtain ⟨entry, found, isDirectory⟩ := Option.map_eq_some_iff.1 found
    cases entry <;> cases isDirectory
    rw [Pending.below, Walk.pathOf_append_singleton, ← List.append_assoc]
    rw [← List.append_assoc] at found
    exact locate_join located found

theorem Stands.eq_of_locate (stands : entry.Stands c t root) (notLeaf : ¬entry.IsLeaf c t)
    {loc : Location}
    (located : t.locate .inspect (Walk.pathOf c.root entry.below) = .ok (loc, .directory)) :
    loc = root ++ entry.below := by
  rcases stands.locate notLeaf with located' | failed
  · rw [located] at located'
    cases located'
    rfl
  · rw [located] at failed
    cases failed

theorem Stands.not_leaf (stands : Pending.root.Stands c t root) : ¬Pending.root.IsLeaf c t := by
  intro leaf
  have isDirectory : t.isDirectory c.root = true :=
    isDirectory_iff.2 ⟨root, stands⟩
  rw [leaf] at isDirectory
  cases isDirectory

theorem Stands.children (located : t.locate .inspect (Walk.pathOf c.root entry.below) =
      .ok (root ++ entry.below, .directory)) :
    ∀ child ∈ (t.children (root ++ entry.below)).map
        (fun (name, kind) => Pending.found (entry.below ++ [name]) kind),
      child.Stands c t root := by
  intro child mem
  obtain ⟨⟨name, kind⟩, inside, rfl⟩ := List.mem_map.1 mem
  refine ⟨entry.below, name, rfl, located, ?_⟩
  rw [← List.append_assoc]
  exact mem_children_iff.1 inside

end Pending

namespace Walk

section Finds

variable {c : Config} {t : FileTree} {root : Location}

/-- Unless the walk fails there, a directory is listed and nothing is found but its children. -/
theorem visit_of_stands {entry : Pending} (stands : entry.Stands c t root)
    (notLeaf : ¬entry.IsLeaf c t)
    (noFault : ∀ fault, (visit c t entry).item ≠ some (.error fault)) :
    t.locate .inspect (pathOf c.root entry.below) = .ok (root ++ entry.below, .directory) ∧
      (visit c t entry).item = none ∧ (visit c t entry).children =
        (t.children (root ++ entry.below)).map
          fun (name, kind) => .found (entry.below ++ [name]) kind := by
  cases visits_visit c t entry with
  | failed cause item children => exact absurd item (noFault _)
  | found name leaf item named accepted children => exact absurd leaf notLeaf
  | passed leaf item children => exact absurd leaf notLeaf
  | listed loc located item children =>
    obtain rfl := stands.eq_of_locate notLeaf located
    exact ⟨located, item, children⟩

theorem visit_of_leaf {above : Location} {name : Name} {kind : Entry.Kind}
    (leaf : kind ≠ .directory) :
    visit c t (.found (above ++ [name]) kind) =
      inspect c t (pathOf c.root (above ++ [name])) name.text kind := by
  rw [visit, if_neg leaf, List.getLast?_concat]
  rfl

theorem item_inspect_iff {path path' name : String} {kind : Entry.Kind} :
    (inspect c t path name kind).item = some (.ok path') ↔
      path = path' ∧ c.accepts name = true ∧ isFile t path kind = true := by
  unfold inspect
  split
  · split <;> simp_all
  · simp_all

/-- What is to be found below an entry is found by visiting it, or it is below one of the children
that are visited later. -/
theorem finds_iff {entry : Pending} (stands : entry.Stands c t root)
    (noFault : ∀ fault, (visit c t entry).item ≠ some (.error fault)) (below : Location) :
    ((visit c t entry).item = some (.ok (pathOf c.root below)) ∨
        ∃ child ∈ (visit c t entry).children, child.below <+: below ∧ Eligible c t root below) ↔
      entry.below <+: below ∧ Eligible c t root below := by
  by_cases leaf : entry.IsLeaf c t
  · cases entry with
    | root => exact absurd leaf stands.not_leaf
    | found here kind =>
      obtain ⟨above, name, rfl, -, found⟩ := stands
      rw [visit_of_leaf leaf, children_inspect, item_inspect_iff, (pathOf_injective c.root).eq_iff,
        ← eligible_iff found]
      constructor
      · rintro (⟨rfl, eligible⟩ | ⟨child, mem, -⟩)
        · exact ⟨List.prefix_refl _, eligible⟩
        · cases mem
      · rintro ⟨isPrefix, eligible⟩
        have notDirectory : t.get? (root ++ (above ++ [name])) ≠ some .directory := by
          intro isDirectory
          rw [isDirectory] at found
          exact leaf (Option.some.inj found).symm
        obtain rfl := eligible.eq_of_prefix isPrefix notDirectory
        exact .inl ⟨rfl, eligible⟩
  · obtain ⟨located, item, children⟩ := visit_of_stands stands leaf noFault
    rw [item, children]
    constructor
    · rintro (absent | ⟨child, mem, isPrefix, eligible⟩)
      · cases absent
      · obtain ⟨⟨name, kind⟩, -, rfl⟩ := List.mem_map.1 mem
        exact ⟨(List.prefix_append _ _).trans isPrefix, eligible⟩
    · rintro ⟨⟨rest, rfl⟩, eligible⟩
      right
      cases rest with
      | nil =>
        rw [List.append_nil] at eligible
        exact absurd (exists_of_locate located).2 eligible.not_directory
      | cons name rest =>
        have bound : (t.get? (root ++ entry.below ++ [name])).isSome := by
          by_cases last : rest = []
          · subst last
            simpa using eligible.isSome
          · rw [List.append_assoc, eligible.directories (entry.below ++ [name])]
            · rfl
            · exact ⟨rest, by simp⟩
            · simpa using Ne.symm last
        obtain ⟨found, isFound⟩ := Option.isSome_iff_exists.1 bound
        have child : (name, found.kind) ∈ t.children (root ++ entry.below) :=
          mem_children_iff.2 (by rw [isFound]; rfl)
        exact ⟨_, List.mem_map_of_mem child, ⟨rest, by simp⟩, eligible⟩

theorem children_stand {entry : Pending} (stands : entry.Stands c t root) :
    ∀ child ∈ (visit c t entry).children, child.Stands c t root := by
  by_cases leaf : entry.IsLeaf c t
  · cases entry with
    | root => exact absurd leaf stands.not_leaf
    | found here kind =>
      obtain ⟨above, name, rfl, -, -⟩ := stands
      rw [visit_of_leaf leaf, children_inspect]
      nofun
  · cases visits_visit c t entry with
    | listed loc located item children =>
      obtain rfl := stands.eq_of_locate leaf located
      rw [children]
      exact Pending.Stands.children located
    | failed cause item children | found name leaf item named accepted children
    | passed leaf item children =>
      rw [children]
      nofun

/-- A walk that does not fail finds just the eligible entries below what it has still to visit. -/
theorem Yields.mem_iff {w : Walk} {items : List (Except Fault String)} (yields : Yields t w items)
    (config : w.config = c) (stands : ∀ entry ∈ w.pending, entry.Stands c t root)
    (noFault : ∀ fault, .error fault ∉ items) (below : Location) :
    .ok (pathOf c.root below) ∈ items ↔
      ∃ entry ∈ w.pending, entry.below <+: below ∧ Eligible c t root below := by
  induction yields with
  | done ended =>
    rename_i w
    simp [step_eq_none_iff.1 ended]
  | visit stepped yields ih =>
    rename_i w later v items
    unfold step at stepped
    split at stepped
    · cases stepped
    · next entry rest pending =>
      cases stepped
      subst config
      rw [pending] at stands ⊢
      obtain ⟨first, stands⟩ := List.forall_mem_cons.1 stands
      have noFault' : ∀ fault, (Walk.visit w.config t entry).item ≠ some (.error fault) := by
        intro fault item
        exact noFault fault (by simp [item])
      have here := finds_iff first noFault' below
      have there := ih rfl (List.forall_mem_append.2 ⟨children_stand first, stands⟩)
        (fun fault mem => noFault fault (List.mem_append_right _ mem))
      simp only [List.mem_append, or_and_right, exists_or] at there
      simp only [List.mem_append, Option.mem_toList, List.mem_cons, there, ← or_assoc, here,
        or_and_right, exists_or, exists_eq_left]

end Finds

end Walk

namespace OpenWalk

theorem hasAnswered_unique {s : OpenWalk} {items items' : List (Except Fault String)}
    (h : s.HasAnswered items) (answers : s.answers = items'.map some) : items = items' := by
  obtain ⟨ends, eq, -⟩ := h
  have noEnds : ends = 0 := by
    by_contra ne
    have mem : none ∈ items'.map some := by
      rw [← answers, eq]
      exact List.mem_append_right _ (by simp [ne])
    simp at mem
  subst noEnds
  rw [eq, List.replicate_zero, List.append_nil] at answers
  exact List.map_injective_iff.2 (Option.some_injective _) answers

/-- A walk that nothing interrupts answers with its items. -/
theorem exists_visits_yields {t : FileTree} {w : Walk} {items : List (Except Fault String)}
    (yields : Walk.Yields t w items) {s : OpenWalk} (tree : s.tree = t) (walk : s.walk = w) :
    ∃ visits, (s.run (List.replicate visits .visit)).answers = s.answers ++ items.map some := by
  induction yields generalizing s with
  | done ended => exact ⟨0, by simp⟩
  | visit stepped yields ih =>
    rw [← tree, ← walk] at stepped
    obtain ⟨tree', walk', answers⟩ := visit_of_step stepped
    obtain ⟨visits, later⟩ := ih (tree'.trans tree) walk'
    refine ⟨visits + 1, later.trans ?_⟩
    rw [answers, List.map_append, List.append_assoc]

theorem map_ok_paths {items : List (Except Fault String)}
    (noFault : ∀ fault, .error fault ∉ items) : (paths items).map .ok = items := by
  induction items with
  | nil => rfl
  | cons item items ih =>
    cases item with
    | error fault => exact absurd List.mem_cons_self (noFault fault)
    | ok path =>
      have later := ih fun fault mem => noFault fault (List.mem_cons_of_mem _ mem)
      exact congrArg (.ok path :: ·) later

/-- The items of a walk through an unchanging tree stand in ascending order. -/
theorem exists_inOrder_items (c : Config) (t : FileTree) :
    ∃ s belows, InOrder c s (Walk.items t (Walk.start c t)) belows := by
  obtain ⟨visits, answers⟩ := exists_visits_yields (Walk.yields_items t (Walk.start c t))
    (s := start c t) rfl rfl
  obtain ⟨items, belows, h⟩ := (inOrder_start c t).run (List.replicate visits .visit)
  obtain rfl := hasAnswered_unique h.answered answers
  exact ⟨_, belows, h⟩

end OpenWalk

/-- A walk comes to an end, whatever the links in the tree. If its root is a directory and nothing
fails, it finds just the eligible entries, each once, in ascending order of the names below the
root. -/
theorem items_sorted_eligible (c : Config) (t : FileTree) :
    let items := Walk.items t (Walk.start c t)
    Walk.Yields t (Walk.start c t) items ∧
      ∀ root, t.locate .inspect c.root = .ok (root, .directory) →
        (∀ fault, .error fault ∉ items) →
        items.Nodup ∧ ∃ belows : List Location,
          items = belows.map (fun below => .ok (Walk.pathOf c.root below)) ∧
          (∀ below ∈ belows, (Walk.pathOf c.root below).toList =
            Path.stem c.root ++ below.flatMap fun name => '/' :: name.text.toList) ∧
          belows.Pairwise Location.Before ∧ ∀ below, below ∈ belows ↔ Eligible c t root below := by
  intro items
  have yields : Walk.Yields t (Walk.start c t) items := Walk.yields_items t _
  refine ⟨yields, fun root located noFault => ?_⟩
  obtain ⟨s, belows, inOrder⟩ := OpenWalk.exists_inOrder_items c t
  have items_eq : items = belows.map fun below => .ok (Walk.pathOf c.root below) := by
    rw [← OpenWalk.map_ok_paths noFault, inOrder.paths_eq, List.map_map]
    rfl
  have injective : Function.Injective fun below : Location =>
      (Except.ok (Walk.pathOf c.root below) : Except Fault String) := fun below below' same =>
    Walk.pathOf_injective c.root (Except.ok.inj same)
  have pending : (Walk.start c t).pending = [.root] := by
    have isDirectory : t.isDirectory c.root = true :=
      isDirectory_iff.2 ⟨root, located⟩
    simp [Walk.start, isDirectory]
  have eligible (below : Location) : below ∈ belows ↔ Eligible c t root below := by
    have stands : ∀ entry ∈ (Walk.start c t).pending, entry.Stands c t root := by
      rw [pending]
      exact List.forall_mem_singleton.2 located
    have found := yields.mem_iff (c := c) rfl stands noFault below
    rw [pending, items_eq, List.mem_map_of_injective injective] at found
    simpa using found
  refine ⟨?_, belows, items_eq, fun below mem => ?_,
    inOrder.ascending.imp Location.before_of_lt, eligible⟩
  · rw [items_eq]
    exact inOrder.nodup.map injective
  · obtain ⟨⟨-, ne, -⟩, -⟩ := resolve_eq_ok_iff.1 (exists_of_locate located).1
    obtain ⟨name, last, -⟩ := ((eligible below).1 mem).named
    exact Walk.toList_pathOf ne fun empty => by simp [empty] at last

/-- A directory with links in it that lead up, in a circle, nowhere and to a directory, and a link
to the whole of it. One file has another extension than the rest. -/
def circularTree : FileTree :=
  let files := ["lib/a/b.tmpl", "lib/a.tmpl", "lib/b.dart", "lib/Z.tmpl", "lib/pkg.tmpl/c.tmpl"]
  let links := [("..", "lib/a/up"), ("d.tmpl", "lib/d.tmpl"), ("gone", "lib/e.tmpl"),
    ("pkg.tmpl", "lib/f.tmpl"), ("lib", "src")]
  let t := files.foldl (fun t path => (Workspace.write t path .empty).1) .empty
  (links.foldlM (fun t (target, path) => Workspace.makeLink t target path) t).toOption.getD t

/-- The root is the link. The file in `a` comes before the file beside it. -/
theorem items_sorted_eligible_circularTree :
    let c : Config := { root := "src", extension := "tmpl" }
    let items := Walk.items circularTree (Walk.start c circularTree)
    items = [.ok "src/Z.tmpl", .ok "src/a/b.tmpl", .ok "src/a.tmpl", .ok "src/d.tmpl",
        .ok "src/e.tmpl", .ok "src/pkg.tmpl/c.tmpl"] ∧
      ∃ root, circularTree.locate .inspect c.root = .ok (root, .directory) ∧
        (∀ fault, .error fault ∉ items) ∧ items.Nodup ∧ ∃ belows : List Location,
          items = belows.map (fun below => .ok (Walk.pathOf c.root below)) ∧
          (∀ below ∈ belows, (Walk.pathOf c.root below).toList =
            Path.stem c.root ++ below.flatMap fun name => '/' :: name.text.toList) ∧
          belows.Pairwise Location.Before ∧
          ∀ below, below ∈ belows ↔ Eligible c circularTree root below := by
  intro c items
  have found : items = [.ok "src/Z.tmpl", .ok "src/a/b.tmpl", .ok "src/a.tmpl", .ok "src/d.tmpl",
      .ok "src/e.tmpl", .ok "src/pkg.tmpl/c.tmpl"] := by decide +kernel
  have isDirectory : circularTree.isDirectory c.root = true := by decide +kernel
  obtain ⟨root, located⟩ := isDirectory_iff.1 isDirectory
  have noFault : ∀ fault, .error fault ∉ items := by simp [found]
  exact ⟨found, root, located, noFault,
    (items_sorted_eligible c circularTree).2 root located noFault⟩

end FlutterMend
