import FlutterMend.Proofs.FileTree.Join
import FlutterMend.Walk

/-!
# Walks to their end

What a walk visits depends on the shape of the tree only, so writing to files on the way does not
disturb it. The steps that a walk is given are enough for it to come to its end: every visit removes
one entry from those that are to be visited at the latest, and there are at most as many of them as
there are entries in the tree.
-/

namespace FlutterMend

namespace FileTree

theorem countP_split {α : Type} (l : List α) (p q : α → Bool) :
    l.countP q = l.countP (fun a => q a && p a) + l.countP (fun a => q a && !p a) := by
  rw [List.countP_eq_countP_filter_add l q p, List.countP_filter, List.countP_filter]

/-- Classes that exclude each other do not count anything twice. -/
theorem sum_countP_le {ι α : Type} (l : List α) (p : ι → α → Bool) (q : α → Bool) (is : List ι)
    (le : ∀ i ∈ is, ∀ a, p i a = true → q a = true)
    (exclude : is.Pairwise fun i j => ∀ a, ¬(p i a = true ∧ p j a = true)) :
    (is.map fun i => l.countP (p i)).sum ≤ l.countP q := by
  induction is generalizing q with
  | nil => exact Nat.zero_le _
  | cons i is ih =>
    obtain ⟨apart, exclude⟩ := List.pairwise_cons.1 exclude
    have first : l.countP (p i) ≤ l.countP fun a => q a && p i a := by
      refine List.countP_mono_left fun a _ pa => ?_
      rw [le i List.mem_cons_self a pa, pa, Bool.true_and]
    have rest := ih (fun a => q a && !p i a) (fun j hj a pa => ?_) exclude
    · rw [List.map_cons, List.sum_cons, countP_split l (p i) q]
      omega
    · have qa := le j (List.mem_cons_of_mem _ hj) a pa
      have pi : p i a = false := Bool.eq_false_iff.2 fun pi => apart j hj a ⟨pi, pa⟩
      rw [qa, pi]
      rfl

/-- The number of entries below a location. -/
def sizeBelow (t : FileTree) (loc : Location) : Nat :=
  t.table.entries.countP fun e => loc.isPrefixOf e.1 && !e.1 == loc

theorem sizeBelow_le (t : FileTree) (loc : Location) : t.sizeBelow loc ≤ t.size :=
  List.countP_le_length

theorem eq_append_of_child {dir loc : Location} {entry : Entry} {child : Name × Entry.Kind}
    (h : (match dir.isPrefixOf? loc with
      | some [name] => some (name, entry.kind)
      | _ => none) = some child) : loc = dir ++ [child.1] ∧ entry.kind = child.2 := by
  split at h
  · next name isChild =>
    cases h
    exact ⟨(List.isPrefixOf?_eq_some_iff_append_eq.1 isChild).symm, rfl⟩
  · cases h

theorem mem_children_iff {t : FileTree} {dir : Location} {name : Name} {kind : Entry.Kind} :
    (name, kind) ∈ t.children dir ↔ (t.get? (dir ++ [name])).map Entry.kind = some kind := by
  rw [get?_append_singleton, children, List.mem_filterMap, Option.map_eq_some_iff]
  constructor
  · rintro ⟨⟨loc, entry⟩, mem, eq⟩
    obtain ⟨rfl, same⟩ := eq_append_of_child eq
    exact ⟨entry, SortedTable.mem_entries_iff.1 mem, same⟩
  · rintro ⟨entry, found, rfl⟩
    refine ⟨(dir ++ [name], entry), SortedTable.mem_entries_iff.2 found, ?_⟩
    have isChild : dir.isPrefixOf? (dir ++ [name]) = some [name] :=
      List.isPrefixOf?_eq_some_iff_append_eq.2 rfl
    simp only [isChild]

theorem children_pairwise_ne (t : FileTree) (dir : Location) :
    (t.children dir).Pairwise fun a b => a.1 ≠ b.1 := by
  rw [children, List.pairwise_filterMap]
  refine t.table.sorted.imp fun {e e'} lt a ha b hb eq => ?_
  obtain ⟨isChild, -⟩ := eq_append_of_child ha
  obtain ⟨isChild', -⟩ := eq_append_of_child hb
  rw [isChild, isChild', eq] at lt
  exact Std.Irrefl.irrefl _ lt

theorem sizeBelow_lt_countP {t : FileTree} {loc : Location} (ne : loc ≠ [])
    (bound : (t.get? loc).isSome) :
    t.sizeBelow loc + 1 ≤ t.table.entries.countP fun e => loc.isPrefixOf e.1 := by
  obtain ⟨entry, found⟩ := Option.isSome_iff_exists.1 bound
  have mem : (loc, entry) ∈ t.table.entries := by
    rw [SortedTable.mem_entries_iff]
    simpa [get?, ne] using found
  rw [countP_split _ (fun e => e.1 == loc), Nat.add_comm]
  refine Nat.add_le_add_right (Nat.succ_le_of_lt (List.countP_pos_iff.2 ⟨_, mem, ?_⟩)) _
  simp

/-- The entries below the children of a directory, and the children themselves, are below it. -/
theorem sum_children_le (t : FileTree) (dir : Location) :
    ((t.children dir).map fun (name, _) => t.sizeBelow (dir ++ [name]) + 1).sum ≤
      t.sizeBelow dir := by
  have bound : ∀ child ∈ t.children dir, t.sizeBelow (dir ++ [child.1]) + 1 ≤
      t.table.entries.countP fun e => (dir ++ [child.1]).isPrefixOf e.1 := by
    rintro ⟨name, kind⟩ mem
    have found := mem_children_iff.1 mem
    refine sizeBelow_lt_countP (by simp) ?_
    obtain ⟨entry, found, -⟩ := Option.map_eq_some_iff.1 found
    rw [found]
    rfl
  refine (List.sum_le_sum bound).trans ?_
  refine sum_countP_le _ (fun child (e : Location × Entry) => (dir ++ [child.1]).isPrefixOf e.1)
    _ _
    (fun child _ e below => ?_) ((t.children_pairwise_ne dir).imp fun ne e both => ?_)
  · rw [List.isPrefixOf_iff_prefix] at below
    obtain ⟨rest, eq⟩ := below
    rw [← eq, List.append_assoc, Bool.and_eq_true, List.isPrefixOf_iff_prefix]
    refine ⟨List.prefix_append _ _, ?_⟩
    simp
  · simp only [List.isPrefixOf_iff_prefix] at both
    obtain ⟨⟨rest, eq⟩, rest', eq'⟩ := both
    rw [← eq', List.append_assoc, List.append_assoc] at eq
    exact ne (List.cons.inj (List.append_cancel_left eq)).1

end FileTree

namespace Walk

open FileTree

variable {s t : FileTree}

theorem inspect_eq_of_isDirectory {path : String} (same : t.isDirectory path = s.isDirectory path)
    (c : Config) (name : String) (kind : Entry.Kind) :
    inspect c t path name kind = inspect c s path name kind := by
  have isFile_eq : isFile t path kind = isFile s path kind := by
    cases kind with
    | link => rw [isFile, isFile, same]
    | _ => rfl
  rw [inspect, inspect, isFile_eq]

theorem descend_eq_of_sameShape (h : SameShape s t) (c : Config) (path : String)
    (below : Location) (v : Visit) : descend c t path below v = descend c s path below v := by
  rw [descend, descend, h.list]

theorem visit_eq_of_sameShape (h : SameShape s t) (c : Config) (entry : Pending) :
    visit c t entry = visit c s entry := by
  cases entry with
  | root =>
    simp only [visit, visitRoot, h.kindOf, inspect_eq_of_isDirectory (h.isDirectory _),
      descend_eq_of_sameShape h]
  | found below kind =>
    simp only [visit, inspect_eq_of_isDirectory (h.isDirectory _), descend_eq_of_sameShape h]

theorem step_eq_none_iff {w : Walk} : step t w = none ↔ w.pending = [] := by
  unfold step
  split <;> simp_all

theorem step_eq_of_sameShape (h : SameShape s t) (w : Walk) : step t w = step s w := by
  rw [step, step]
  split
  · rfl
  · rw [visit_eq_of_sameShape h]

theorem start_eq_of_sameShape (h : SameShape s t) (c : Config) : start c t = start c s := by
  rw [start, start, h.isDirectory]

/-- A walk finds the same items in trees of the same shape. -/
theorem items_eq_of_sameShape (h : SameShape s t) (w : Walk) : items t w = items s w := by
  have within (steps : Nat) (w : Walk) : itemsWithin t steps w = itemsWithin s steps w := by
    induction steps generalizing w with
    | zero => rfl
    | succ steps ih =>
      rw [itemsWithin, itemsWithin, step_eq_of_sameShape h]
      split
      · rfl
      · rw [ih]
  rw [items, items, budget, budget, h.size, within]

/-- The items of a walk through an unchanging tree, up to the end of the walk. -/
inductive Yields (t : FileTree) : Walk → List (Except Fault String) → Prop where
  | done {w : Walk} : step t w = none → Yields t w []
  | visit {w later : Walk} {v : Visit} {items : List (Except Fault String)} :
      step t w = some (v, later) → Yields t later items → Yields t w (v.item.toList ++ items)

/-- How many visits there are below a path at most, together with one of the path itself. -/
def visitsAt (t : FileTree) (path : String) : Nat :=
  match t.locate .inspect path with
  | .ok (loc, .directory) => t.sizeBelow loc + 1
  | _ => 1

/-- How many visits may come of an entry at most. -/
def visitsOf (c : Config) (t : FileTree) : Pending → Nat
  | .root => visitsAt t c.root
  | .found below .directory => visitsAt t (pathOf c.root below)
  | .found _ _ => 1

/-- How many visits are left for a walk at most. -/
def visitsLeft (t : FileTree) (w : Walk) : Nat := (w.pending.map (visitsOf w.config t)).sum

theorem visitsAt_pos (t : FileTree) (path : String) : 0 < visitsAt t path := by
  rw [visitsAt]
  split
  · exact Nat.succ_pos _
  · exact Nat.one_pos

theorem visitsOf_pos (c : Config) (t : FileTree) (entry : Pending) : 0 < visitsOf c t entry := by
  match entry with
  | .root | .found _ .directory => exact visitsAt_pos t _
  | .found _ .file | .found _ .link => exact Nat.one_pos

theorem pathOf_append_singleton (root : String) (below : Location) (name : Name) :
    pathOf root (below ++ [name]) = Path.join (pathOf root below) name.text := by
  simp [pathOf]

/-- Listing a directory makes fewer visits necessary than were expected of it. -/
theorem sum_visitsOf_lt {c : Config} {t : FileTree} {below : Location}
    {names : List (Name × Entry.Kind)} (listed : t.list (pathOf c.root below) = .ok names) :
    ((names.map fun (name, kind) => Pending.found (below ++ [name]) kind).map
      (visitsOf c t)).sum < visitsAt t (pathOf c.root below) := by
  rw [FileTree.list] at listed
  split at listed
  · cases listed
  · next loc located =>
    cases listed
    have each : ∀ child ∈ t.children loc,
        visitsOf c t (.found (below ++ [child.1]) child.2) ≤
          t.sizeBelow (loc ++ [child.1]) + 1 := by
      rintro ⟨name, kind⟩ mem
      have found := mem_children_iff.1 mem
      cases kind with
      | directory =>
        have isDirectory : t.get? (loc ++ [name]) = some .directory := by
          obtain ⟨entry, found, isDirectory⟩ := Option.map_eq_some_iff.1 found
          cases entry <;> cases isDirectory
          exact found
        rw [visitsOf, pathOf_append_singleton, visitsAt]
        rcases locate_join located isDirectory with joined | joined
        · rw [joined]
        · rw [joined]
          exact Nat.succ_le_succ (Nat.zero_le _)
      | _ => exact Nat.succ_le_succ (Nat.zero_le _)
    have total := (List.sum_le_sum each).trans (t.sum_children_le loc)
    rw [visitsAt, located, List.map_map]
    exact Nat.lt_succ_of_le total
  · cases listed

theorem children_inspect (c : Config) (t : FileTree) (path name : String) (kind : Entry.Kind) :
    (inspect c t path name kind).children = [] := by
  rw [inspect]
  split
  · split <;> rfl
  · rfl

theorem sum_visitsOf_descend_lt {c : Config} {t : FileTree} {below : Location} {v : Visit}
    (none : v.children = []) :
    ((descend c t (pathOf c.root below) below v).children.map (visitsOf c t)).sum <
      visitsAt t (pathOf c.root below) := by
  rw [descend]
  split
  · rw [none]
    exact visitsAt_pos t _
  · next names listed => exact sum_visitsOf_lt listed

theorem sum_visitsOf_children_lt (c : Config) (t : FileTree) (entry : Pending) :
    ((visit c t entry).children.map (visitsOf c t)).sum < visitsOf c t entry := by
  have noChildren (v : Visit) (none : v.children = []) :
      (v.children.map (visitsOf c t)).sum < visitsOf c t entry := by
    rw [none]
    exact visitsOf_pos c t entry
  cases entry with
  | root =>
    rw [visit, visitRoot]
    split
    · exact noChildren _ rfl
    · split
      · exact noChildren _ rfl
      · split
        · exact @sum_visitsOf_descend_lt c t [] _ (children_inspect ..)
        · exact noChildren _ (children_inspect ..)
  | found below kind =>
    rw [visit]
    split
    · next isDirectory =>
      subst isDirectory
      exact sum_visitsOf_descend_lt (children_inspect ..)
    · exact noChildren _ (children_inspect ..)

theorem visitsLeft_lt_of_step {t : FileTree} {w later : Walk} {v : Visit}
    (h : step t w = some (v, later)) : visitsLeft t later < visitsLeft t w := by
  rw [step] at h
  split at h
  · cases h
  · next entry rest pending =>
    cases h
    have := sum_visitsOf_children_lt w.config t entry
    simp only [visitsLeft, pending, List.map_append, List.map_cons, List.sum_append, List.sum_cons]
    omega

theorem yields_itemsWithin {t : FileTree} {steps : Nat} {w : Walk} (le : visitsLeft t w ≤ steps) :
    Yields t w (itemsWithin t steps w) := by
  induction steps generalizing w with
  | zero =>
    refine .done ?_
    rw [step]
    split
    · rfl
    · next entry rest pending =>
      have := visitsOf_pos w.config t entry
      simp only [visitsLeft, pending, List.map_cons, List.sum_cons] at le
      omega
  | succ steps ih =>
    rw [itemsWithin]
    cases stepped : step t w with
    | none => exact .done stepped
    | some found =>
      obtain ⟨v, later⟩ := found
      have := visitsLeft_lt_of_step stepped
      exact .visit stepped (ih (by omega))

theorem visitsLeft_le_budget (t : FileTree) (w : Walk) : visitsLeft t w ≤ budget t w := by
  have each : ∀ entry ∈ w.pending, visitsOf w.config t entry ≤ t.size + 1 := by
    have atPath (path : String) : visitsAt t path ≤ t.size + 1 := by
      rw [visitsAt]
      split
      · exact Nat.succ_le_succ (t.sizeBelow_le _)
      · exact Nat.succ_le_succ (Nat.zero_le _)
    intro entry _
    match entry with
    | .root | .found _ .directory => exact atPath _
    | .found _ .file | .found _ .link => exact Nat.succ_le_succ (Nat.zero_le _)
  have total := List.sum_le_card_nsmul (w.pending.map (visitsOf w.config t)) (t.size + 1)
    (by simpa using each)
  simpa [visitsLeft, budget] using total

theorem exists_of_descend_error {c : Config} {t : FileTree} {path : String} {below : Location}
    {v : Visit} {fault : Fault} (ok : v.item ≠ some (.error fault))
    (h : (descend c t path below v).item = some (.error fault)) :
    ∃ dir e, fault = .walk c.root dir e := by
  rw [descend] at h
  split at h
  · cases h
    exact ⟨_, _, rfl⟩
  · exact absurd h ok

theorem inspect_item_ne_error (c : Config) (t : FileTree) (path name : String) (kind : Entry.Kind)
    (fault : Fault) : (inspect c t path name kind).item ≠ some (.error fault) := by
  rw [inspect]
  split
  · split <;> nofun
  · nofun

/-- All faults of a walk are faults of listing, and they name its root. -/
theorem exists_of_visit_error {c : Config} {t : FileTree} {entry : Pending} {fault : Fault}
    (h : (visit c t entry).item = some (.error fault)) : ∃ dir e, fault = .walk c.root dir e := by
  cases entry with
  | root =>
    rw [visit, visitRoot] at h
    split at h
    · cases h
      exact ⟨_, _, rfl⟩
    · split at h
      · cases h
        exact ⟨_, _, rfl⟩
      · split at h
        · exact exists_of_descend_error (inspect_item_ne_error _ _ _ _ _ _) h
        · exact absurd h (inspect_item_ne_error _ _ _ _ _ _)
  | found below kind =>
    rw [visit] at h
    split at h
    · exact exists_of_descend_error (inspect_item_ne_error _ _ _ _ _ _) h
    · exact absurd h (inspect_item_ne_error _ _ _ _ _ _)

theorem exists_of_error_mem_itemsWithin {t : FileTree} {steps : Nat} {w : Walk} {fault : Fault}
    (h : .error fault ∈ itemsWithin t steps w) : ∃ dir e, fault = .walk w.config.root dir e := by
  induction steps generalizing w with
  | zero => cases h
  | succ steps ih =>
    rw [itemsWithin, step] at h
    cases pending : w.pending with
    | nil =>
      rw [pending] at h
      cases h
    | cons entry rest =>
      rw [pending] at h
      rcases List.mem_append.1 h with mem | mem
      · exact exists_of_visit_error (Option.mem_toList.1 mem)
      · simpa using ih mem

/-- The items of a walk are all that it yields. -/
theorem yields_items (t : FileTree) (w : Walk) : Yields t w (items t w) :=
  yields_itemsWithin (visitsLeft_le_budget t w)

theorem Yields.unique {t : FileTree} {w : Walk} {items items' : List (Except Fault String)}
    (h : Yields t w items) (h' : Yields t w items') : items = items' := by
  induction h generalizing items' with
  | done ended =>
    cases h' with
    | done => rfl
    | visit stepped => grind
  | visit stepped yields ih =>
    cases h' with
    | done ended => grind
    | visit stepped' yields' => grind

theorem items_of_ended {t : FileTree} {w : Walk} (ended : w.pending = []) : items t w = [] :=
  (yields_items t w).unique (.done (step_eq_none_iff.2 ended))

theorem items_of_step {t : FileTree} {w later : Walk} {v : Visit}
    (stepped : step t w = some (v, later)) : items t w = v.item.toList ++ items t later :=
  (yields_items t w).unique (.visit stepped (yields_items t later))

end Walk

end FlutterMend
