import FlutterMend.Proofs.Run

/-!
# Dry runs

A dry run tells what a run would do. The two read the same files, fail with the same fault and
change the same files. Their reports differ in one way only: where several paths lead to one file, a
dry run reports all of them, whereas a run does not report those it comes to when nothing is left to
change.
-/

namespace FlutterMend

open FileTree

/-- Both results are faults, the same ones, or both are not and their values are related. -/
inductive Agrees {α : Type} (r : α → α → Prop) : Except Fault α → Except Fault α → Prop where
  | ok {a b : α} (h : r a b) : Agrees r (.ok a) (.ok b)
  | error (fault : Fault) : Agrees r (.error fault) (.error fault)

theorem Agrees.imp {α : Type} {r r' : α → α → Prop} {x y : Except Fault α} (h : Agrees r x y)
    (imp : ∀ a b, r a b → r' a b) : Agrees r' x y := by
  cases h with
  | ok h => exact .ok (imp _ _ h)
  | error fault => exact .error fault

/-- No two items lead to the same file. -/
def Apart (t : FileTree) (items : List (Except Fault String)) : Prop :=
  items.Pairwise fun a b => ∀ path path' loc, a = .ok path → b = .ok path' →
    ¬(t.leadsTo path loc = true ∧ t.leadsTo path' loc = true)

/-- What the report of a dry run tells about the report of a run with the same items. -/
structure Predicts (t : FileTree) (items : List (Except Fault String)) (dry real : Report) :
    Prop where
  scanned : real.scanned = dry.scanned
  sublist : real.modified.Sublist dry.modified
  sameFiles : ∀ loc, (∃ path ∈ real.modified, t.leadsTo path loc = true) ↔
    ∃ path ∈ dry.modified, t.leadsTo path loc = true
  eq_of_apart : Apart t items → real.modified = dry.modified

namespace Run

/-- How the reports of a dry run and a run relate on the way, once the file at every location has
been visited some number of times. -/
structure Follows (n : Location → Nat) (t : FileTree) (dry real : Report) : Prop where
  scanned : real.scanned = dry.scanned
  sublist : real.modified.Sublist dry.modified
  covered : ∀ path ∈ dry.modified, ∃ loc, t.leadsTo path loc = true ∧
    ∃ path' ∈ real.modified, t.leadsTo path' loc = true
  visited : ∀ path loc s, t.Reads path loc s → fixText s ≠ s → 0 < n loc →
    ∃ path' ∈ real.modified, t.leadsTo path' loc = true
  eq_of_le_one : (∀ loc, n loc ≤ 1) → real.modified = dry.modified

section Follows

variable {n : Location → Nat} {t u : FileTree} {dry real : Report} {path : String}
  {loc : Location} {s : Text}

theorem Follows.zero (t : FileTree) : Follows (fun _ => 0) t { dryRun := true } {} where
  scanned := rfl
  sublist := .slnil
  covered := nofun
  visited := nofun
  eq_of_le_one := fun _ => rfl

theorem mem_modified_add {report : Report} {path' : String} (h : path' ∈ report.modified)
    (path : String) (changed : Bool) : path' ∈ (report.add path changed).modified := by
  cases changed with
  | false => exact h
  | true => exact List.mem_append_left _ h

theorem le_one_of_update (h : ∀ loc', Function.update n loc (n loc + 1) loc' ≤ 1) :
    n loc = 0 ∧ ∀ loc', n loc' ≤ 1 := by
  have here := h loc
  rw [Function.update_self] at here
  refine ⟨by omega, fun loc' => ?_⟩
  have there := h loc'
  rw [Function.update_apply] at there
  split at there
  · next same =>
    rw [same]
    omega
  · exact there

/-- A file that the rules leave alone is reported by neither run. -/
theorem Follows.add_unchanged (h : Follows n t dry real) (reads : t.Reads path loc s)
    (same : fixText s = s) :
    Follows (Function.update n loc (n loc + 1)) t (dry.add path false) (real.add path false) where
  scanned := congrArg Nat.succ h.scanned
  sublist := h.sublist
  covered := h.covered
  visited := by
    intro path' loc' s' reads' changes visited
    have ne : loc' ≠ loc := by
      rintro rfl
      exact changes (reads'.text_eq reads ▸ same)
    rw [Function.update_of_ne ne] at visited
    exact h.visited path' loc' s' reads' changes visited
  eq_of_le_one := fun le => h.eq_of_le_one (le_one_of_update le).2

/-- A file that the rules change is reported by the dry run whenever a path leads to it, and by the
run when the first one does. -/
theorem Follows.add_changed (h : Follows n t dry real) (reads : t.Reads path loc s)
    (changes : fixText s ≠ s) {changed : Bool} (first : n loc = 0 → changed = true) :
    Follows (Function.update n loc (n loc + 1)) t (dry.add path true) (real.add path changed) := by
  have leads : t.leadsTo path loc = true := reads.leadsTo_iff.2 rfl
  have reached : ∃ path' ∈ (real.add path changed).modified, t.leadsTo path' loc = true := by
    by_cases unvisited : n loc = 0
    · rw [first unvisited]
      exact ⟨path, List.mem_append_right _ List.mem_cons_self, leads⟩
    · obtain ⟨path', mem, leads'⟩ :=
        h.visited path loc s reads changes (Nat.pos_of_ne_zero unvisited)
      exact ⟨path', mem_modified_add mem path changed, leads'⟩
  refine ⟨congrArg Nat.succ h.scanned, ?_, fun path' mem => ?_, ?_, fun le => ?_⟩
  · cases changed with
    | true => exact h.sublist.append (.refl _)
    | false => exact h.sublist.trans (List.sublist_append_left _ _)
  · rcases List.mem_append.1 mem with mem | mem
    · obtain ⟨loc', leads', path'', mem', leads''⟩ := h.covered path' mem
      exact ⟨loc', leads', path'', mem_modified_add mem' path changed, leads''⟩
    · cases List.mem_singleton.1 mem
      exact ⟨loc, leads, reached⟩
  · intro path' loc' s' reads' changes' visited
    by_cases same : loc' = loc
    · rw [same]
      exact reached
    · rw [Function.update_of_ne same] at visited
      obtain ⟨path'', mem, leads'⟩ := h.visited path' loc' s' reads' changes' visited
      exact ⟨path'', mem_modified_add mem path changed, leads'⟩
  · obtain ⟨unvisited, le⟩ := le_one_of_update le
    rw [first unvisited]
    exact congrArg (· ++ [path]) (h.eq_of_le_one le)

/-- One more file keeps the reports related. -/
theorem Follows.add (h : Follows n t dry real) (reads : t.Reads path loc s) :
    Follows (Function.update n loc (n loc + 1)) t (dry.add path (decide (fixText s ≠ s)))
      (real.add path (decide (fixText^[n loc + 1] s ≠ fixText^[n loc] s))) := by
  by_cases same : fixText s = s
  · have fixed := Function.iterate_fixed same
    simp only [fixed, same, ne_eq, not_true_eq_false, decide_false]
    exact h.add_unchanged reads same
  · rw [decide_eq_true same]
    refine h.add_changed reads same fun unvisited => ?_
    rw [unvisited]
    exact decide_eq_true same

/-- A dry run and a run that fix the same items agree. -/
theorem agrees_fixItems (fixed : Fixed n t u) (h : Follows n t dry real)
    (items : List (Except Fault String)) :
    Agrees
      (Follows (fun loc => n loc + visits t false (processed Rule.defaults false u items) loc) t)
      (fixItems Rule.defaults true t dry items).1
      (fixItems Rule.defaults false u real items).1 := by
  induction items generalizing n u dry real with
  | nil =>
    rw [processed_nil, add_visits_nil]
    exact .ok h
  | cons item items ih =>
    match item with
    | .error fault => exact .error fault
    | .ok path =>
      rw [fixItems, fixItems]
      cases read : t.readText path with
      | error e =>
        rw [fixFile_of_readText_error _ _ read,
          fixFile_of_readText_error _ _ (fixed.readText_error read)]
        exact .error _
      | ok s =>
        obtain ⟨loc, reads⟩ := readText_eq_ok_iff.1 read
        obtain ⟨dryResult, -⟩ := fixFile_of_reads (.zero t) reads true
        obtain ⟨result, fixedLater⟩ := fixFile_of_reads fixed reads false
        have added := h.add reads
        rw [← add_visits_singleton reads] at added
        rw [processed_cons_of_ok result, add_visits_cons, dryResult, result, fixFile_dryRun_tree]
        exact ih fixedLater added

end Follows

section Apart

variable {t : FileTree} {items : List (Except Fault String)}

theorem fixItems_dryRun_tree (rules : List Rule) (t : FileTree) (report : Report)
    (items : List (Except Fault String)) : (fixItems rules true t report items).2 = t := by
  induction items generalizing report with
  | nil => rfl
  | cons item items ih =>
    match item with
    | .error fault => rfl
    | .ok path =>
      rw [fixItems, fixFile_dryRun_tree]
      split
      · rfl
      · exact ih _

theorem map_processed_isPrefix (rules : List Rule) (dryRun : Bool) (t : FileTree)
    (items : List (Except Fault String)) :
    (processed rules dryRun t items).map Except.ok <+: items := by
  induction items generalizing t with
  | nil =>
    rw [processed_nil]
    exact List.nil_prefix
  | cons item items ih =>
    match item with
    | .error fault =>
      rw [processed_error]
      exact List.nil_prefix
    | .ok path =>
      cases result : (fixFile rules dryRun t path).result with
      | error fault =>
        rw [processed_cons_of_error result]
        exact List.nil_prefix
      | ok changed =>
        rw [processed_cons_of_ok result, List.map_cons]
        exact List.cons_prefix_cons.2 ⟨rfl, ih _⟩

theorem countP_le_one {α : Type} {p : α → Bool} {l : List α}
    (h : l.Pairwise fun a b => ¬(p a = true ∧ p b = true)) : l.countP p ≤ 1 := by
  induction l with
  | nil => exact Nat.zero_le _
  | cons a l ih =>
    obtain ⟨apart, h⟩ := List.pairwise_cons.1 h
    by_cases pa : p a = true
    · have others : l.countP p = 0 :=
        List.countP_eq_zero.2 fun b mem pb => apart b mem ⟨pa, pb⟩
      rw [List.countP_cons_of_pos pa, others]
    · rw [List.countP_cons_of_neg pa]
      exact ih h

theorem visits_le_one (apart : Apart t items) (rules : List Rule) (dryRun : Bool)
    (loc : Location) : visits t dryRun (processed rules dryRun t items) loc ≤ 1 := by
  rw [visits]
  split
  · exact Nat.zero_le _
  · have processedApart := apart.sublist (map_processed_isPrefix rules dryRun t items).sublist
    exact countP_le_one ((List.pairwise_map.1 processedApart).imp fun apart both =>
      apart _ _ loc rfl rfl both)

theorem Follows.predicts {dry real : Report}
    (h : Follows (visits t false (processed Rule.defaults false t items)) t dry real) :
    Predicts t items dry real where
  scanned := h.scanned
  sublist := h.sublist
  sameFiles := by
    intro loc
    constructor
    · rintro ⟨path, mem, leads⟩
      exact ⟨path, h.sublist.subset mem, leads⟩
    · rintro ⟨path, mem, leads⟩
      obtain ⟨loc', leads', path', mem', leads''⟩ := h.covered path mem
      obtain ⟨content, located⟩ := leadsTo_iff.1 leads
      obtain ⟨content', located'⟩ := leadsTo_iff.1 leads'
      cases located.symm.trans located'
      exact ⟨path', mem', leads''⟩
  eq_of_apart := fun apart => h.eq_of_le_one (visits_le_one apart _ _)

end Apart

end Run

theorem Walk.visit_dryRun (c : Config) (dryRun : Bool) (t : FileTree) (entry : Pending) :
    visit { c with dryRun } t entry = visit c t entry := by
  cases entry <;> rfl

theorem Walk.itemsWithin_dryRun (c : Config) (dryRun : Bool) (t : FileTree) (steps : Nat)
    (pending : List Pending) :
    itemsWithin t steps { config := { c with dryRun }, pending } =
      itemsWithin t steps { config := c, pending } := by
  induction steps generalizing pending with
  | zero => rfl
  | succ steps ih =>
    rw [itemsWithin, itemsWithin, step, step]
    cases pending with
    | nil => rfl
    | cons entry rest =>
      simp only [visit_dryRun]
      rw [ih]

/-- A dry run walks like a run. -/
theorem Walk.items_dryRun (c : Config) (dryRun : Bool) (t : FileTree) :
    items t (start { c with dryRun } t) = items t (start c t) :=
  itemsWithin_dryRun c dryRun t _ _

/-- A dry run leaves the tree as it is, and its result tells the result of a run through the same
tree. -/
theorem dryRun_predicts (root extension : String) (t : FileTree) :
    (runFix { root, extension, dryRun := true } t).tree = t ∧
      Walk.Yields t (Walk.start { root, extension } t)
        (Walk.items t (Walk.start { root, extension } t)) ∧
      Agrees (Predicts t (Walk.items t (Walk.start { root, extension } t)))
        (runFix { root, extension, dryRun := true } t).result
        (runFix { root, extension } t).result := by
  let c : Config := { root, extension }
  let d : Config := { root, extension, dryRun := true }
  have sameItems : Walk.items t (Walk.start d t) = Walk.items t (Walk.start c t) :=
    Walk.items_dryRun c true t
  have sameValidity : d.validate = c.validate := rfl
  cases valid : c.validate with
  | error fault =>
    have refused : runFix c t = { result := .error fault, tree := t } := by rw [runFix, valid]
    have refusedDry : runFix d t = { result := .error fault, tree := t } := by
      rw [runFix, sameValidity, valid]
    rw [refused, refusedDry]
    exact ⟨rfl, Walk.yields_items t _, .error fault⟩
  | ok =>
    obtain ⟨result, -⟩ := Prod.mk.inj (Run.runFix_inOrder valid t)
    obtain ⟨dryResult, dryTree⟩ := Prod.mk.inj (Run.runFix_inOrder (sameValidity.trans valid) t)
    rw [sameItems] at dryResult
    refine ⟨dryTree.trans (Run.fixItems_dryRun_tree _ _ _ _), Walk.yields_items t _, ?_⟩
    rw [dryResult, result]
    have agrees := Run.agrees_fixItems (.zero t) (.zero t) (Walk.items t (Walk.start c t))
    simp only [Nat.zero_add] at agrees
    exact agrees.imp fun _ _ => Run.Follows.predicts

/-- The dry run reports the file and the link to it, the run only the file. -/
example : ((runFix { dryRun := true } linkedTree).result, (runFix {} linkedTree).result) =
    (.ok { modified := ["lib/a.dart", "lib/b.dart"], scanned := 2, dryRun := true },
      .ok { modified := ["lib/a.dart"], scanned := 2 }) := by
  decide +kernel

end FlutterMend
