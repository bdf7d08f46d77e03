import FlutterMend.Proofs.FileTree.Fixed
import FlutterMend.Proofs.Walk
import FlutterMend.Workspace

/-!
# Runs over the items of a walk

A run writes to files while its walk is still going on. Writing leaves the shape of the tree as it
is, so the walk finds the same items as in the tree the run began with, and the run comes to the
same as fixing these items one after the other.
-/

namespace FlutterMend

/-- Whether a path leads to the file at a location, possibly through links. -/
def FileTree.leadsTo (t : FileTree) (path : String) (loc : Location) : Bool :=
  match t.locate .inspect path with
  | .ok (found, .file _) => found == loc
  | _ => false

theorem FileTree.leadsTo_iff {t : FileTree} {path : String} {loc : Location} :
    t.leadsTo path loc = true ↔ ∃ content, t.locate .inspect path = .ok (loc, .file content) := by
  rw [leadsTo]
  split
  · next found content located => simp [located]
  · next other =>
    refine ⟨nofun, ?_⟩
    rintro ⟨content, located⟩
    exact absurd located (other loc content)

theorem FileTree.Reads.leadsTo_iff {t : FileTree} {path : String} {loc loc' : Location} {s : Text}
    (h : t.Reads path loc s) : t.leadsTo path loc' = true ↔ loc' = loc := by
  obtain ⟨content, located, -⟩ := h
  rw [FileTree.leadsTo_iff, located]
  simp [eq_comm]

namespace Run

open FileTree

/-- Fixes the files of a list of items in order, up to the first fault. -/
def fixItems (rules : List Rule) (dryRun : Bool) :
    FileTree → Report → List (Except Fault String) → Except Fault Report × FileTree
  | t, report, [] => (.ok report, t)
  | t, _, .error fault :: _ => (.error fault, t)
  | t, report, .ok path :: items =>
    let fixed := fixFile rules dryRun t path
    match fixed.result with
    | .error fault => (.error fault, fixed.tree)
    | .ok changed => fixItems rules dryRun fixed.tree (report.add path changed) items

/-- The paths among a list of items that are processed without a fault. -/
def processed (rules : List Rule) (dryRun : Bool) :
    FileTree → List (Except Fault String) → List String
  | t, .ok path :: items =>
    let fixed := fixFile rules dryRun t path
    match fixed.result with
    | .error _ => []
    | .ok _ => path :: processed rules dryRun fixed.tree items
  | _, _ => []

/-- How often the file at a location has been fixed after the given paths. -/
def visits (t : FileTree) (dryRun : Bool) (paths : List String) (loc : Location) : Nat :=
  if dryRun then 0 else paths.countP (t.leadsTo · loc)

/-- The path of an item, if the text that it leads to once the items before it are fixed is one that
the rules change. -/
def changedAt? (dryRun : Bool) (t : FileTree) (items : List (Except Fault String)) (i : Nat) :
    Option String :=
  match items[i]? with
  | some (.ok path) =>
    match (fixItems Rule.defaults dryRun t {} (items.take i)).2.readText path with
    | .ok s => if fixText s = s then none else some path
    | .error _ => none
  | _ => none

/-- What comes of a run if its walk through the tree that it begins with yields the given items. -/
structure Fixes (dryRun : Bool) (t : FileTree) (items : List (Except Fault String))
    (outcome : Outcome Report) : Prop where
  inOrder : (outcome.result, outcome.tree) = fixItems Rule.defaults dryRun t { dryRun } items
  sameShape : SameShape t outcome.tree
  get? : ∀ loc, outcome.tree.get? loc = (t.get? loc).map
    (Entry.fixed (visits t dryRun (processed Rule.defaults dryRun t items) loc))
  untouched : ∀ loc, visits t dryRun (processed Rule.defaults dryRun t items) loc = 0 →
    outcome.tree.get? loc = t.get? loc
  scanned : ∀ report, outcome.result = .ok report → report.scanned = items.length
  modified : ∀ report, outcome.result = .ok report →
    report.modified = (List.range items.length).filterMap (changedAt? dryRun t items)

section File

variable {n : Location → Nat} {t u : FileTree} {path : String} {loc : Location} {s : Text}

theorem fixFile_of_readText_error (rules : List Rule) (dryRun : Bool) {e : FileError}
    (h : u.readText path = .error e) :
    fixFile rules dryRun u path = { result := .error (.read path e), tree := u } := by
  rw [fixFile, SourceFile.load, h]

theorem add_visits_singleton (reads : t.Reads path loc s) (n : Location → Nat) :
    (fun loc' => n loc' + visits t false [path] loc') = Function.update n loc (n loc + 1) := by
  funext loc'
  rw [visits, if_neg Bool.false_ne_true, List.countP_singleton, Function.update_apply]
  by_cases same : loc' = loc
  · rw [if_pos (reads.leadsTo_iff.2 same), if_pos same, same]
  · rw [if_neg (fun leads => same (reads.leadsTo_iff.1 leads)), if_neg same]
    rfl

/-- A file that holds a text is fixed without a fault, and it is written and reported if its text is
changed. -/
theorem fixFile_eq (reads : u.Reads path loc s) (rules : List Rule) (dryRun : Bool) :
    fixFile rules dryRun u path =
      if (Revision.ofRules rules s).text = s then
        { result := .ok false, tree := u, events := [.unchanged path] }
      else
        { result := .ok true
          tree := if dryRun then u else u.setContent loc (encode (Revision.ofRules rules s).text)
          events := [.revised path (Revision.ofRules rules s).applied (!dryRun)] } := by
  have loaded : SourceFile.load u path = .ok { path, loaded := s, text := s } := by
    rw [SourceFile.load, readText_eq_ok_iff.2 ⟨loc, reads⟩]
  have applied := Revision.applied_eq_nil_iff rules s
  simp only [fixFile, loaded, SourceFile.apply]
  by_cases same : (Revision.ofRules rules s).text = s
  · rw [if_pos same, applied.2 same]
  · rw [if_neg same]
    cases eq : (Revision.ofRules rules s).applied with
    | nil => exact absurd (applied.1 eq) same
    | cons rule later =>
      cases dryRun with
      | true => rfl
      | false =>
        obtain ⟨content, located, -⟩ := reads
        have written := write_of_locate located (encode (Revision.ofRules rules s).text)
        simp [SourceFile.persist, SourceFile.isModified, same, written]

/-- Fixing a file with the default rules adds one to the number of times it was fixed. -/
theorem fixFile_of_reads (h : Fixed n t u) (reads : t.Reads path loc s) (dryRun : Bool) :
    (fixFile Rule.defaults dryRun u path).result =
        .ok (decide (fixText^[n loc + 1] s ≠ fixText^[n loc] s)) ∧
      Fixed (fun loc' => n loc' + visits t dryRun [path] loc') t
        (fixFile Rule.defaults dryRun u path).tree := by
  have text : (Revision.ofRules Rule.defaults (fixText^[n loc] s)).text =
      fixText^[n loc + 1] s := (Function.iterate_succ_apply' fixText _ s).symm
  have eq := fixFile_eq (h.reads reads) Rule.defaults dryRun
  rw [text] at eq
  by_cases same : fixText^[n loc + 1] s = fixText^[n loc] s
  · rw [if_pos same] at eq
    rw [eq]
    refine ⟨congrArg Except.ok (decide_eq_false (not_not_intro same)).symm, ?_⟩
    cases dryRun with
    | true => exact h
    | false =>
      rw [add_visits_singleton reads]
      exact h.unchanged reads same
  · rw [if_neg same] at eq
    rw [eq]
    refine ⟨congrArg Except.ok (decide_eq_true same).symm, ?_⟩
    cases dryRun with
    | true => exact h
    | false =>
      rw [add_visits_singleton reads]
      exact h.setContent reads

theorem fixFile_dryRun_tree (rules : List Rule) (t : FileTree) (path : String) :
    (fixFile rules true t path).tree = t := by
  rw [fixFile]
  split
  · rfl
  · split
    · rfl
    · rfl

end File

section Items

variable {n : Location → Nat} {t u : FileTree}

theorem processed_nil (rules : List Rule) (dryRun : Bool) (t : FileTree) :
    processed rules dryRun t [] = [] := by
  rw [processed]
  exact nofun

theorem processed_error (rules : List Rule) (dryRun : Bool) (t : FileTree) (fault : Fault)
    (items : List (Except Fault String)) :
    processed rules dryRun t (.error fault :: items) = [] := by
  rw [processed]
  exact nofun

theorem processed_cons_of_error {rules : List Rule} {dryRun : Bool} {path : String} {fault : Fault}
    (h : (fixFile rules dryRun t path).result = .error fault) (items : List (Except Fault String)) :
    processed rules dryRun t (.ok path :: items) = [] := by
  simp only [processed, h]

theorem processed_cons_of_ok {rules : List Rule} {dryRun changed : Bool} {path : String}
    (h : (fixFile rules dryRun t path).result = .ok changed) (items : List (Except Fault String)) :
    processed rules dryRun t (.ok path :: items) =
      path :: processed rules dryRun (fixFile rules dryRun t path).tree items := by
  simp only [processed, h]

theorem add_visits_nil (n : Location → Nat) (t : FileTree) (dryRun : Bool) :
    (fun loc => n loc + visits t dryRun [] loc) = n := by
  funext loc
  cases dryRun <;> rfl

theorem add_visits_cons (n : Location → Nat) (t : FileTree) (dryRun : Bool) (path : String)
    (paths : List String) :
    (fun loc => n loc + visits t dryRun (path :: paths) loc) =
      fun loc => n loc + visits t dryRun [path] loc + visits t dryRun paths loc := by
  funext loc
  rw [Nat.add_assoc]
  cases dryRun with
  | true => rfl
  | false => simp [visits, List.countP_cons, Nat.add_comm]

/-- The steps of a run fix the items that its walk finds in the tree that it began with. -/
theorem advance_eq_fixItems (h : Fixed n t u) (steps : Nat) (w : Walk) (report : Report) :
    ((advance Rule.defaults steps u w report).result,
      (advance Rule.defaults steps u w report).tree) =
        fixItems Rule.defaults report.dryRun u report (Walk.itemsWithin t steps w) := by
  induction steps generalizing n u w report with
  | zero => rfl
  | succ steps ih =>
    rw [advance, Walk.itemsWithin, Walk.step_eq_of_sameShape h.sameShape]
    cases w.step t with
    | none => rfl
    | some visited =>
      obtain ⟨v, later⟩ := visited
      simp only
      cases v.item with
      | none => exact ih h later report
      | some item =>
        cases item with
        | error fault => rfl
        | ok path =>
          simp only [Option.toList_some, List.singleton_append, fixItems]
          cases read : t.readText path with
          | error e => rw [fixFile_of_readText_error _ _ (h.readText_error read)]
          | ok s =>
            obtain ⟨loc, reads⟩ := readText_eq_ok_iff.1 read
            obtain ⟨result, fixed⟩ := fixFile_of_reads h reads report.dryRun
            rw [result]
            exact ih fixed later (report.add path _)

/-- Fixing items adds one to the count of a file for every path that leads to it. -/
theorem fixed_fixItems (h : Fixed n t u) (dryRun : Bool) (report : Report)
    (items : List (Except Fault String)) :
    Fixed (fun loc => n loc + visits t dryRun (processed Rule.defaults dryRun u items) loc) t
      (fixItems Rule.defaults dryRun u report items).2 := by
  induction items generalizing n u report with
  | nil => rwa [processed_nil, add_visits_nil]
  | cons item items ih =>
    match item with
    | .error fault => rwa [processed_error, add_visits_nil]
    | .ok path =>
      rw [fixItems]
      cases read : t.readText path with
      | error e =>
        have failed := fixFile_of_readText_error Rule.defaults dryRun (h.readText_error read)
        rw [processed_cons_of_error (by rw [failed]), add_visits_nil, failed]
        exact h
      | ok s =>
        obtain ⟨loc, reads⟩ := readText_eq_ok_iff.1 read
        obtain ⟨result, fixed⟩ := fixFile_of_reads h reads dryRun
        rw [processed_cons_of_ok result, add_visits_cons, result]
        exact ih fixed _

/-- The tree does not depend on what has been reported before. -/
theorem fixItems_tree (rules : List Rule) (dryRun : Bool) (t : FileTree) (report report' : Report)
    (items : List (Except Fault String)) :
    (fixItems rules dryRun t report items).2 = (fixItems rules dryRun t report' items).2 := by
  induction items generalizing t report report' with
  | nil => rfl
  | cons item items ih =>
    match item with
    | .error fault => rfl
    | .ok path =>
      rw [fixItems, fixItems]
      split
      · rfl
      · exact ih ..

theorem changedAt?_succ {dryRun changed : Bool} {path : String}
    (h : (fixFile Rule.defaults dryRun u path).result = .ok changed)
    (items : List (Except Fault String)) (i : Nat) :
    changedAt? dryRun u (.ok path :: items) (i + 1) =
      changedAt? dryRun (fixFile Rule.defaults dryRun u path).tree items i := by
  rw [changedAt?, changedAt?, List.getElem?_cons_succ, List.take_succ_cons, fixItems]
  simp only [h]
  rw [fixItems_tree _ _ _ _ {}]

theorem changedAt?_zero {dryRun : Bool} {path : String} {s : Text} (read : u.readText path = .ok s)
    (items : List (Except Fault String)) :
    changedAt? dryRun u (.ok path :: items) 0 = if fixText s = s then none else some path := by
  rw [changedAt?, List.getElem?_cons_zero, List.take_zero, fixItems]
  simp only [read]

/-- A finished run has read every item and reports those that were changed when it came to them. -/
theorem report_fixItems (h : Fixed n t u) {dryRun : Bool} {report report' : Report}
    {items : List (Except Fault String)}
    (done : (fixItems Rule.defaults dryRun u report items).1 = .ok report') :
    report'.scanned = report.scanned + items.length ∧
      report'.modified =
        report.modified ++ (List.range items.length).filterMap (changedAt? dryRun u items) := by
  induction items generalizing n u report with
  | nil =>
    cases done
    exact ⟨rfl, (List.append_nil _).symm⟩
  | cons item items ih =>
    match item with
    | .error fault => cases done
    | .ok path =>
      rw [fixItems] at done
      cases read : t.readText path with
      | error e =>
        rw [fixFile_of_readText_error _ _ (h.readText_error read)] at done
        cases done
      | ok s =>
        obtain ⟨loc, reads⟩ := readText_eq_ok_iff.1 read
        obtain ⟨result, fixed⟩ := fixFile_of_reads h reads dryRun
        rw [result] at done
        obtain ⟨scanned, modified⟩ := ih fixed done
        have readNow := readText_eq_ok_iff.2 ⟨loc, h.reads reads⟩
        have later : (changedAt? dryRun u (.ok path :: items)) ∘ Nat.succ =
            changedAt? dryRun (fixFile Rule.defaults dryRun u path).tree items :=
          funext (changedAt?_succ result items)
        refine ⟨?_, ?_⟩
        · rw [scanned, Report.add, List.length_cons, Nat.add_assoc, Nat.add_comm 1]
        · rw [modified, Report.add, List.length_cons, List.range_succ_eq_map,
            List.filterMap_cons, List.filterMap_map, later, changedAt?_zero readNow,
            ← Function.iterate_succ_apply' fixText]
          by_cases same : fixText^[n loc + 1] s = fixText^[n loc] s
          · simp only [same, ne_eq, not_true_eq_false, decide_false, if_true, Bool.false_eq_true,
              if_false]
          · simp only [same, ne_eq, not_false_eq_true, decide_true, if_true, if_false,
              List.append_assoc, List.singleton_append]

end Items

end Run

/-- Fixing a list of items in order, from the tree that a run begins with. -/
theorem Run.fixes_of_inOrder {dryRun : Bool} {t : FileTree} {items : List (Except Fault String)}
    {outcome : Outcome Report} (inOrder : (outcome.result, outcome.tree) =
      fixItems Rule.defaults dryRun t { dryRun } items) : Fixes dryRun t items outcome := by
  obtain ⟨result, tree⟩ := Prod.mk.inj inOrder
  have fixed := fixed_fixItems (.zero t) dryRun { dryRun } items
  simp only [Nat.zero_add, ← tree] at fixed
  have reported (report : Report) (done : outcome.result = .ok report) :=
    report_fixItems (.zero t) (result.symm.trans done)
  refine ⟨inOrder, fixed.sameShape, fixed.get?, fun loc unvisited => ?_, ?_, ?_⟩
  · rw [fixed.get?, unvisited, funext Entry.fixed_zero, Option.map_id']
  · exact fun report done => (reported report done).1.trans (Nat.zero_add _)
  · exact fun report done => (reported report done).2

/-- A run comes to the same as fixing the items of its walk through the tree that it begins with. -/
theorem Run.runFix_inOrder {c : Config} (valid : c.validate = .ok ()) (t : FileTree) :
    ((runFix c t).result, (runFix c t).tree) =
      fixItems Rule.defaults c.dryRun t { dryRun := c.dryRun }
        (Walk.items t (Walk.start c t)) := by
  rw [runFix, valid]
  exact advance_eq_fixItems (.zero t) _ _ _

/-- A run through a tree fixes the files that its walk through the unchanged tree finds, one after
the other, and every file ends up fixed as often as one of the paths leads to it. -/
theorem runFix_fixes_items (c : Config) (t : FileTree) (valid : c.validate = .ok ()) :
    Walk.Yields t (Walk.start c t) (Walk.items t (Walk.start c t)) ∧
      Run.Fixes c.dryRun t (Walk.items t (Walk.start c t)) (runFix c t) := by
  exact ⟨Walk.yields_items t _, Run.fixes_of_inOrder (Run.runFix_inOrder valid t)⟩

/-- A source file and a link to it. -/
def linkedTree : FileTree :=
  let content := FileTree.encode "const A(\x7bKey? key\x7d) : super(key: key);".toList
  let (t, _) := Workspace.write .empty "lib/a.dart" content
  match Workspace.makeLink t "a.dart" "lib/b.dart" with
  | .ok t => t
  | .error _ => t

theorem runFix_fixes_linkedTree :
    ({} : Config).validate = .ok () ∧
      Walk.items linkedTree (Walk.start {} linkedTree) = [.ok "lib/a.dart", .ok "lib/b.dart"] ∧
      Run.Fixes false linkedTree [.ok "lib/a.dart", .ok "lib/b.dart"] (runFix {} linkedTree) := by
  have valid : ({} : Config).validate = .ok () := by decide
  have found : Walk.items linkedTree (Walk.start {} linkedTree) =
      [.ok "lib/a.dart", .ok "lib/b.dart"] := by decide +kernel
  refine ⟨valid, found, ?_⟩
  rw [← found]
  exact (runFix_fixes_items {} linkedTree valid).2

end FlutterMend
