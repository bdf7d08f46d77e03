import FlutterMend.Proofs.Run

/-!
# The course of a run

A run reads the files of its items in order until it comes to an item without a text: a fault of its
walk, or a path that does not lead to a file with a text in it. Which paths it reads and where it
stops depends on the shape of the tree and on which files hold texts. No run changes either, so the
course can be told from the tree that the first of several runs begins with.
-/

namespace FlutterMend

open FileTree

/-- A path leads to a file that holds a text. -/
def FileTree.Readable (t : FileTree) (path : String) : Prop := ∃ loc s, t.Reads path loc s

namespace Run

/-- A run stops at an item with a fault. -/
inductive Stops (t : FileTree) : Except Fault String → Fault → Prop where
  | walk (fault : Fault) : Stops t (.error fault) fault
  | read {path : String} {e : FileError} : t.readText path = .error e →
      Stops t (.ok path) (.read path e)

/-- The paths that a run through the items reads, and the fault with which it stops, if it does. -/
inductive Course (t : FileTree) :
    List (Except Fault String) → List String → Option Fault → Prop where
  | finish : Course t [] [] none
  | stop {item : Except Fault String} {fault : Fault} (later : List (Except Fault String)) :
      Stops t item fault → Course t (item :: later) [] (some fault)
  | read {path : String} {items : List (Except Fault String)} {paths : List String}
      {stop : Option Fault} : t.Readable path → Course t items paths stop →
      Course t (.ok path :: items) (path :: paths) stop

section Course

variable {t u : FileTree} {items : List (Except Fault String)} {paths : List String}
  {stop : Option Fault} {n : Location → Nat}

theorem exists_course (t : FileTree) (items : List (Except Fault String)) :
    ∃ paths stop, Course t items paths stop := by
  induction items with
  | nil => exact ⟨[], none, .finish⟩
  | cons item items ih =>
    match item with
    | .error fault => exact ⟨[], some fault, .stop items (.walk fault)⟩
    | .ok path =>
      cases read : t.readText path with
      | error e => exact ⟨[], some (.read path e), .stop items (.read read)⟩
      | ok s =>
        obtain ⟨loc, reads⟩ := readText_eq_ok_iff.1 read
        obtain ⟨paths, stop, course⟩ := ih
        exact ⟨path :: paths, stop, .read ⟨loc, s, reads⟩ course⟩

theorem Course.readable (course : Course t items paths stop) : ∀ path ∈ paths, t.Readable path := by
  induction course with
  | finish => nofun
  | stop later stops => nofun
  | read readable course ih => exact List.forall_mem_cons.2 ⟨readable, ih⟩

theorem Course.eq_map (course : Course t items paths none) : items = paths.map .ok := by
  generalize eq : none = stop at course
  induction course with
  | finish => rfl
  | stop later stops => cases eq
  | read readable course ih => rw [List.map_cons, ih eq]

theorem Course.exists_eq_append {fault : Fault} (course : Course t items paths (some fault)) :
    ∃ item later, items = paths.map .ok ++ item :: later ∧ Stops t item fault := by
  generalize eq : some fault = stop at course
  induction course with
  | finish => cases eq
  | stop later stops =>
    cases eq
    exact ⟨_, later, rfl, stops⟩
  | read readable course ih =>
    obtain ⟨item, later, rfl, stops⟩ := ih eq
    exact ⟨item, later, rfl, stops⟩

/-- In whatever state the files are, fixing the items reads the paths of the course, and it ends
with the fault of the course. -/
theorem Course.fixed_fixItems (course : Course t items paths stop) (h : Fixed n t u) (dryRun : Bool)
    (report : Report) :
    Fixed (fun loc => n loc + visits t dryRun paths loc) t
        (fixItems Rule.defaults dryRun u report items).2 ∧
      (fixItems Rule.defaults dryRun u report items).1.map Report.scanned =
        stop.elim (.ok (report.scanned + paths.length)) .error := by
  induction course generalizing n u report with
  | finish =>
    rw [add_visits_nil]
    exact ⟨h, rfl⟩
  | stop later stops =>
    rw [add_visits_nil]
    cases stops with
    | walk fault => exact ⟨h, rfl⟩
    | read failed =>
      rw [fixItems, fixFile_of_readText_error _ _ (h.readText_error failed)]
      exact ⟨h, rfl⟩
  | read readable course ih =>
    obtain ⟨loc, s, reads⟩ := readable
    obtain ⟨result, fixed⟩ := fixFile_of_reads h reads dryRun
    rw [add_visits_cons, fixItems, result]
    obtain ⟨fixedLater, ended⟩ := ih fixed (report.add _ _)
    refine ⟨fixedLater, ended.trans ?_⟩
    simp only [Report.add, List.length_cons]
    congr 2
    omega

/-- A run comes to the same as fixing the items of its walk through an earlier tree. -/
theorem runFix_inOrder_of_fixed {c : Config} (valid : c.validate = .ok ()) (h : Fixed n t u) :
    ((runFix c u).result, (runFix c u).tree) =
      fixItems Rule.defaults c.dryRun u { dryRun := c.dryRun } (Walk.items t (Walk.start c t)) := by
  rw [runFix_inOrder valid u, Walk.start_eq_of_sameShape h.sameShape,
    Walk.items_eq_of_sameShape h.sameShape]

/-- The course of a run can be told from an earlier tree. -/
theorem Course.fixed_runFix {c : Config}
    (course : Course t (Walk.items t (Walk.start c t)) paths stop)
    (valid : c.validate = .ok ()) (h : Fixed n t u) :
    Fixed (fun loc => n loc + visits t c.dryRun paths loc) t (runFix c u).tree ∧
      (runFix c u).result.map Report.scanned =
        stop.elim (.ok paths.length) .error := by
  obtain ⟨result, tree⟩ := Prod.mk.inj (runFix_inOrder_of_fixed valid h)
  rw [result, tree]
  simpa using course.fixed_fixItems h c.dryRun { dryRun := c.dryRun }

theorem Course.runFix_eq_error {c : Config} {fault : Fault}
    (course : Course t (Walk.items t (Walk.start c t)) paths (some fault))
    (valid : c.validate = .ok ()) (h : Fixed n t u) :
    (runFix c u).result = .error fault := by
  obtain ⟨-, ended⟩ := course.fixed_runFix valid h
  cases eq : (runFix c u).result with
  | error fault' =>
    rw [eq] at ended
    cases ended
    rfl
  | ok report =>
    rw [eq] at ended
    cases ended

theorem Course.exists_report {c : Config}
    (course : Course t (Walk.items t (Walk.start c t)) paths none)
    (valid : c.validate = .ok ()) (h : Fixed n t u) :
    ∃ report, (runFix c u).result = .ok report ∧ report.scanned = paths.length := by
  obtain ⟨-, ended⟩ := course.fixed_runFix valid h
  cases eq : (runFix c u).result with
  | error fault =>
    rw [eq] at ended
    cases ended
  | ok report =>
    rw [eq] at ended
    exact ⟨report, rfl, Except.ok.inj ended⟩

end Course

end Run

end FlutterMend
