import FlutterMend.Proofs.Course

/-!
# Runs that fail

A run fails if its settings are refused, or else at the first of its items without a text. The files
that the items before it lead to are then fixed, once for every such item, and all others are as
they were. There is no other way to fail: a file that was read can also be written.
-/

namespace FlutterMend

open FileTree

/-- An item is a fault of the walk, or a path that does not lead to a file with a text in it. -/
def Faulty (t : FileTree) (item : Except Fault String) : Prop :=
  ∀ path, item = .ok path → ¬t.Readable path

theorem Fault.message_walk (root dir : String) (cause : FileError) :
    (walk root dir cause).message = "walk " ++ root ++ ": " ++
      ("IO error for operation on " ++ dir ++ ": " ++ cause.message ++ ": " ++ cause.message) := by
  have split : ": IO error for operation on " = ": " ++ "IO error for operation on " := rfl
  have unfolded : (walk root dir cause).message = "walk " ++ root ++
      ": IO error for operation on " ++ dir ++ ": " ++ cause.message ++ ": " ++ cause.message := rfl
  rw [unfolded, split]
  simp only [String.append_assoc]

namespace Run

/-- What comes of a run that stops at a faulty item after it has read the given paths. -/
structure StopsAt (c : Config) (t : FileTree) (paths : List String) (item : Except Fault String)
    (outcome : Outcome Report) : Prop where
  readable : ∀ path ∈ paths, t.Readable path
  faulty : Faulty t item
  fault : (∃ dir e, item = .error (.walk c.root dir e) ∧
      outcome.result = .error (.walk c.root dir e)) ∨
    ∃ path e, item = .ok path ∧ t.readText path = .error e ∧
      outcome.result = .error (.read path e)
  message : ∃ fault cause, outcome.result = .error fault ∧
    (fault.message = "walk " ++ c.root ++ ": " ++ cause ∨
      ∃ path, item = .ok path ∧ fault.message = "read " ++ path ++ ": " ++ cause)
  sameShape : SameShape t outcome.tree
  get? : ∀ loc, outcome.tree.get? loc =
    (t.get? loc).map (Entry.fixed (visits t c.dryRun paths loc))
  untouched : ∀ loc, (∀ path ∈ paths, t.leadsTo path loc = false) →
    outcome.tree.get? loc = t.get? loc
  tree_eq_of_dryRun : c.dryRun = true → outcome.tree = t

section Stops

variable {c : Config} {t : FileTree} {items : List (Except Fault String)} {paths : List String}
  {item : Except Fault String} {fault : Fault}

theorem readText_ne_error {path : String} {e : FileError} (readable : t.Readable path) :
    t.readText path ≠ .error e := by
  obtain ⟨loc, s, reads⟩ := readable
  rw [readText_eq_ok_iff.2 ⟨loc, reads⟩]
  nofun

theorem Stops.faulty (stops : Stops t item fault) : Faulty t item := by
  intro path eq readable
  cases stops with
  | walk fault => cases eq
  | read failed =>
    cases eq
    exact readText_ne_error readable failed

theorem Course.not_faulty (course : Course t items paths none) :
    ∀ item ∈ items, ¬Faulty t item := by
  intro item mem faulty
  rw [course.eq_map] at mem
  obtain ⟨path, inside, rfl⟩ := List.mem_map.1 mem
  exact faulty path rfl (course.readable path inside)

theorem visits_eq_zero {loc : Location} (dryRun : Bool)
    (apart : ∀ path ∈ paths, t.leadsTo path loc = false) : visits t dryRun paths loc = 0 := by
  rw [visits]
  split
  · rfl
  · refine List.countP_eq_zero.2 fun path mem => ?_
    rw [apart path mem]
    exact Bool.false_ne_true

/-- A course that ends with a fault says what comes of the run. -/
theorem Course.exists_stopsAt (valid : c.validate = .ok ())
    (course : Course t (Walk.items t (Walk.start c t)) paths (some fault)) :
    ∃ item later, Walk.items t (Walk.start c t) = paths.map .ok ++ item :: later ∧
      StopsAt c t paths item (runFix c t) := by
  obtain ⟨item, later, eq, stops⟩ := course.exists_eq_append
  obtain ⟨fixed, -⟩ := course.fixed_runFix valid (.zero t)
  have result := course.runFix_eq_error valid (.zero t)
  simp only [Nat.zero_add] at fixed
  have kind : (∃ dir e, item = .error (.walk c.root dir e) ∧ fault = .walk c.root dir e) ∨
      ∃ path e, item = .ok path ∧ t.readText path = .error e ∧ fault = .read path e := by
    cases stops with
    | walk fault =>
      have mem : .error fault ∈ Walk.items t (Walk.start c t) := by simp [eq]
      obtain ⟨dir, e, rfl⟩ := Walk.exists_of_error_mem_itemsWithin mem
      exact .inl ⟨dir, e, rfl, rfl⟩
    | read failed => exact .inr ⟨_, _, rfl, failed, rfl⟩
  refine ⟨item, later, eq, course.readable, stops.faulty, ?_, ?_, fixed.sameShape, fixed.get?,
    ?_, ?_⟩
  · rcases kind with ⟨dir, e, rfl, rfl⟩ | ⟨path, e, rfl, failed, rfl⟩
    · exact .inl ⟨dir, e, rfl, result⟩
    · exact .inr ⟨path, e, rfl, failed, result⟩
  · rcases kind with ⟨dir, e, rfl, rfl⟩ | ⟨path, e, rfl, failed, rfl⟩
    · exact ⟨_, _, result, .inl (Fault.message_walk ..)⟩
    · exact ⟨_, e.message, result, .inr ⟨path, rfl, rfl⟩⟩
  · intro loc apart
    rw [fixed.get?, visits_eq_zero _ apart, funext Entry.fixed_zero, Option.map_id']
  · intro dry
    refine fixed.unique ?_
    simpa [visits, dry] using Fixed.zero t

theorem StopsAt.exists_fault {outcome : Outcome Report} (stops : StopsAt c t paths item outcome) :
    ∃ fault, outcome.result = .error fault := by
  obtain ⟨fault, -, result, -⟩ := stops.message
  exact ⟨fault, result⟩

/-- A run that is not refused has no faulty item and ends well, or it stops at the first of them. -/
theorem finishes_or_stopsAt (valid : c.validate = .ok ()) (t : FileTree) :
    ((∃ report, (runFix c t).result = .ok report) ∧
        ∀ item ∈ Walk.items t (Walk.start c t), ¬Faulty t item) ∨
      ∃ paths item later, Walk.items t (Walk.start c t) = paths.map .ok ++ item :: later ∧
        StopsAt c t paths item (runFix c t) := by
  obtain ⟨paths, stop, course⟩ := exists_course t (Walk.items t (Walk.start c t))
  cases stop with
  | none =>
    obtain ⟨report, result, -⟩ := course.exists_report valid (.zero t)
    exact .inl ⟨⟨report, result⟩, course.not_faulty⟩
  | some fault => exact .inr ⟨paths, course.exists_stopsAt valid⟩

end Stops

end Run

theorem Config.validate_ne_write (c : Config) (path : String) (e : FileError) :
    c.validate ≠ .error (.write path e) := by
  rw [validate]
  split_ifs <;> nofun

theorem runFix_of_refused {c : Config} {fault : Fault} (refused : c.validate = .error fault)
    (t : FileTree) : runFix c t = { result := .error fault, tree := t } := by
  rw [runFix, refused]

/-- A run below something that is no directory finds nothing to do. -/
theorem runFix_of_not_isDirectory {c : Config} {t : FileTree} (valid : c.validate = .ok ())
    (notDirectory : t.isDirectory c.root = false) :
    (runFix c t).result = .ok { dryRun := c.dryRun } ∧ (runFix c t).tree = t := by
  have noItems : Walk.items t (Walk.start c t) = [] := by
    simp [Walk.start, notDirectory, Walk.items, Walk.budget, Walk.itemsWithin]
  have inOrder := Run.runFix_inOrder valid t
  rw [noItems] at inOrder
  exact Prod.mk.inj inOrder

/-- No run fails to write: what it writes to is a file that it has read. -/
theorem runFix_ne_write (c : Config) (t : FileTree) (path : String) (e : FileError) :
    (runFix c t).result ≠ .error (.write path e) := by
  cases valid : c.validate with
  | error fault =>
    rw [runFix_of_refused valid]
    intro same
    cases same
    exact c.validate_ne_write path e valid
  | ok =>
    rcases Run.finishes_or_stopsAt valid t with ⟨⟨report, result⟩, -⟩ | ⟨_, _, _, -, stops⟩
    · simp [result]
    · rcases stops.fault with ⟨dir, e', -, result⟩ | ⟨path', e', -, -, result⟩
      · simp [result]
      · simp [result]

/-- When a run fails, with which fault, and what it leaves behind. -/
theorem runFix_fails_iff (c : Config) (t : FileTree) :
    let items := Walk.items t (Walk.start c t)
    Walk.Yields t (Walk.start c t) items ∧
      ((∃ fault, (runFix c t).result = .error fault) ↔
        (∃ fault, c.validate = .error fault) ∨ ∃ item ∈ items, Faulty t item) ∧
      (∀ fault, c.validate = .error fault →
        runFix c t = { result := .error fault, tree := t, events := [] }) ∧
      (c.validate = .ok () → (∃ item ∈ items, Faulty t item) →
        ∃ paths item later, items = paths.map .ok ++ item :: later ∧
          Run.StopsAt c t paths item (runFix c t)) ∧
      (∀ path e, (runFix c t).result ≠ .error (.write path e)) ∧
      (c.validate = .ok () → t.isDirectory c.root = false →
        (runFix c t).result = .ok { dryRun := c.dryRun } ∧ (runFix c t).tree = t) := by
  intro items
  refine ⟨Walk.yields_items t _, ?_, fun fault refused => runFix_of_refused refused t, ?_,
    runFix_ne_write c t, runFix_of_not_isDirectory⟩
  · cases valid : c.validate with
    | error fault => simp [runFix_of_refused valid t]
    | ok =>
      rcases Run.finishes_or_stopsAt valid t with ⟨⟨report, result⟩, faultless⟩ |
        ⟨paths, item, later, eq, stops⟩
      · simpa [result] using faultless
      · have mem : item ∈ items := by simp [items, eq]
        exact ⟨fun _ => .inr ⟨item, mem, stops.faulty⟩, fun _ => stops.exists_fault⟩
  · rintro valid ⟨item, mem, faulty⟩
    rcases Run.finishes_or_stopsAt valid t with ⟨-, faultless⟩ | stops
    · exact absurd faulty (faultless item mem)
    · exact stops

/-- A file, a link that leads nowhere, and a link to the file in a directory that comes later. -/
def danglingTree : FileTree :=
  let text := "const A(\x7bKey? key, b\x7d) : super(key: key) : super(key: key);".toList
  let (t, _) := Workspace.write .empty "lib/a.dart" (encode text)
  let (t, _) := Workspace.makeDirectories t "lib/sub"
  let linked := do
    let t ← Workspace.makeLink t "gone.dart" "lib/b.dart"
    Workspace.makeLink t "../a.dart" "lib/sub/c.dart"
  linked.toOption.getD t

/-- The run stops at the link that leads nowhere, and only the items before it count. -/
theorem runFix_fails_danglingTree :
    let items := Walk.items danglingTree (Walk.start {} danglingTree)
    (runFix {} danglingTree).result = .error (.read "lib/b.dart" .missing) ∧
      ({} : Config).validate = .ok () ∧ (∃ item ∈ items, Faulty danglingTree item) ∧
      ∃ paths item later, items = paths.map .ok ++ item :: later ∧
        Run.StopsAt {} danglingTree paths item (runFix {} danglingTree) := by
  intro items
  have result : (runFix {} danglingTree).result = .error (.read "lib/b.dart" .missing) := by
    decide +kernel
  have valid : ({} : Config).validate = .ok () := by decide
  obtain ⟨-, fails, -, stops, -⟩ := runFix_fails_iff {} danglingTree
  have faulty : ∃ item ∈ items, Faulty danglingTree item := by
    rcases fails.1 ⟨_, result⟩ with ⟨fault, refused⟩ | faulty
    · rw [valid] at refused
      cases refused
    · exact faulty
  exact ⟨result, valid, faulty, stops valid faulty⟩

end FlutterMend
