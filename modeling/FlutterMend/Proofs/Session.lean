import FlutterMend.Proofs.Run

/-!
# Sessions with a source file

Once a source file is loaded, rules are applied to it and it is persisted, any number of times and
in any order, and meanwhile the tree may change in any way. All applications together amount to one
application of all their rules. So three things always agree: whether a rule has reported a change,
whether the text differs from the loaded one, and whether persisting the file writes it.
-/

namespace FlutterMend

open FileTree

/-- What may happen once a source file is loaded. -/
inductive Action where
  | apply (rules : List Rule)
  | persist
  | edit (change : FileTree → FileTree)

/-- The rules that an action applies. -/
def Action.rules : Action → List Rule
  | apply rules => rules
  | _ => []

/-- A source file, the tree, and the rules that each application to the file has reported. -/
structure Session where
  file : SourceFile
  tree : FileTree
  reported : List (List Rule) := []

theorem SourceFile.path_of_load {t : FileTree} {path : String} {file : SourceFile}
    (h : load t path = .ok file) : file.path = path := by
  rw [load] at h
  split at h <;> cases h
  rfl

namespace Session

def step (s : Session) : Action → Session
  | .apply rules =>
    let (file, applied) := s.file.apply rules
    { s with file, reported := s.reported ++ [applied] }
  | .persist =>
    match s.file.persist s.tree with
    | .error _ => s
    | .ok (tree, _) => { s with tree }
  | .edit change => { s with tree := change s.tree }

def run (s : Session) (actions : List Action) : Session := actions.foldl step s

/-- Whether some application of rules has reported a change. -/
def HasReported (s : Session) : Prop := ∃ applied ∈ s.reported, applied ≠ []

/-- What was done to a loaded file amounts to applying the given rules to it once. -/
structure Applies (loaded : SourceFile) (rules : List Rule) (s : Session) : Prop where
  file : s.file = { loaded with text := (Revision.ofRules rules loaded.loaded).text }
  reported : s.reported.flatten = (Revision.ofRules rules loaded.loaded).applied

section Applies

variable {loaded : SourceFile} {rules : List Rule} {s : Session}

theorem applies_of_load {t : FileTree} {path : String} (h : SourceFile.load t path = .ok loaded) :
    Applies loaded [] { file := loaded, tree := t } := by
  rw [SourceFile.load] at h
  split at h
  · cases h
  · cases h
    exact ⟨rfl, rfl⟩

theorem Applies.step (h : Applies loaded rules s) (action : Action) :
    Applies loaded (rules ++ action.rules) (s.step action) := by
  cases action with
  | apply later =>
    refine ⟨?_, ?_⟩
    · simp [Session.step, SourceFile.apply, Action.rules, h.file, Revision.text_append]
    · simp [Session.step, SourceFile.apply, Action.rules, h.file, h.reported,
        Revision.applied_append]
  | persist =>
    simp only [Session.step, Action.rules, List.append_nil]
    split
    · exact h
    · exact ⟨h.file, h.reported⟩
  | edit change =>
    simp only [Action.rules, List.append_nil]
    exact ⟨h.file, h.reported⟩

theorem Applies.run (h : Applies loaded rules s) (actions : List Action) :
    Applies loaded (rules ++ actions.flatMap Action.rules) (s.run actions) := by
  induction actions generalizing rules s with
  | nil => simpa [Session.run] using h
  | cons action actions ih =>
    have later := ih (h.step action)
    rwa [List.append_assoc] at later

theorem reported_prefix_step (s : Session) (action : Action) :
    s.reported <+: (s.step action).reported := by
  cases action with
  | apply rules => exact List.prefix_append _ _
  | persist =>
    simp only [Session.step]
    split <;> exact List.prefix_refl _
  | edit change => exact List.prefix_refl _

theorem reported_prefix_run (s : Session) (actions : List Action) :
    s.reported <+: (s.run actions).reported := by
  induction actions generalizing s with
  | nil => exact List.prefix_refl _
  | cons action actions ih => exact (s.reported_prefix_step action).trans (ih _)

theorem HasReported.run (h : s.HasReported) (actions : List Action) :
    (s.run actions).HasReported := by
  obtain ⟨applied, mem, ne⟩ := h
  exact ⟨applied, (s.reported_prefix_run actions).subset mem, ne⟩

/-- The text differs from the loaded one just if a change was reported. -/
theorem Applies.isModified_iff (h : Applies loaded rules s) :
    s.file.isModified = true ↔ s.HasReported := by
  have unchanged := Revision.applied_eq_nil_iff rules loaded.loaded
  rw [← h.reported, List.flatten_eq_nil_iff] at unchanged
  simp only [SourceFile.isModified, h.file, bne_iff_ne, ne_eq, ← unchanged, HasReported]
  push Not
  rfl

end Applies

/-- Reports, changes of the text and writing agree at some point of a session with the file of the
given path. -/
structure ChangesAgree (path : String) (s : Session) : Prop where
  isModified_iff : s.file.isModified = true ↔ s.HasReported
  persist_of_reported : s.HasReported → ∀ t : FileTree, s.file.persist t =
    ((t.write path (encode s.file.text)).mapError (Fault.write path)).map fun t => (t, true)
  persist_of_not_reported : ¬s.HasReported → ∀ t : FileTree, s.file.persist t = .ok (t, false)

theorem Applies.changesAgree {loaded : SourceFile} {rules : List Rule} {s : Session}
    (h : Applies loaded rules s) : ChangesAgree loaded.path s := by
  have modified := h.isModified_iff
  refine ⟨modified, fun reported t => ?_, fun notReported t => ?_⟩
  · have path : s.file.path = loaded.path := by rw [h.file]
    rw [SourceFile.persist, if_pos (modified.2 reported), path]
    cases t.write loaded.path (encode s.file.text) with
    | error e => rfl
    | ok u => rfl
  · rw [SourceFile.persist, if_neg (notReported ∘ modified.1)]

end Session

/-- Whether the events of an outcome tell of a file that was written. -/
def Outcome.Writes {α : Type} (o : Outcome α) (path : String) : Prop :=
  ∃ rules, Event.revised path rules true ∈ o.events

/-- A file was fixed without a fault, and it was reported as changed just if it was written and just
if its content is another one afterwards. -/
structure FixAgrees (t : FileTree) (path : String) (changed : Bool) (o : Outcome Bool) : Prop where
  content : ∃ loc before after, t.locate .inspect path = .ok (loc, .file before) ∧
    o.tree.locate .inspect path = .ok (loc, .file after) ∧ (o.Writes path ↔ after ≠ before) ∧
    (o.Writes path → t.write path after = .ok o.tree)
  changed_iff : changed = true ↔ o.Writes path
  tree_eq : changed = false → o.tree = t

theorem fixAgrees_of_result {rules : List Rule} {t : FileTree} {path : String} {changed : Bool}
    (h : (fixFile rules false t path).result = .ok changed) :
    FixAgrees t path changed (fixFile rules false t path) := by
  cases read : t.readText path with
  | error e =>
    rw [Run.fixFile_of_readText_error _ _ read] at h
    cases h
  | ok s =>
    obtain ⟨loc, reads⟩ := readText_eq_ok_iff.1 read
    have eq := Run.fixFile_eq reads rules false
    obtain ⟨content, located, decoded⟩ := reads
    by_cases same : (Revision.ofRules rules s).text = s
    · rw [if_pos same] at eq
      rw [eq] at h ⊢
      cases h
      exact ⟨⟨loc, content, content, located, located, by simp [Outcome.Writes]⟩,
        by simp [Outcome.Writes], fun _ => rfl⟩
    · rw [if_neg same] at eq
      rw [eq] at h ⊢
      cases h
      -- Two texts with the same bytes are the same, so the content differs as the text does.
      have differs : encode (Revision.ofRules rules s).text ≠ content := by
        rintro rfl
        rw [decode?_encode] at decoded
        exact same (Option.some.inj decoded)
      refine ⟨⟨loc, content, _, located, locate_setContent located _, ?_, fun _ => ?_⟩, ?_, nofun⟩
      · simpa [Outcome.Writes] using differs
      · exact write_of_locate located _
      · simp [Outcome.Writes]

/-- Reported changes, changes of the text and writing agree at every point of every session with a
file, and once they are there they stay. They agree as well when a file is fixed in one go. -/
theorem changes_agree (t : FileTree) (path : String) :
    (∀ file, SourceFile.load t path = .ok file → ∀ actions later : List Action,
      let session := ({ file, tree := t } : Session).run actions
      Session.ChangesAgree path session ∧
        (session.file.isModified = true → (session.run later).file.isModified = true)) ∧
      ∀ rules changed, (fixFile rules false t path).result = .ok changed →
        FixAgrees t path changed (fixFile rules false t path) := by
  refine ⟨fun file loaded actions later => ?_, fun rules changed => fixAgrees_of_result⟩
  have applies := (Session.applies_of_load loaded).run actions
  have samePath : file.path = path := SourceFile.path_of_load loaded
  refine ⟨samePath ▸ applies.changesAgree, fun modified => ?_⟩
  exact (applies.run later).isModified_iff.2 ((applies.isModified_iff.1 modified).run later)

/-- The link is loaded, the file behind it is rewritten and then taken away, and what the rules have
changed is still there to be written. -/
theorem changes_agree_linkedTree :
    let text := "const A(\x7bKey? key\x7d) : super(key: key);".toList
    let file : SourceFile := { path := "lib/b.dart", loaded := text, text }
    let actions :=
      [.apply [.superKey, .opacity], .persist, .edit fun _ => .empty, .apply [.opacity]]
    SourceFile.load linkedTree "lib/b.dart" = .ok file ∧
      Session.ChangesAgree "lib/b.dart" (({ file, tree := linkedTree } : Session).run actions) ∧
      (fixFile Rule.defaults false linkedTree "lib/b.dart").result = .ok true ∧
      FixAgrees linkedTree "lib/b.dart" true
        (fixFile Rule.defaults false linkedTree "lib/b.dart") := by
  intro text file actions
  have loaded : SourceFile.load linkedTree "lib/b.dart" = .ok file := by decide +kernel
  have fixed : (fixFile Rule.defaults false linkedTree "lib/b.dart").result = .ok true := by
    decide +kernel
  have agree := changes_agree linkedTree "lib/b.dart"
  exact ⟨loaded, (agree.1 file loaded actions []).1, fixed, agree.2 _ _ fixed⟩

end FlutterMend
