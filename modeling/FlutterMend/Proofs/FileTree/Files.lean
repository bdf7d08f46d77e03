import FlutterMend.Proofs.FileTree.Leads

/-!
# Trees that differ in files only

Files may come and go in a tree, and their contents may change, without any effect on the paths that
lead to directories: such a path only ever leads through directories and links.
-/

namespace FlutterMend.FileTree

/-- Two trees have the same directories and the same links. -/
structure SameButFiles (s t : FileTree) : Prop where
  workingDirectory : t.workingDirectory = s.workingDirectory
  directory : ∀ loc, t.get? loc = some .directory ↔ s.get? loc = some .directory
  link : ∀ loc target, t.get? loc = some (.link target) ↔ s.get? loc = some (.link target)

/-- Whether one way to follow steps leads to every directory that another one leads to. -/
def LeadsToDirectories (s : FileTree)
    (follow follow' : Location → List Step → Except FileError Place) : Prop :=
  ∀ dir steps loc, follow dir steps = .ok (.entry loc) → s.get? loc = some .directory →
    follow' dir steps = .ok (.entry loc)

namespace SameButFiles

variable {s t u : FileTree}

theorem refl (t : FileTree) : SameButFiles t t := ⟨rfl, fun _ => .rfl, fun _ _ => .rfl⟩

theorem symm (h : SameButFiles s t) : SameButFiles t s :=
  ⟨h.workingDirectory.symm, fun loc => (h.directory loc).symm,
    fun loc target => (h.link loc target).symm⟩

theorem trans (h : SameButFiles s t) (h' : SameButFiles t u) : SameButFiles s u :=
  ⟨h'.workingDirectory.trans h.workingDirectory,
    fun loc => (h'.directory loc).trans (h.directory loc),
    fun loc target => (h'.link loc target).trans (h.link loc target)⟩

theorem followSteps (h : SameButFiles s t)
    {onLink onLink' : Location → List Step → Except FileError Place}
    (links : LeadsToDirectories s onLink onLink') :
    LeadsToDirectories s (s.followSteps .inspect onLink) (t.followSteps .inspect onLink') := by
  intro dir steps loc eq isDirectory
  induction steps generalizing dir with
  | nil => exact eq
  | cons step steps ih =>
    cases step with
    | here => exact ih dir eq
    | slash => exact ih dir eq
    | up => exact ih dir.dropLast eq
    | tooLong => cases eq
    | child name =>
      simp only [FileTree.followSteps, reduceCtorEq, false_and, if_false, and_false] at eq ⊢
      split at eq
      · split at eq <;> cases eq
      · next found =>
        rw [(h.directory _).2 found]
        exact ih _ eq
      · next found =>
        split at eq
        · cases eq
          rw [isDirectory] at found
          cases found
        · cases eq
      · next target found =>
        rw [(h.link _ target).2 found]
        exact links _ _ loc eq isDirectory

theorem followLinks (h : SameButFiles s t) (links : Nat) :
    LeadsToDirectories s (s.followLinks .inspect links) (t.followLinks .inspect links) := by
  induction links with
  | zero => exact h.followSteps nofun
  | succ links ih => exact h.followSteps ih

/-- A path leads to the same directory. -/
theorem locate (h : SameButFiles s t) {path : String} {loc : Location}
    (located : s.locate .inspect path = .ok (loc, .directory)) :
    t.locate .inspect path = .ok (loc, .directory) := by
  obtain ⟨resolved, isDirectory⟩ := exists_of_locate located
  obtain ⟨⟨noNull, ne, short, start⟩, follows⟩ := resolve_eq_ok_iff.1 resolved
  have startOf : t.startOf path = s.startOf path := by
    unfold FileTree.startOf
    rw [h.workingDirectory]
  have resolved' : t.resolve .inspect path = .ok (.entry loc) := by
    rw [resolve_eq_ok_iff, startOf]
    exact ⟨⟨noNull, ne, short, (h.directory _).2 start⟩,
      h.followLinks maxLinks _ _ loc follows isDirectory⟩
  simp only [FileTree.locate, resolved', (h.directory loc).2 isDirectory]

theorem isDirectory (h : SameButFiles s t) (path : String) :
    t.isDirectory path = s.isDirectory path := by
  rw [Bool.eq_iff_iff, isDirectory_iff, isDirectory_iff]
  exact ⟨fun ⟨loc, located⟩ => ⟨loc, h.symm.locate located⟩,
    fun ⟨loc, located⟩ => ⟨loc, h.locate located⟩⟩

end SameButFiles

end FlutterMend.FileTree
