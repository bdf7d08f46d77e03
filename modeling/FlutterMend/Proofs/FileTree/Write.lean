import FlutterMend.Proofs.FileTree.Shape

/-!
# Writing to a file that was read

A path that leads to a file when it is followed for inspection leads to the same file when it is
followed for writing. So a file that has been read by a path can be written by that path, and only
its content changes.
-/

namespace FlutterMend.FileTree

variable {t : FileTree}

theorem get?_dropLast {dir : Location} (h : t.get? dir = some .directory) :
    t.get? dir.dropLast = some .directory := by
  rcases List.eq_nil_or_concat dir with rfl | ⟨above, name, rfl⟩
  · exact h
  · rw [List.concat_eq_append, List.dropLast_concat]
    rw [List.concat_eq_append] at h
    exact get?_parent (Option.isSome_iff_exists.2 ⟨_, h⟩)

theorem get?_linkStart {dir : Location} (h : t.get? dir = some .directory) (target : String) :
    t.get? (if Path.isAbsolute target then [] else dir) = some .directory := by
  split
  · rfl
  · exact h

section Slash

variable {onLink : Location → List Step → Except FileError Place}

/-- Whether steps with a slash after them lead to directories only. -/
def SlashLeadsToDirectory (t : FileTree)
    (follow : Location → List Step → Except FileError Place) : Prop :=
  ∀ dir steps loc, t.get? dir = some .directory →
    follow dir (steps ++ [.slash]) = .ok (.entry loc) → t.get? loc = some .directory

theorem followSteps_slash (h : SlashLeadsToDirectory t onLink) :
    SlashLeadsToDirectory t (t.followSteps .inspect onLink) := by
  intro dir steps loc isDirectory eq
  induction steps generalizing dir with
  | nil =>
    cases eq
    exact isDirectory
  | cons step steps ih =>
    cases step with
    | here => exact ih dir isDirectory eq
    | slash => exact ih dir isDirectory eq
    | up => exact ih dir.dropLast (get?_dropLast isDirectory) eq
    | tooLong => cases eq
    | child name =>
      simp only [List.cons_append, followSteps, reduceCtorEq, false_and, if_false,
        List.append_eq_nil_iff, List.cons_ne_nil, and_false] at eq
      split at eq
      · cases eq
      · next found => exact ih _ found eq
      · cases eq
      · rw [← List.append_assoc] at eq
        exact h _ _ loc (get?_linkStart isDirectory _) eq

theorem followLinks_slash (links : Nat) :
    SlashLeadsToDirectory t (t.followLinks .inspect links) := by
  induction links with
  | zero => exact followSteps_slash nofun
  | succ links ih => exact followSteps_slash ih

end Slash

section Write

variable {onLink onLink' : Location → List Step → Except FileError Place}

/-- Whether one way to follow steps leads to every file that another one leads to. -/
def LeadsToFiles (t : FileTree)
    (follow follow' : Location → List Step → Except FileError Place) : Prop :=
  ∀ dir steps loc content, t.get? dir = some .directory →
    follow dir steps = .ok (.entry loc) → t.get? loc = some (.file content) →
      follow' dir steps = .ok (.entry loc)

theorem followSteps_write (slash : SlashLeadsToDirectory t onLink)
    (h : LeadsToFiles t onLink onLink') :
    LeadsToFiles t (t.followSteps .inspect onLink) (t.followSteps .write onLink') := by
  intro dir steps loc content isDirectory eq isFile
  induction steps generalizing dir with
  | nil => exact eq
  | cons step steps ih =>
    cases step with
    | here => exact ih dir isDirectory eq
    | slash => exact ih dir isDirectory eq
    | up => exact ih dir.dropLast (get?_dropLast isDirectory) eq
    | tooLong => cases eq
    | child name =>
      have noSlash : steps ≠ [.slash] := by
        rintro rfl
        have := followSteps_slash slash dir [.child name] loc isDirectory eq
        rw [isFile] at this
        cases this
      simp only [followSteps, reduceCtorEq, false_and, if_false, and_false] at eq
      simp only [followSteps, true_and, noSlash, if_false]
      split at eq
      · split at eq <;> cases eq
      · next found => exact ih _ found eq
      · exact eq
      · simp only [reduceCtorEq, and_false, if_false]
        exact h _ _ loc content (get?_linkStart isDirectory _) eq isFile

theorem followLinks_write (links : Nat) :
    LeadsToFiles t (t.followLinks .inspect links) (t.followLinks .write links) := by
  induction links with
  | zero => exact followSteps_write nofun nofun
  | succ links ih => exact followSteps_write (followLinks_slash links) ih

end Write

theorem exists_of_locate {purpose : Purpose} {path : String} {loc : Location} {entry : Entry}
    (h : t.locate purpose path = .ok (loc, entry)) :
    t.resolve purpose path = .ok (.entry loc) ∧ t.get? loc = some entry := by
  rw [locate] at h
  split at h
  · cases h
  · cases h
  · next loc' resolved =>
    split at h
    · cases h
    · next entry' found =>
      cases h
      exact ⟨resolved, found⟩

/-- A path that leads somewhere is well-formed and not too long, and it is followed from a
directory. -/
theorem resolve_eq_ok_iff {purpose : Purpose} {path : String} {place : Place} :
    t.resolve purpose path = .ok place ↔
      ('\x00' ∉ path.toList ∧ path ≠ "" ∧ path.utf8ByteSize < maxPathSize ∧
        t.get? (t.startOf path) = some .directory) ∧
      t.followLinks purpose maxLinks (t.startOf path) (Path.steps path) = .ok place := by
  rw [resolve]
  split
  · simp_all
  · split
    · simp_all
    · split
      · next long => simp [Nat.not_lt.2 long]
      · split
        · simp_all
        · simp_all

/-- A file that is found by a path can be written by it. -/
theorem write_of_locate {path : String} {loc : Location} {content : ByteArray}
    (h : t.locate .inspect path = .ok (loc, .file content)) (content' : ByteArray) :
    t.write path content' = .ok (t.setContent loc content') := by
  obtain ⟨resolved, isFile⟩ := exists_of_locate h
  have resolved' : t.resolve .write path = .ok (.entry loc) := by
    rw [resolve_eq_ok_iff] at resolved ⊢
    obtain ⟨wellFormed, follows⟩ := resolved
    exact ⟨wellFormed,
      followLinks_write maxLinks _ _ loc content wellFormed.2.2.2 follows isFile⟩
  simp only [write, resolved', isFile]

/-- Writing to a file leaves the shape of the tree as it is. -/
theorem sameShape_setContent {loc : Location} {content : ByteArray}
    (isFile : t.get? loc = some (.file content)) (content' : ByteArray) :
    SameShape t (t.setContent loc content') := by
  refine ⟨?_, fun loc' => ?_⟩
  · rw [setContent]
    split <;> rfl
  · rw [get?_setContent _ (by rw [isFile]; rfl)]
    split_ifs with same
    · rw [same, isFile]
      rfl
    · rfl

/-- A path leads to the same file after it has been written. -/
theorem locate_setContent {path : String} {loc : Location} {content : ByteArray}
    (h : t.locate .inspect path = .ok (loc, .file content)) (content' : ByteArray) :
    (t.setContent loc content').locate .inspect path = .ok (loc, .file content') := by
  obtain ⟨resolved, isFile⟩ := exists_of_locate h
  have shape := sameShape_setContent isFile content'
  have written : (t.setContent loc content').get? loc = some (.file content') := by
    rw [get?_setContent _ (by rw [isFile]; rfl), if_pos rfl]
  simp only [locate, shape.resolve, resolved, written]

end FlutterMend.FileTree
