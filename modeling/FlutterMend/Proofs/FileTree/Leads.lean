import FlutterMend.Proofs.FileTree.Join

/-!
# Where paths lead

A path that does not end with a name leads to a directory or nowhere, and a path that leads to
anything but a link leads there also when links are followed.
-/

namespace FlutterMend

namespace Path

theorem isProper_name (name : Name) : isProper name.text.toList = true := by
  have here : name.text.toList ≠ ['.'] := by
    intro eq
    exact name.ne_here (String.toList_inj.1 eq)
  simp [isProper, name.ne_empty, here]

/-- A path whose last segment is a name ends with this name. -/
theorem fileName_of_segments {path : String} {front : List Text} {name : Name}
    (h : segments path = front ++ [name.text.toList]) : fileName path = name.text := by
  have up : name.text.toList ≠ ['.', '.'] := by
    intro eq
    exact name.ne_up (String.toList_inj.1 eq)
  unfold fileName
  rw [h, List.filter_append, List.filter_singleton, isProper_name, cond_true, List.getLast?_concat]
  split
  · next absent => cases absent
  · next same => exact absurd (Option.some.inj same) up
  · next same =>
    cases same
    exact String.ofList_toList

/-- A last step to a name is what the last segment says. -/
theorem fileName_of_steps {path : String} {name : Name}
    (h : (steps path).getLast? = some (.child name)) : fileName path = name.text := by
  rcases List.eq_nil_or_concat (segments path) with none | ⟨front, last, eq⟩
  · exact absurd none (Text.pieces_ne_nil _ _)
  · rw [List.concat_eq_append] at eq
    unfold steps at h
    rw [eq, stepsOfSegments_append_singleton] at h
    have isChild : Step.ofSegment last = .child name := by
      by_cases empty : last = []
      · simp [empty] at h
      · simpa [empty] using h
    have same : last = name.text.toList := by
      unfold Step.ofSegment Name.ofString? at isChild
      split_ifs at isChild
      cases isChild
      exact String.toList_ofList.symm
    exact fileName_of_segments (same ▸ eq)

end Path

namespace FileTree

variable {t : FileTree}

/-- Whether steps that do not end with a name lead to directories only. -/
def OnlyNamesLeadOn (t : FileTree)
    (follow : Location → List Step → Except FileError Place) : Prop :=
  ∀ dir steps loc, t.get? dir = some .directory → (∀ name, steps.getLast? ≠ some (.child name)) →
    follow dir steps = .ok (.entry loc) → t.get? loc = some .directory

theorem onlyNamesLeadOn_followSteps {purpose : Purpose}
    {onLink : Location → List Step → Except FileError Place} (h : OnlyNamesLeadOn t onLink) :
    OnlyNamesLeadOn t (t.followSteps purpose onLink) := by
  intro dir steps loc isDirectory noName eq
  induction steps generalizing dir with
  | nil =>
    cases eq
    exact isDirectory
  | cons step steps ih =>
    have noName' : ∀ name, steps.getLast? ≠ some (.child name) := by
      intro name last
      exact noName name (by simp [List.getLast?_cons, last])
    cases step with
    | here => exact ih dir isDirectory noName' eq
    | slash => exact ih dir isDirectory noName' eq
    | up => exact ih dir.dropLast (get?_dropLast isDirectory) noName' eq
    | tooLong => cases eq
    | child name =>
      have more : steps ≠ [] := by
        rintro rfl
        exact noName name rfl
      simp only [followSteps, more, false_and, if_false] at eq
      split at eq
      · cases eq
      · split at eq
        · cases eq
        · next found => exact ih _ found noName' eq
        · cases eq
        · refine h _ _ loc (get?_linkStart isDirectory _) (fun name => ?_) eq
          rw [List.getLast?_append_of_ne_nil _ more]
          exact noName' name

theorem onlyNamesLeadOn_followLinks (purpose : Purpose) (links : Nat) :
    OnlyNamesLeadOn t (t.followLinks purpose links) := by
  induction links with
  | zero => exact onlyNamesLeadOn_followSteps nofun
  | succ links ih => exact onlyNamesLeadOn_followSteps ih

theorem kindOf_eq_ok_iff {purpose : Purpose} {path : String} {kind : Entry.Kind} :
    t.kindOf purpose path = .ok kind ↔
      ∃ loc entry, t.locate purpose path = .ok (loc, entry) ∧ entry.kind = kind := by
  unfold kindOf
  cases t.locate purpose path with
  | error e => simp [Except.map]
  | ok found => simp [Except.map, Prod.ext_iff]

theorem kindOf_eq_directory_iff {purpose : Purpose} {path : String} :
    t.kindOf purpose path = .ok .directory ↔
      ∃ loc, t.locate purpose path = .ok (loc, .directory) := by
  rw [kindOf_eq_ok_iff]
  constructor
  · rintro ⟨loc, entry, located, kind⟩
    cases entry <;> cases kind
    exact ⟨loc, located⟩
  · rintro ⟨loc, located⟩
    exact ⟨loc, .directory, located, rfl⟩

theorem isDirectory_iff {path : String} :
    t.isDirectory path = true ↔ ∃ loc, t.locate .inspect path = .ok (loc, .directory) := by
  rw [← kindOf_eq_directory_iff]
  unfold isDirectory
  split
  · next isDirectory => simp [isDirectory]
  · next other => simpa using other

theorem list_eq_ok_iff {path : String} {names : List (Name × Entry.Kind)} :
    t.list path = .ok names ↔
      ∃ loc, t.locate .inspect path = .ok (loc, .directory) ∧ t.children loc = names := by
  unfold list
  split
  · next failed => simp [failed]
  · next loc located => simp [located]
  · next other located =>
    simp only [located, reduceCtorEq, Except.ok.injEq, false_iff, not_exists, not_and]
    rintro loc rfl
    exact absurd rfl (other loc)

/-- A path that does not lead to a directory ends with a name. -/
theorem exists_fileName_of_kindOf {purpose : Purpose} {path : String} {kind : Entry.Kind}
    (h : t.kindOf purpose path = .ok kind) (ne : kind ≠ .directory) :
    ∃ name : Name, Path.fileName path = name.text := by
  obtain ⟨loc, entry, located, rfl⟩ := kindOf_eq_ok_iff.1 h
  obtain ⟨resolved, found⟩ := exists_of_locate located
  obtain ⟨⟨-, -, -, start⟩, follows⟩ := resolve_eq_ok_iff.1 resolved
  by_contra noName
  push Not at noName
  have isDirectory : t.get? loc = some .directory := by
    refine onlyNamesLeadOn_followLinks purpose maxLinks _ _ loc start (fun name last => ?_) follows
    exact noName name (Path.fileName_of_steps last)
  rw [found] at isDirectory
  cases isDirectory
  exact ne rfl

/-- Whether one way to follow steps leads wherever another one leads, unless that is to a link. -/
def LeadsPastLinks (t : FileTree)
    (follow follow' : Location → List Step → Except FileError Place) : Prop :=
  ∀ dir steps loc entry, follow dir steps = .ok (.entry loc) → t.get? loc = some entry →
    entry.kind ≠ .link → follow' dir steps = .ok (.entry loc)

theorem leadsPastLinks_followSteps {onLink onLink' : Location → List Step → Except FileError Place}
    (h : LeadsPastLinks t onLink onLink') :
    LeadsPastLinks t (t.followSteps .inspectLink onLink) (t.followSteps .inspect onLink') := by
  intro dir steps loc entry eq found noLink
  induction steps generalizing dir with
  | nil => exact eq
  | cons step steps ih =>
    cases step with
    | here => exact ih dir eq
    | slash => exact ih dir eq
    | up => exact ih dir.dropLast eq
    | tooLong => cases eq
    | child name =>
      simp only [followSteps, reduceCtorEq, false_and, if_false, and_true, and_false] at eq ⊢
      split at eq
      · split at eq <;> cases eq
      · exact ih _ eq
      · exact eq
      · next isLink =>
        split at eq
        · cases eq
          rw [isLink] at found
          cases found
          exact absurd rfl noLink
        · exact h _ _ loc entry eq found noLink

theorem leadsPastLinks_followLinks (links : Nat) :
    LeadsPastLinks t (t.followLinks .inspectLink links) (t.followLinks .inspect links) := by
  induction links with
  | zero => exact leadsPastLinks_followSteps nofun
  | succ links ih => exact leadsPastLinks_followSteps ih

/-- An entry that is no link is what its path leads to. -/
theorem kindOf_inspect_of_inspectLink {path : String} {kind : Entry.Kind}
    (h : t.kindOf .inspectLink path = .ok kind) (noLink : kind ≠ .link) :
    t.kindOf .inspect path = .ok kind := by
  obtain ⟨loc, entry, located, rfl⟩ := kindOf_eq_ok_iff.1 h
  obtain ⟨resolved, found⟩ := exists_of_locate located
  obtain ⟨wellFormed, follows⟩ := resolve_eq_ok_iff.1 resolved
  have resolved' : t.resolve .inspect path = .ok (.entry loc) :=
    resolve_eq_ok_iff.2
      ⟨wellFormed, leadsPastLinks_followLinks maxLinks _ _ loc entry follows found noLink⟩
  refine kindOf_eq_ok_iff.2 ⟨loc, entry, ?_, rfl⟩
  simp only [locate, resolved', found]

end FileTree

end FlutterMend
