import FlutterMend.Proofs.FileTree.Write

/-!
# Paths of entries in a directory

The path of an entry is the path of its directory with the name joined to it. If the entry is a
directory itself, the joined path leads to it wherever the path of its directory leads, unless it is
too long to be followed.
-/

namespace FlutterMend

namespace Text

theorem pieces_ne_nil (separator : Char) (s : Text) : pieces separator s ≠ [] := by
  induction s with
  | nil => exact List.cons_ne_nil _ _
  | cons c s ih =>
    rw [pieces]
    split
    · exact List.cons_ne_nil _ _
    · split <;> exact List.cons_ne_nil _ _

theorem pieces_append_separator (separator : Char) (s w : Text) :
    pieces separator (s ++ separator :: w) = pieces separator s ++ pieces separator w := by
  induction s with
  | nil => simp [pieces]
  | cons c s ih =>
    rw [List.cons_append, pieces, pieces, ih]
    split
    · rfl
    · cases first : pieces separator s with
      | nil => exact absurd first (pieces_ne_nil separator s)
      | cons piece rest => rfl

theorem pieces_of_not_mem {separator : Char} {w : Text} (h : separator ∉ w) :
    pieces separator w = [w] := by
  induction w with
  | nil => rfl
  | cons c w ih =>
    rw [List.mem_cons, not_or] at h
    rw [pieces, if_neg fun eq => h.1 eq.symm, ih h.2]

/-- A text that does not end with the separator does not end with an empty piece. -/
theorem getLast?_pieces_ne {separator c : Char} (s : Text) (h : c ≠ separator) :
    (pieces separator (s ++ [c])).getLast? ≠ some [] := by
  induction s with
  | nil => simp [pieces, h]
  | cons d s ih =>
    rw [List.cons_append, pieces]
    split
    · rw [List.getLast?_cons_of_ne_nil (pieces_ne_nil _ _)]
      exact ih
    · cases first : pieces separator (s ++ [c]) with
      | nil => simp
      | cons piece rest =>
        rw [first] at ih
        cases rest with
        | nil => simp
        | cons _ _ => simpa [List.getLast?_cons_cons] using ih

end Text

namespace Path

theorem stepsOfSegments_append_singleton (segments : List Text) (segment : Text) :
    stepsOfSegments (segments ++ [segment]) =
      (segments.filter (· ≠ [])).map Step.ofSegment ++
        if segment = [] then [.slash] else [Step.ofSegment segment] := by
  induction segments with
  | nil => cases segment <;> rfl
  | cons first segments ih =>
    cases first with
    | nil =>
      obtain ⟨second, rest, eq⟩ := List.exists_cons_of_ne_nil
        (List.append_ne_nil_of_right_ne_nil segments (List.cons_ne_nil segment []))
      have skipped : stepsOfSegments ([] :: (segments ++ [segment])) =
          stepsOfSegments (segments ++ [segment]) := by
        rw [eq]
        rfl
      rw [List.cons_append, skipped, ih]
      rfl
    | cons c first =>
      have kept : stepsOfSegments ((c :: first) :: (segments ++ [segment])) =
          Step.ofSegment (c :: first) :: stepsOfSegments (segments ++ [segment]) := rfl
      rw [List.cons_append, kept, ih]
      rfl

theorem ofSegment_name (name : Name) : Step.ofSegment name.text.toList = .child name := by
  have here : name.text.toList ≠ ['.'] := fun eq => name.ne_here (by
    rw [← String.ofList_toList (s := name.text), eq])
  have up : name.text.toList ≠ ['.', '.'] := fun eq => name.ne_up (by
    rw [← String.ofList_toList (s := name.text), eq])
  rw [Step.ofSegment, if_neg here, if_neg up, String.ofList_toList, Name.ofString?_text]

/-- A name is joined to a path after a slash, which may be there already. -/
theorem exists_toList_join {dir : String} (ne : dir ≠ "") (name : String) :
    ∃ front, (join dir name).toList = front ++ '/' :: name.toList ∧
      (dir.toList = front ++ ['/'] ∨
        dir.toList = front ∧ ∃ s c, front = s ++ [c] ∧ c ≠ '/') := by
  rcases List.eq_nil_or_concat dir.toList with eq | ⟨s, c, eq⟩
  · exact absurd (String.toList_eq_nil_iff.1 eq) ne
  · rw [List.concat_eq_append] at eq
    have last : dir.toList.getLast? = some c := by rw [eq, List.getLast?_concat]
    by_cases slash : c = '/'
    · subst slash
      have joined : join dir name = dir ++ name := by
        rw [join, last]
        rfl
      refine ⟨s, ?_, .inl eq⟩
      rw [joined, String.toList_append, eq, List.append_assoc]
      rfl
    · refine ⟨dir.toList, ?_, .inr ⟨rfl, s, c, eq, slash⟩⟩
      have joined : join dir name = dir ++ "/" ++ name := by
        rw [join, last]
        split
        · next absent => cases absent
        · next isSlash => exact absurd (Option.some.inj isSlash) slash
        · rfl
      rw [joined, String.toList_append, String.toList_append, List.append_assoc]
      rfl

/-- The steps of a joined path go on from the steps of the directory, whose slash at the end, if it
has one, is dropped. -/
theorem exists_steps_join {dir : String} (ne : dir ≠ "") (name : Name) :
    ∃ front back, (back = [] ∨ back = [Step.slash]) ∧ steps dir = front ++ back ∧
      steps (join dir name.text) = front ++ [.child name] := by
  obtain ⟨front, joined, split⟩ := exists_toList_join ne name.text
  have nonempty : name.text.toList ≠ [] := fun eq => name.ne_empty (String.toList_eq_nil_iff.1 eq)
  have steps_join : steps (join dir name.text) =
      ((Text.pieces '/' front).filter (· ≠ [])).map Step.ofSegment ++ [.child name] := by
    rw [steps, segments, joined, Text.pieces_append_separator,
      Text.pieces_of_not_mem name.not_mem_slash, stepsOfSegments_append_singleton,
      if_neg nonempty, ofSegment_name]
  refine ⟨_, if dir.toList = front ++ ['/'] then [.slash] else [], ?_, ?_, steps_join⟩
  · split
    · exact .inr rfl
    · exact .inl rfl
  · rw [steps, segments]
    rcases split with eq | ⟨eq, s, c, hfront, noSlash⟩
    · rw [if_pos eq, eq, Text.pieces_append_separator, Text.pieces,
        stepsOfSegments_append_singleton,
        if_pos rfl]
    · have noSlash' : dir.toList ≠ front ++ ['/'] := by
        rw [eq]
        simp
      rw [if_neg noSlash', eq, List.append_nil]
      -- The last piece is not empty, so it is a step like those before it.
      rcases List.eq_nil_or_concat (Text.pieces '/' front) with pieces | ⟨init, last, pieces⟩
      · exact absurd pieces (Text.pieces_ne_nil _ _)
      · rw [List.concat_eq_append] at pieces
        have filled : last ≠ [] := fun empty => by
          have := Text.getLast?_pieces_ne s noSlash
          rw [← hfront, pieces, List.getLast?_concat, empty] at this
          exact this rfl
        rw [pieces, stepsOfSegments_append_singleton, if_neg filled]
        simp [filled]

theorem isAbsolute_join {dir : String} (ne : dir ≠ "") (name : String) :
    isAbsolute (join dir name) = isAbsolute dir := by
  obtain ⟨front, joined, split⟩ := exists_toList_join ne name
  rw [isAbsolute, isAbsolute, joined]
  rcases split with eq | ⟨eq, s, c, rfl, -⟩
  · rw [eq]
    cases front <;> rfl
  · rw [eq]
    cases s <;> rfl

end Path

namespace FileTree

variable {t : FileTree}

/-- Whether steps can be followed on to a directory in the directory that they lead to. -/
def FollowsOn (t : FileTree) (follow : Location → List Step → Except FileError Place) : Prop :=
  ∀ dir front back loc name, (back = [] ∨ back = [Step.slash]) →
    follow dir (front ++ back) = .ok (.entry loc) → t.get? loc = some .directory →
      t.get? (loc ++ [name]) = some .directory →
        follow dir (front ++ [.child name]) = .ok (.entry (loc ++ [name]))

theorem followSteps_followsOn {onLink : Location → List Step → Except FileError Place}
    (h : FollowsOn t onLink) : FollowsOn t (t.followSteps .inspect onLink) := by
  intro dir front back loc name hback eq isDirectory isDirectory'
  induction front generalizing dir with
  | nil =>
    obtain rfl : dir = loc := by
      rcases hback with rfl | rfl <;> cases eq <;> rfl
    simp [followSteps, isDirectory']
  | cons step front ih =>
    cases step with
    | here => exact ih dir eq
    | slash => exact ih dir eq
    | up => exact ih dir.dropLast eq
    | tooLong => cases eq
    | child step =>
      simp only [List.cons_append, followSteps, reduceCtorEq, false_and, if_false, and_false] at eq
      simp only [List.cons_append, followSteps, reduceCtorEq, false_and, if_false, and_false,
        List.append_eq_nil_iff, List.cons_ne_nil]
      split at eq
      · split at eq <;> cases eq
      · exact ih _ eq
      · next found =>
        split at eq
        · cases eq
          rw [isDirectory] at found
          cases found
        · cases eq
      · rw [← List.append_assoc] at eq ⊢
        exact h _ _ back loc name hback eq isDirectory isDirectory'

theorem followLinks_followsOn (links : Nat) : FollowsOn t (t.followLinks .inspect links) := by
  induction links with
  | zero => exact followSteps_followsOn nofun
  | succ links ih => exact followSteps_followsOn ih

/-- The path of a directory in a directory leads there, unless it is too long. -/
theorem locate_join {path : String} {loc : Location} {name : Name}
    (located : t.locate .inspect path = .ok (loc, .directory))
    (isDirectory : t.get? (loc ++ [name]) = some .directory) :
    t.locate .inspect (Path.join path name.text) = .ok (loc ++ [name], .directory) ∨
      t.locate .inspect (Path.join path name.text) = .error .nameTooLong := by
  obtain ⟨resolved, isDirectory₀⟩ := exists_of_locate located
  obtain ⟨⟨noNull, ne, -, start⟩, follows⟩ := resolve_eq_ok_iff.1 resolved
  obtain ⟨front, joined, split⟩ := Path.exists_toList_join ne name.text
  obtain ⟨steps, back, hback, steps_eq, steps_join⟩ := Path.exists_steps_join ne name
  have start_join : t.startOf (Path.join path name.text) = t.startOf path := by
    rw [startOf, startOf, Path.isAbsolute_join ne]
  have noNull' : '\x00' ∉ (Path.join path name.text).toList := by
    have absent : '\x00' ∉ front := fun mem => noNull (by
      rcases split with eq | ⟨eq, -⟩ <;> simp [eq, mem])
    simp [joined, absent, name.not_mem_null]
  have ne' : Path.join path name.text ≠ "" := fun eq => by
    rw [eq] at joined
    simp at joined
  rw [steps_eq] at follows
  by_cases long : (Path.join path name.text).utf8ByteSize < maxPathSize
  · have resolved' : t.resolve .inspect (Path.join path name.text) =
        .ok (.entry (loc ++ [name])) := by
      rw [resolve_eq_ok_iff, start_join, steps_join]
      exact ⟨⟨noNull', ne', long, start⟩,
        followLinks_followsOn maxLinks _ steps back loc name hback follows isDirectory₀ isDirectory⟩
    refine .inl ?_
    simp only [locate, resolved', isDirectory]
  · refine .inr ?_
    rw [locate, resolve, if_neg noNull', if_neg ne', if_pos (Nat.le_of_not_lt long)]

end FileTree

end FlutterMend
