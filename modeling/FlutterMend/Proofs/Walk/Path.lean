import FlutterMend.Proofs.FileTree.Leads
import FlutterMend.Proofs.Walk

/-!
# Paths below a root

The path of an entry below a root is the root with the names on the way appended to it, each after a
slash. Different entries have different paths, and the last name on a path is the name of its entry.
-/

namespace FlutterMend

namespace Path

/-- A path without the slash at its end, if it has one. -/
def stem (path : String) : Text :=
  if path.toList.getLast? = some '/' then path.toList.dropLast else path.toList

theorem toList_eq_stem (path : String) :
    path.toList = stem path ∨ path.toList = stem path ++ ['/'] := by
  unfold stem
  split
  · next slash =>
    obtain ⟨front, eq⟩ := List.getLast?_eq_some_iff.1 slash
    right
    simp [eq]
  · exact .inl rfl

theorem toList_join {dir : String} (ne : dir ≠ "") (name : String) :
    (join dir name).toList = stem dir ++ '/' :: name.toList := by
  obtain ⟨front, joined, split⟩ := exists_toList_join ne name
  have front_eq : stem dir = front := by
    unfold stem
    rcases split with eq | ⟨eq, s, c, rfl, noSlash⟩
    · simp [eq]
    · simp [eq, noSlash]
  rw [joined, front_eq]

theorem join_empty (name : String) : join "" name = name := String.empty_append

theorem stem_join (dir : String) (name : Name) :
    stem (join dir name.text) = (join dir name.text).toList := by
  have noSlash : (join dir name.text).toList.getLast? ≠ some '/' := by
    intro slash
    have last : name.text.toList.getLast? = some '/' := by
      by_cases ne : dir = ""
      · subst ne
        rwa [join_empty] at slash
      · rwa [toList_join ne, List.getLast?_append_of_ne_nil _ (List.cons_ne_nil _ _),
          List.getLast?_cons_of_ne_nil (by simpa using name.ne_empty)] at slash
    exact name.not_mem_slash (List.mem_of_getLast? last)
  unfold stem
  rw [if_neg noSlash]

theorem join_ne_empty (dir : String) (name : Name) : join dir name.text ≠ "" := by
  intro eq
  by_cases ne : dir = ""
  · subst ne
    exact name.ne_empty ((join_empty _).symm.trans eq)
  · have := toList_join ne name.text
    simp [eq] at this

end Path

namespace Walk

variable {root : String} {below : Location}

/-- The segments of a root that paths below it begin with. -/
def rootSegments (root : String) : List Text :=
  if root = "" then [] else Text.pieces '/' (Path.stem root)

theorem segments_join (dir : String) (name : Name) :
    Path.segments (Path.join dir name.text) = rootSegments dir ++ [name.text.toList] := by
  unfold rootSegments
  split
  · next empty =>
    subst empty
    rw [Path.join_empty]
    exact Text.pieces_of_not_mem name.not_mem_slash
  · next ne =>
    unfold Path.segments
    rw [Path.toList_join ne, Text.pieces_append_separator,
      Text.pieces_of_not_mem name.not_mem_slash]

theorem rootSegments_join (dir : String) (name : Name) :
    rootSegments (Path.join dir name.text) = Path.segments (Path.join dir name.text) := by
  unfold rootSegments
  rw [if_neg (Path.join_ne_empty dir name), Path.stem_join]
  rfl

/-- Below a root the segments of a path are the names on the way. -/
theorem segments_pathOf (inside : below ≠ []) : Path.segments (pathOf root below) =
    rootSegments root ++ below.map fun name => name.text.toList := by
  induction below using List.reverseRecOn with
  | nil => exact absurd rfl inside
  | append_singleton above name ih =>
    rw [pathOf_append_singleton, segments_join, List.map_append]
    rcases List.eq_nil_or_concat above with rfl | ⟨front, last, eq⟩
    · rfl
    · have further : above ≠ [] := by simp [eq]
      have whole : rootSegments (pathOf root above) = Path.segments (pathOf root above) := by
        rw [eq, List.concat_eq_append, pathOf_append_singleton]
        exact rootSegments_join _ last
      rw [whole, ih further, List.append_assoc]
      rfl

theorem pathOf_ne_empty (ne : root ≠ "") (below : Location) : pathOf root below ≠ "" := by
  rcases List.eq_nil_or_concat below with rfl | ⟨above, name, eq⟩
  · exact ne
  · rw [eq, List.concat_eq_append, pathOf_append_singleton]
    exact Path.join_ne_empty _ name

theorem stem_pathOf (ne : root ≠ "") (below : Location) : Path.stem (pathOf root below) =
    Path.stem root ++ below.flatMap fun name => '/' :: name.text.toList := by
  induction below using List.reverseRecOn with
  | nil => simp [pathOf]
  | append_singleton above name ih =>
    rw [pathOf_append_singleton, Path.stem_join, Path.toList_join (pathOf_ne_empty ne above), ih]
    simp

/-- A path below a root, spelled out. -/
theorem toList_pathOf (ne : root ≠ "") (inside : below ≠ []) : (pathOf root below).toList =
    Path.stem root ++ below.flatMap fun name => '/' :: name.text.toList := by
  rw [← stem_pathOf ne]
  rcases List.eq_nil_or_concat below with rfl | ⟨above, name, eq⟩
  · exact absurd rfl inside
  · rw [eq, List.concat_eq_append, pathOf_append_singleton, Path.stem_join]

theorem fileName_pathOf (root : String) (above : Location) (name : Name) :
    Path.fileName (pathOf root (above ++ [name])) = name.text := by
  apply Path.fileName_of_segments
  rw [segments_pathOf (by simp), List.map_append, ← List.append_assoc]
  rfl

theorem pathOf_ne_root (root : String) (inside : below ≠ []) : pathOf root below ≠ root := by
  intro eq
  have segments_eq := @segments_pathOf root below inside
  rw [eq] at segments_eq
  unfold Path.segments rootSegments at segments_eq
  -- What comes after a slash at the end of the root is empty, and no name is.
  obtain ⟨name, rest, rfl⟩ := List.exists_cons_of_ne_nil inside
  have filled : [] ≠ name.text.toList := by
    intro empty
    exact name.ne_empty (String.toList_eq_nil_iff.1 empty.symm)
  split at segments_eq
  · next empty =>
    subst empty
    exact filled (List.cons.inj segments_eq).1
  · rcases Path.toList_eq_stem root with plain | slash
    · rw [plain, List.self_eq_append_right] at segments_eq
      cases segments_eq
    · rw [slash, Text.pieces_append_separator, List.append_cancel_left_eq] at segments_eq
      exact filled (List.cons.inj segments_eq).1

theorem pathOf_injective (root : String) : Function.Injective (pathOf root) := by
  intro below below' eq
  by_cases top : below = []
  · subst top
    by_contra inside
    exact pathOf_ne_root root (Ne.symm inside) eq.symm
  · by_cases top' : below' = []
    · subst top'
      exact absurd eq (pathOf_ne_root root top)
    · have same := congrArg Path.segments eq
      rw [segments_pathOf top, segments_pathOf top', List.append_cancel_left_eq] at same
      refine List.map_injective_iff.2 (fun a b h => ?_) same
      exact Name.ext (String.toList_inj.1 h)

end Walk

end FlutterMend
