import FlutterMend.Proofs.Walk.Path

/-!
# The order of a walk

A visit either fails, or lists a directory, or comes to an entry with nothing below it, and only in
the last case it may find a file. The entries still to be visited always stand in the order of their
names, none of them below another one, so whatever is found below an earlier entry comes before
whatever is found below a later one.
-/

namespace FlutterMend

/-- The order of locations goes by their names, one after the other, and that of names by the bytes
of their texts. -/
def Location.Before (a b : Location) : Prop :=
  a.map (fun name => name.text.toUTF8.data.toList) < b.map fun name => name.text.toUTF8.data.toList

theorem Location.before_of_lt {a b : Location} (lt : a < b) : a.Before b := by
  change List.Lex (· < ·) a b at lt
  induction lt with
  | nil => exact .nil
  | rel lt => exact .rel lt
  | cons _ ih => exact .cons ih

/-- Two locations part ways at some directory, the first one with a smaller name. -/
def Location.Precedes (a b : Location) : Prop :=
  ∃ (dir : Location) (m n : Name) (x y : Location), m < n ∧ a = dir ++ m :: x ∧ b = dir ++ n :: y

namespace Location.Precedes

variable {a b : Location}

theorem siblings (dir : Location) {m n : Name} (lt : m < n) :
    Precedes (dir ++ [m]) (dir ++ [n]) :=
  ⟨dir, m, n, [], [], lt, rfl, rfl⟩

theorem append (h : Precedes a b) (x y : Location) : Precedes (a ++ x) (b ++ y) := by
  obtain ⟨dir, m, n, a', b', lt, rfl, rfl⟩ := h
  exact ⟨dir, m, n, a' ++ x, b' ++ y, lt, by simp, by simp⟩

theorem lt (h : Precedes a b) : a < b := by
  obtain ⟨dir, m, n, x, y, lt, rfl, rfl⟩ := h
  exact List.append_left_lt (List.Lex.rel lt)

theorem not_prefix_of (h : Precedes a b) : ¬b <+: a := by
  rintro ⟨rest, rfl⟩
  obtain ⟨dir, m, n, x, y, lt, eq, rfl⟩ := h
  rw [List.append_assoc, List.append_cancel_left_eq] at eq
  cases eq
  exact Std.Irrefl.irrefl _ lt

end Location.Precedes

namespace FileTree

theorem name_lt_of_append_lt {dir : Location} {m n : Name} (h : dir ++ [m] < dir ++ [n]) :
    m < n := by
  induction dir with
  | nil =>
    cases h with
    | rel lt => exact lt
    | cons lt => cases lt
  | cons name dir ih =>
    cases h with
    | rel lt => exact absurd lt (Std.Irrefl.irrefl _)
    | cons lt => exact ih lt

/-- The children of a directory stand in the order of their names. -/
theorem children_pairwise_lt (t : FileTree) (dir : Location) :
    (t.children dir).Pairwise fun a b => a.1 < b.1 := by
  rw [children, List.pairwise_filterMap]
  refine t.table.sorted.imp fun {e e'} lt a ha b hb => ?_
  obtain ⟨isChild, -⟩ := eq_append_of_child ha
  obtain ⟨isChild', -⟩ := eq_append_of_child hb
  rw [isChild, isChild'] at lt
  exact name_lt_of_append_lt lt

end FileTree

namespace Config

theorem accepts_iff {c : Config} {name : String} :
    c.accepts name = true ↔ ("." ++ c.extension).toList <:+ name.toList :=
  List.isSuffixOf_iff_suffix

theorem accepts_empty (c : Config) : c.accepts "" = false := by
  rw [← Bool.not_eq_true, accepts_iff]
  simp

end Config

/-- The names on the way from the root to an entry. -/
@[simp] def Pending.below : Pending → Location
  | .root => []
  | .found below _ => below

/-- Whether there is nothing to list at an entry when it is visited. -/
def Pending.IsLeaf (c : Config) (t : FileTree) : Pending → Prop
  | .root => t.isDirectory c.root = false
  | .found _ kind => kind ≠ .directory

namespace Walk

open FileTree

/-- What a visit may come to. -/
inductive Visits (c : Config) (t : FileTree) (entry : Pending) (v : Visit) : Prop
  | failed (cause : FileError) :
      v.item = some (.error (.walk c.root (pathOf c.root entry.below) cause)) →
      v.children = [] → Visits c t entry v
  | listed (loc : Location) :
      t.locate .inspect (pathOf c.root entry.below) = .ok (loc, .directory) → v.item = none →
      v.children =
        (t.children loc).map (fun (name, kind) => .found (entry.below ++ [name]) kind) →
      Visits c t entry v
  | found (name : Name) : entry.IsLeaf c t →
      v.item = some (.ok (pathOf c.root entry.below)) →
      Path.fileName (pathOf c.root entry.below) = name.text → c.accepts name.text = true →
      v.children = [] → Visits c t entry v
  | passed : entry.IsLeaf c t → v.item = none → v.children = [] → Visits c t entry v

section Visits

variable {c : Config} {t : FileTree}

theorem inspect_directory (c : Config) (t : FileTree) (path name : String) :
    (inspect c t path name .directory).item = none := by
  unfold inspect isFile
  split <;> rfl

theorem visits_inspect {entry : Pending} {name : Name} (kind : Entry.Kind)
    (leaf : entry.IsLeaf c t) (named : Path.fileName (pathOf c.root entry.below) = name.text) :
    Visits c t entry (inspect c t (pathOf c.root entry.below) name.text kind) := by
  unfold inspect
  split
  · next accepted =>
    split
    · exact .found name leaf rfl named accepted rfl
    · exact .passed leaf rfl rfl
  · exact .passed leaf rfl rfl

theorem visits_descend {entry : Pending} {v : Visit} (noItem : v.item = none)
    (noChildren : v.children = []) :
    Visits c t entry (descend c t (pathOf c.root entry.below) entry.below v) := by
  unfold descend
  split
  · next e failed => exact .failed e rfl noChildren
  · next names listed =>
    obtain ⟨loc, located, rfl⟩ := list_eq_ok_iff.1 listed
    exact .listed loc located noItem rfl

/-- The root itself is found only if it is no directory any more when it is visited. -/
theorem visits_visitRoot (c : Config) (t : FileTree) : Visits c t .root (visitRoot c t) := by
  unfold visitRoot
  split
  · next e failed => exact .failed e rfl rfl
  · next kind found =>
    split
    · next e failed => exact .failed e rfl rfl
    · next kindBehind behind =>
      split
      · next isDirectory =>
        subst isDirectory
        have noFile : isFile t c.root kind = false := by
          cases kind with
          | file =>
            have same := kindOf_inspect_of_inspectLink found nofun
            rw [behind] at same
            cases same
          | directory => rfl
          | link =>
            simpa [isFile] using isDirectory_iff.2 (kindOf_eq_directory_iff.1 behind)
        refine @visits_descend c t .root _ ?_ (children_inspect ..)
        unfold inspect
        rw [noFile]
        split <;> rfl
      · next notDirectory =>
        obtain ⟨name, named⟩ := exists_fileName_of_kindOf behind notDirectory
        have leaf : Pending.root.IsLeaf c t := by
          refine Bool.eq_false_iff.2 fun isDirectory => notDirectory ?_
          have same := kindOf_eq_directory_iff.2 (isDirectory_iff.1 isDirectory)
          exact Except.ok.inj (behind.symm.trans same)
        have visits := visits_inspect kind leaf named
        rwa [← named] at visits

/-- Every visit comes to one of these. -/
theorem visits_visit (c : Config) (t : FileTree) (entry : Pending) :
    Visits c t entry (visit c t entry) := by
  cases entry with
  | root => exact visits_visitRoot c t
  | found below kind =>
    rw [visit]
    split
    · next isDirectory =>
      subst isDirectory
      exact @visits_descend c t (.found below .directory) _ (inspect_directory ..)
        (children_inspect ..)
    · next leaf =>
      rcases List.eq_nil_or_concat below with rfl | ⟨above, name, eq⟩
      · refine .passed leaf ?_ (children_inspect ..)
        simp [inspect, Config.accepts_empty]
      · rw [List.concat_eq_append] at eq
        subst eq
        rw [List.getLast?_concat]
        exact @visits_inspect c t (.found (above ++ [name]) kind) name kind leaf
          (fileName_pathOf c.root above name)

theorem Visits.exists_below {entry : Pending} {v : Visit} (h : Visits c t entry v) :
    ∀ child ∈ v.children, ∃ name, child.below = entry.below ++ [name] := by
  intro child mem
  cases h with
  | listed loc located noItem children =>
    rw [children] at mem
    obtain ⟨⟨name, kind⟩, -, rfl⟩ := List.mem_map.1 mem
    exact ⟨name, rfl⟩
  | failed cause item children | found name leaf item named accepted children
  | passed leaf item children =>
    rw [children] at mem
    cases mem

/-- A visit leaves the entries still to be visited in the order of their names. -/
theorem Visits.pairwise_pending {entry : Pending} {rest : List Pending} {v : Visit}
    (h : Visits c t entry v)
    (ordered : (entry :: rest).Pairwise fun e e' => e.below.Precedes e'.below) :
    (v.children ++ rest).Pairwise fun e e' => e.below.Precedes e'.below := by
  obtain ⟨first, ordered⟩ := List.pairwise_cons.1 ordered
  refine List.pairwise_append.2 ⟨?_, ordered, fun child mem later inside => ?_⟩
  · cases h with
    | listed loc located noItem children =>
      rw [children, List.pairwise_map]
      exact (t.children_pairwise_lt loc).imp fun lt => Location.Precedes.siblings _ lt
    | failed cause item children | found name leaf item named accepted children
    | passed leaf item children =>
      rw [children]
      exact .nil
  · obtain ⟨name, below⟩ := h.exists_below child mem
    rw [below]
    simpa using (first later inside).append [name] []

/-- What a visit leaves to be visited is neither its entry nor above it. -/
theorem Visits.not_prefix_of_pending {entry : Pending} {rest : List Pending} {v : Visit}
    (h : Visits c t entry v)
    (ordered : (entry :: rest).Pairwise fun e e' => e.below.Precedes e'.below) :
    ∀ later ∈ v.children ++ rest, ¬later.below <+: entry.below := by
  refine List.forall_mem_append.2 ⟨fun child mem isPrefix => ?_, fun later mem => ?_⟩
  · obtain ⟨name, below⟩ := h.exists_below child mem
    have := isPrefix.length_le
    grind
  · exact ((List.pairwise_cons.1 ordered).1 later mem).not_prefix_of

end Visits

end Walk

end FlutterMend
