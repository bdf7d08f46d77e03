import FlutterMend.Proofs.FileTree.Files
import FlutterMend.Proofs.Walk.Eligible

/-!
# Editing files behind a walk

While a walk goes on, regular files may be created, overwritten and removed in the directories that
it has listed, and existing files may be overwritten anywhere. Such edits change neither what a path
to a directory leads to nor a directory that is still to be listed, and every directory is listed
once. So the walk answers as if the tree had been left alone.
-/

namespace FlutterMend

open FileTree

/-- A regular file is created or removed in a listed directory, or overwritten anywhere. -/
inductive FileEdit (listed : List Location) (t : FileTree) : FileTree → Prop
  | create {dir : Location} {name : Name} (content : ByteArray) : dir ∈ listed →
      t.get? dir = some .directory → t.get? (dir ++ [name]) = none →
      FileEdit listed t (t.create dir name (.file content))
  | overwrite {loc : Location} {old : ByteArray} (content : ByteArray) :
      t.get? loc = some (.file old) → FileEdit listed t (t.setContent loc content)
  | remove {dir : Location} {name : Name} {content : ByteArray} : dir ∈ listed →
      t.get? (dir ++ [name]) = some (.file content) → FileEdit listed t (t.remove (dir ++ [name]))

/-- What an edit of a file does to the tree, which is something at one location only. -/
structure FileEdit.Effect (listed : List Location) (t u : FileTree) (loc : Location) : Prop where
  workingDirectory : u.workingDirectory = t.workingDirectory
  elsewhere : ∀ loc', loc' ≠ loc → u.get? loc' = t.get? loc'
  before : ∀ entry, t.get? loc = some entry → entry.kind = .file
  after : ∀ entry, u.get? loc = some entry → entry.kind = .file
  kind : (u.get? loc).map Entry.kind = (t.get? loc).map Entry.kind ∨
    ∃ dir ∈ listed, ∃ name, loc = dir ++ [name]

theorem FileEdit.exists_effect {listed : List Location} {t u : FileTree}
    (h : FileEdit listed t u) : ∃ loc, Effect listed t u loc := by
  cases h with
  | @create dir name content inside isDirectory free =>
    have get? := get?_create (.file content) isDirectory free
    refine ⟨dir ++ [name], ?_, ?_, ?_, ?_, .inr ⟨dir, inside, name, rfl⟩⟩
    · unfold FileTree.create
      split <;> rfl
    · intro loc ne
      rw [get?, if_neg ne]
    · simp [free]
    · simp [get?, Entry.kind]
  | @overwrite loc old content found =>
    have get? := get?_setContent content (by rw [found]; rfl)
    refine ⟨loc, ?_, ?_, ?_, ?_, .inl ?_⟩
    · unfold FileTree.setContent
      split <;> rfl
    · intro loc' ne
      rw [get?, if_neg ne]
    · simp [found, Entry.kind]
    · simp [get?, Entry.kind]
    · simp [get?, found, Entry.kind]
  | @remove dir name content inside found =>
    have get? := get?_remove t (List.append_ne_nil_of_right_ne_nil dir (List.cons_ne_nil name []))
    refine ⟨dir ++ [name], rfl, ?_, ?_, ?_, .inr ⟨dir, inside, name, rfl⟩⟩
    · intro loc ne
      rw [get?]
      split
      · next below =>
        -- There is nothing below a file.
        by_contra bound
        have isSome := Option.isSome_iff_ne_none.2 (Ne.symm bound)
        have isDirectory := get?_of_prefix isSome below ne.symm
        rw [found] at isDirectory
        cases isDirectory
      · rfl
    · simp [found, Entry.kind]
    · simp [get?]

theorem FileEdit.Effect.sameButFiles {listed : List Location} {t u : FileTree} {loc : Location}
    (h : Effect listed t u loc) : SameButFiles t u := by
  have same (entry : Entry) (noFile : entry.kind ≠ .file) (loc' : Location) :
      u.get? loc' = some entry ↔ t.get? loc' = some entry := by
    by_cases here : loc' = loc
    · subst here
      exact iff_of_false (noFile ∘ h.after entry) (noFile ∘ h.before entry)
    · rw [h.elsewhere loc' here]
  exact ⟨h.workingDirectory, same .directory nofun,
    fun loc' target => same (.link target) nofun loc'⟩

/-- Whether all edits among the moves are edits of files behind the walk. -/
def OpenWalk.Permits : OpenWalk → List Move → Prop
  | _, [] => True
  | s, .visit :: moves => s.visit.Permits moves
  | s, .edit change :: moves =>
    FileEdit s.listed s.tree (change s.tree) ∧ (s.step (.edit change)).Permits moves

theorem OpenWalk.permits_visits (s : OpenWalk) (visits : Nat) :
    s.Permits (List.replicate visits .visit) := by
  induction visits generalizing s with
  | zero => trivial
  | succ visits ih => exact ih s.visit

namespace FileTree

/-- The second tree is the first one with files edited, the listed directories apart without a file
more or less. -/
structure EditedBehind (t : FileTree) (listed : List Location) (u : FileTree) : Prop where
  sameButFiles : SameButFiles t u
  kind : ∀ dir, dir ∉ listed → ∀ name,
    (u.get? (dir ++ [name])).map Entry.kind = (t.get? (dir ++ [name])).map Entry.kind

/-- A directory whose entries keep their names and kinds is listed in the same way. -/
theorem children_eq {t u : FileTree} {dir : Location}
    (same : ∀ name, (u.get? (dir ++ [name])).map Entry.kind =
      (t.get? (dir ++ [name])).map Entry.kind) : u.children dir = t.children dir := by
  have nodup (v : FileTree) : (v.children dir).Nodup :=
    (v.children_pairwise_ne dir).imp fun ne eq => ne (congrArg Prod.fst eq)
  refine List.Perm.eq_of_pairwise (fun a b _ _ ab ba => ?_) (u.children_pairwise_lt dir)
    (t.children_pairwise_lt dir) ((List.perm_ext_iff_of_nodup (nodup u) (nodup t)).2 ?_)
  · exact absurd ba (Std.Asymm.asymm _ _ ab)
  · rintro ⟨name, kind⟩
    rw [mem_children_iff, mem_children_iff, same]

namespace EditedBehind

variable {t u v : FileTree} {listed : List Location}

theorem refl (t : FileTree) : EditedBehind t [] t := ⟨.refl t, fun _ _ _ => rfl⟩

theorem mono (h : EditedBehind t listed u) (more : List Location) :
    EditedBehind t (listed ++ more) u := by
  refine ⟨h.sameButFiles, fun dir notListed => h.kind dir fun mem => notListed ?_⟩
  exact List.mem_append_left _ mem

/-- Without a listed directory no file has come or gone. -/
theorem sameShape (h : EditedBehind t [] u) : SameShape t u := by
  refine ⟨h.sameButFiles.workingDirectory, fun loc => ?_⟩
  rcases List.eq_nil_or_concat loc with rfl | ⟨dir, name, rfl⟩
  · rfl
  · rw [List.concat_eq_append]
    have kind := h.kind dir List.not_mem_nil name
    have directory := h.sameButFiles.directory (dir ++ [name])
    have link := h.sameButFiles.link (dir ++ [name])
    cases found : t.get? (dir ++ [name]) with
    | none => simpa [found] using kind
    | some entry =>
      cases entry with
      | directory => rw [directory.2 found]
      | link target => rw [(link target).2 found]
      | file content =>
        rw [found] at kind
        obtain ⟨entry, found', isFile⟩ := Option.map_eq_some_iff.1 kind
        cases entry <;> cases isFile
        rw [found']
        rfl

theorem edit (h : EditedBehind t listed u) (edit : FileEdit listed u v) :
    EditedBehind t listed v := by
  obtain ⟨changed, effect⟩ := edit.exists_effect
  refine ⟨h.sameButFiles.trans effect.sameButFiles, fun dir notListed name => ?_⟩
  rw [← h.kind dir notListed]
  by_cases here : dir ++ [name] = changed
  · subst here
    exact effect.kind.resolve_right fun ⟨dir', inside, name', eq⟩ =>
      notListed ((List.append_inj' eq rfl).1 ▸ inside)
  · rw [effect.elsewhere _ here]

end EditedBehind

end FileTree

namespace Pending

variable {c : Config} {t u : FileTree} {root : Location} {entry : Pending}

/-- A directory that is still to be visited stays where it is. -/
theorem Stands.of_sameButFiles (h : SameButFiles t u) {below : Location}
    (stands : (found below .directory).Stands c t root) :
    (found below .directory).Stands c u root := by
  obtain ⟨above, name, rfl, located, found⟩ := stands
  obtain ⟨entry, found, isDirectory⟩ := Option.map_eq_some_iff.1 found
  cases entry <;> cases isDirectory
  refine ⟨above, name, rfl, h.locate located, ?_⟩
  rw [(h.directory _).2 found]
  rfl

end Pending

namespace Walk

section EditedBehind

variable {c : Config} {t u : FileTree} {root : Location} {listed : List Location}

/-- A directory that was not listed before is listed as it was at first. -/
theorem list_eq_of_editedBehind (edited : EditedBehind t listed u) {below : Location}
    (stands : (Pending.found below .directory).Stands c t root)
    (unlisted : root ++ below ∉ listed) :
    u.list (pathOf c.root below) = t.list (pathOf c.root below) := by
  have atFirst := stands.locate (fun leaf => leaf rfl)
  have now := (stands.of_sameButFiles edited.sameButFiles).locate (fun leaf => leaf rfl)
  simp only [Pending.below] at atFirst now
  rcases atFirst with located | failed
  · have listing : t.list (pathOf c.root below) = .ok (t.children (root ++ below)) :=
      list_eq_ok_iff.2 ⟨_, located, rfl⟩
    rw [listing, list_eq_ok_iff]
    exact ⟨_, edited.sameButFiles.locate located, children_eq (edited.kind _ unlisted)⟩
  · rcases now with located | failed'
    · have located' := edited.sameButFiles.symm.locate located
      rw [failed] at located'
      cases located'
    · simp only [FileTree.list, failed, failed']

/-- Visiting what is still to be visited comes to the same as it would in the tree at first. -/
theorem visit_eq_of_editedBehind (edited : EditedBehind t listed u) {entry : Pending}
    (stands : entry.Stands c t root) (unlisted : root ++ entry.below ∉ listed)
    (first : entry = .root → listed = []) : visit c u entry = visit c t entry := by
  cases entry with
  | root =>
    obtain rfl := first rfl
    exact visit_eq_of_sameShape edited.sameShape c .root
  | found below kind =>
    simp only [visit, inspect_eq_of_isDirectory (edited.sameButFiles.isDirectory _)]
    split
    · next isDirectory =>
      subst isDirectory
      unfold descend
      rw [list_eq_of_editedBehind edited stands unlisted]
    · rfl

end EditedBehind

end Walk

namespace Pending

variable {c : Config} {t u : FileTree} {root dir : Location} {entry : Pending}

theorem locate_of_lists? (lists : entry.lists? c u = some dir) :
    ¬entry.IsLeaf c u ∧
      u.locate .inspect (Walk.pathOf c.root entry.below) = .ok (dir, .directory) := by
  unfold lists? at lists
  split at lists
  · cases lists
  · cases lists
  · split at lists
    · next located =>
      cases lists
      exact ⟨Stands.not_leaf located, located⟩
    · cases lists
  · split at lists
    · next located =>
      cases lists
      exact ⟨fun leaf => leaf rfl, located⟩
    · cases lists

theorem isLeaf_iff_of_sameButFiles (same : SameButFiles t u) :
    entry.IsLeaf c u ↔ entry.IsLeaf c t := by
  unfold IsLeaf
  rw [same.isDirectory]

/-- What a visit lists is the directory that the entry stood for at first. -/
theorem Stands.eq_of_lists? (stands : entry.Stands c t root) (same : SameButFiles t u)
    (lists : entry.lists? c u = some dir) : dir = root ++ entry.below := by
  obtain ⟨notLeaf, located⟩ := locate_of_lists? lists
  rw [isLeaf_iff_of_sameButFiles same] at notLeaf
  exact stands.eq_of_locate notLeaf (same.symm.locate located)

end Pending

namespace OpenWalk

/-- Nothing in an open walk shows that files were edited behind it: it has found the first items of
the walk through the tree at first, and is to find the others. -/
structure Undisturbed (c : Config) (t : FileTree) (root : Location) (s : OpenWalk)
    (items : List (Except Fault String)) : Prop where
  config : s.walk.config = c
  answered : s.HasAnswered items
  edited : EditedBehind t s.listed s.tree
  stands : ∀ entry ∈ s.walk.pending, entry.Stands c t root
  pending : s.walk.pending.Pairwise fun entry later => entry.below.Precedes later.below
  unlisted : ∀ entry ∈ s.walk.pending, ∀ dir ∈ s.listed, ¬root ++ entry.below <+: dir
  first : .root ∈ s.walk.pending → s.listed = []
  rest : items ++ Walk.items t s.walk = Walk.items t (Walk.start c t)

section Undisturbed

variable {c : Config} {t : FileTree} {root : Location} {s : OpenWalk}
  {items : List (Except Fault String)}

theorem exists_undisturbed_start (c : Config) (t : FileTree) :
    ∃ root, Undisturbed c t root (start c t) [] := by
  have stands : ∃ root, ∀ entry ∈ (Walk.start c t).pending, entry.Stands c t root := by
    unfold Walk.start
    split
    · next isDirectory =>
      obtain ⟨root, located⟩ := isDirectory_iff.1 isDirectory
      exact ⟨root, List.forall_mem_singleton.2 located⟩
    · exact ⟨[], nofun⟩
  obtain ⟨root, stands⟩ := stands
  exact ⟨root, rfl, hasAnswered_start c t, .refl t, stands, (inOrder_start c t).pending,
    fun _ _ => nofun, fun _ => rfl, rfl⟩

theorem Undisturbed.edit (h : Undisturbed c t root s items) {change : FileTree → FileTree}
    (edit : FileEdit s.listed s.tree (change s.tree)) :
    Undisturbed c t root (s.step (.edit change)) items :=
  { h with edited := h.edited.edit edit }

/-- A visit finds and lists what it would in the tree at first, and no directory that has been
listed is left to be visited. -/
theorem Undisturbed.visit_pending (h : Undisturbed c t root s items) {entry : Pending}
    {later : List Pending} (pending : s.walk.pending = entry :: later) :
    Undisturbed c t root s.visit (items ++ (Walk.visit c t entry).item.toList) := by
  obtain ⟨stands, standsLater⟩ := List.forall_mem_cons.1 (pending ▸ h.stands)
  obtain ⟨unlisted, unlistedLater⟩ := List.forall_mem_cons.1 (pending ▸ h.unlisted)
  have same : Walk.visit s.walk.config s.tree entry = Walk.visit c t entry := by
    rw [h.config]
    refine Walk.visit_eq_of_editedBehind h.edited stands (fun mem => ?_) (fun eq => ?_)
    · exact unlisted _ mem (List.prefix_refl _)
    · subst eq
      exact h.first (pending ▸ List.mem_cons_self)
  have visits := Walk.visits_visit c t entry
  have notAbove := visits.not_prefix_of_pending (pending ▸ h.pending)
  have walk := congrArg OpenWalk.walk (visit_of_pending pending)
  have answered := h.answered.visit_pending pending
  rw [same] at walk answered
  have stepped : Walk.step t s.walk = some (Walk.visit c t entry, s.visit.walk) := by
    unfold Walk.step
    simp only [pending, walk, h.config]
  have listed := congrArg OpenWalk.listed (visit_of_pending pending)
  have newlyListed :
      ∀ dir ∈ (entry.lists? s.walk.config s.tree).toList, dir = root ++ entry.below := by
    intro dir mem
    rw [h.config] at mem
    exact stands.eq_of_lists? h.edited.sameButFiles (Option.mem_toList.1 mem)
  refine ⟨?_, answered, ?_, ?_, ?_, ?_, ?_, ?_⟩
  · rw [walk, h.config]
  · rw [visit_of_pending pending]
    exact h.edited.mono _
  · rw [walk]
    exact List.forall_mem_append.2 ⟨Walk.children_stand stands, standsLater⟩
  · rw [walk]
    exact visits.pairwise_pending (pending ▸ h.pending)
  · rw [walk, listed]
    intro e mem
    refine List.forall_mem_append.2 ⟨fun dir inside isPrefix => ?_, fun dir inside isPrefix => ?_⟩
    · rcases List.mem_append.1 mem with child | mem
      · obtain ⟨name, below⟩ := visits.exists_below e child
        rw [below, ← List.append_assoc] at isPrefix
        exact unlisted dir inside ((List.prefix_append _ _).trans isPrefix)
      · exact unlistedLater e mem dir inside isPrefix
    · obtain rfl := newlyListed dir inside
      exact notAbove e mem ((List.prefix_append_right_inj root).1 isPrefix)
  · rw [walk]
    exact fun mem => absurd List.nil_prefix (notAbove _ mem)
  · rw [List.append_assoc, ← Walk.items_of_step stepped, h.rest]

/-- An open walk is undisturbed by whatever is permitted next. -/
theorem Undisturbed.step (h : Undisturbed c t root s items) {move : Move} {moves : List Move}
    (permitted : s.Permits (move :: moves)) :
    (∃ items', Undisturbed c t root (s.step move) items') ∧ (s.step move).Permits moves := by
  cases move with
  | edit change => exact ⟨⟨items, h.edit permitted.1⟩, permitted.2⟩
  | visit =>
    refine ⟨?_, permitted⟩
    cases pending : s.walk.pending with
    | nil =>
      have answered := h.answered.visit_ended pending
      refine ⟨items, ?_⟩
      unfold OpenWalk.step
      rw [visit_of_ended pending] at answered ⊢
      exact { h with answered }
    | cons entry later => exact ⟨_, h.visit_pending pending⟩

theorem Undisturbed.run (h : Undisturbed c t root s items) {moves : List Move}
    (permitted : s.Permits moves) : ∃ items', Undisturbed c t root (s.run moves) items' := by
  induction moves generalizing s items with
  | nil => exact ⟨items, h⟩
  | cons move moves ih =>
    obtain ⟨⟨items', h'⟩, permitted'⟩ := h.step permitted
    exact ih h' permitted'

theorem Undisturbed.answer (h : Undisturbed c t root s items) :
    ∀ i < s.answers.length, s.answers[i]? = some (Walk.items t (Walk.start c t))[i]? := by
  obtain ⟨ends, answers, ended⟩ := h.answered
  intro i lt
  rw [← h.rest]
  by_cases isItem : i < items.length
  · grind
  · have isEnd : ends ≠ 0 := by
      simp only [answers, List.length_append, List.length_map, List.length_replicate] at lt
      omega
    have nothingLeft : Walk.items t s.walk = [] := Walk.items_of_ended (ended isEnd)
    grind

/-- Its next answer is the next item, or their end. -/
theorem Undisturbed.next (h : Undisturbed c t root s items) :
    ∃ visits, let later := s.run (List.replicate visits .visit)
      IsNext s later ∧
        later.answers = s.answers ++ [(Walk.items t (Walk.start c t))[s.answers.length]?] := by
  obtain ⟨visits, next⟩ := s.exists_visits_isNext
  obtain ⟨items', h'⟩ := h.run (s.permits_visits visits)
  have answer := h'.answer s.answers.length (by simp [next.answers])
  rw [next.answers, List.getElem?_concat_length] at answer
  exact ⟨visits, next, next.answers.trans (by rw [Option.some.inj answer])⟩

/-- It can be brought to any number of answers. -/
theorem Undisturbed.exists_le_length (h : Undisturbed c t root s items) (n : Nat) :
    ∃ visits, n ≤ (s.run (List.replicate visits .visit)).answers.length := by
  induction n with
  | zero => exact ⟨0, Nat.zero_le _⟩
  | succ n ih =>
    obtain ⟨visits, le⟩ := ih
    obtain ⟨items', h'⟩ := h.run (s.permits_visits visits)
    obtain ⟨more, -, answers⟩ := h'.next
    refine ⟨visits + more, ?_⟩
    rw [← List.replicate_append_replicate, run_append, answers, List.length_append]
    exact Nat.succ_le_succ le

/-- It can be brought to all answers. -/
theorem Undisturbed.exists_whole (h : Undisturbed c t root s items) :
    ∃ visits, (Walk.items t (Walk.start c t)).map some <+:
      (s.run (List.replicate visits .visit)).answers := by
  obtain ⟨visits, le⟩ := h.exists_le_length (Walk.items t (Walk.start c t)).length
  obtain ⟨items', h'⟩ := h.run (s.permits_visits visits)
  refine ⟨visits, List.prefix_iff_getElem?.2 fun i lt => ?_⟩
  have isItem : i < (Walk.items t (Walk.start c t)).length := by simpa using lt
  rw [h'.answer i (isItem.trans_le le), List.getElem_map, List.getElem?_eq_getElem isItem]

end Undisturbed

end OpenWalk

/-- A walk does not notice files that are created, overwritten or removed in directories that it has
listed, or overwritten anywhere: whenever such edits happen, it answers with just the items that it
would find in the tree at first, one after the other up to the last one, and then with their end. -/
theorem answers_undisturbed {c : Config} {t : FileTree} {moves : List Move}
    (permitted : (OpenWalk.start c t).Permits moves) :
    let items := Walk.items t (Walk.start c t)
    let s := (OpenWalk.start c t).run moves
    Walk.Yields t (Walk.start c t) items ∧
      (∀ i < s.answers.length, s.answers[i]? = some items[i]?) ∧
      (∃ visits, let later := s.run (List.replicate visits .visit)
        OpenWalk.IsNext s later ∧ later.answers = s.answers ++ [items[s.answers.length]?]) ∧
      ∃ visits, items.map some <+: (s.run (List.replicate visits .visit)).answers := by
  intro items s
  obtain ⟨root, h⟩ := OpenWalk.exists_undisturbed_start c t
  obtain ⟨found, h⟩ := h.run permitted
  exact ⟨Walk.yields_items t _, h.answer, h.next, h.exists_whole⟩

/-- A file is overwritten before its directory is listed, and removed afterwards, when the target of
a dangling link is created as well. -/
theorem answers_undisturbed_lib :
    let name (text : String) (valid : (Name.ofString? text).isSome) :=
      (Name.ofString? text).get valid
    let lib := [name "lib" (by decide)]
    let a := name "a.dart" (by decide)
    let b := name "b.dart" (by decide)
    let gone := name "gone" (by decide)
    let t := ((FileTree.empty.addAll [(lib, .directory)]).create lib a (.file .empty)).create lib b
      (.link "gone")
    let moves : List Move := [.edit fun t => t.setContent (lib ++ [a]) (encode ['a']), .visit,
      .edit fun t => t.remove (lib ++ [a]), .edit fun t => t.create lib gone (.file .empty), .visit]
    let items := Walk.items t (Walk.start {} t)
    let s := (OpenWalk.start {} t).run moves
    (OpenWalk.start {} t).Permits moves ∧ s.answers.length = 1 ∧
      items = [.ok "lib/a.dart", .ok "lib/b.dart"] ∧ Walk.Yields t (Walk.start {} t) items ∧
      (∀ i < s.answers.length, s.answers[i]? = some items[i]?) ∧
      (∃ visits, let later := s.run (List.replicate visits .visit)
        OpenWalk.IsNext s later ∧ later.answers = s.answers ++ [items[s.answers.length]?]) ∧
      ∃ visits, items.map some <+: (s.run (List.replicate visits .visit)).answers := by
  intro name lib a b gone t moves items s
  have permitted : (OpenWalk.start {} t).Permits moves := by
    refine ⟨.overwrite _ (?_ : _ = some (Entry.file .empty)),
      .remove ?_ (?_ : _ = some (Entry.file (encode ['a']))), .create _ ?_ ?_ ?_, trivial⟩
    all_goals decide +kernel
  exact ⟨permitted, by decide +kernel, by decide +kernel, answers_undisturbed permitted⟩

end FlutterMend
