import FlutterMend.Proofs.Walk.Order

/-!
# Walks in a changing tree

A walk may stay open while the tree is edited in any way, before any of its visits. What it finds
still stands in strictly ascending order: whatever becomes of the entries that it has yet to visit,
they are visited under the names that they had when their directory was listed.
-/

namespace FlutterMend

/-- What may happen while a walk is open. -/
inductive Move where
  | edit (change : FileTree → FileTree)
  | visit

/-- An open walk: the tree as it is now, what is left of the walk, its answers so far, and the
directories that it has listed. The answer that there is no further item is `none`. -/
structure OpenWalk where
  tree : FileTree
  walk : Walk
  answers : List (Option (Except Fault String)) := []
  listed : List Location := []

/-- The directory that is listed when an entry is visited, if one is. -/
def Pending.lists? (c : Config) (t : FileTree) (entry : Pending) : Option Location :=
  match entry with
  | .found _ .file | .found _ .link => none
  | .root | .found _ .directory =>
    match t.locate .inspect (Walk.pathOf c.root entry.below) with
    | .ok (loc, .directory) => some loc
    | _ => none

namespace OpenWalk

def start (c : Config) (t : FileTree) : OpenWalk := { tree := t, walk := Walk.start c t }

/-- Visits one entry. A walk that is over says so. -/
def visit (s : OpenWalk) : OpenWalk :=
  match s.walk.pending with
  | [] => { s with answers := s.answers ++ [none] }
  | entry :: rest =>
    let v := Walk.visit s.walk.config s.tree entry
    { s with
      walk := { s.walk with pending := v.children ++ rest }
      answers := s.answers ++ v.item.toList.map some
      listed := s.listed ++ (entry.lists? s.walk.config s.tree).toList }

def step (s : OpenWalk) : Move → OpenWalk
  | .edit change => { s with tree := change s.tree }
  | .visit => s.visit

def run (s : OpenWalk) (moves : List Move) : OpenWalk := moves.foldl step s

@[simp] theorem step_visit (s : OpenWalk) : s.step .visit = s.visit := rfl

@[simp] theorem run_nil (s : OpenWalk) : s.run [] = s := rfl

@[simp] theorem run_cons (s : OpenWalk) (move : Move) (moves : List Move) :
    s.run (move :: moves) = (s.step move).run moves := rfl

theorem run_append (s : OpenWalk) (moves later : List Move) :
    s.run (moves ++ later) = (s.run moves).run later := List.foldl_append

section Next

variable {s : OpenWalk}

theorem visit_of_ended (ended : s.walk.pending = []) :
    s.visit = { s with answers := s.answers ++ [none] } := by
  unfold visit
  rw [ended]

theorem visit_of_pending {entry : Pending} {rest : List Pending}
    (pending : s.walk.pending = entry :: rest) :
    s.visit =
      { tree := s.tree
        walk := { s.walk with pending := (Walk.visit s.walk.config s.tree entry).children ++ rest }
        answers := s.answers ++ (Walk.visit s.walk.config s.tree entry).item.toList.map some
        listed := s.listed ++ (entry.lists? s.walk.config s.tree).toList } := by
  unfold visit
  rw [pending]

theorem visit_of_step {v : Visit} {later : Walk} (stepped : s.walk.step s.tree = some (v, later)) :
    s.visit.tree = s.tree ∧ s.visit.walk = later ∧
      s.visit.answers = s.answers ++ v.item.toList.map some := by
  unfold Walk.step at stepped
  split at stepped
  · cases stepped
  · next entry rest pending =>
    cases stepped
    rw [visit_of_pending pending]
    exact ⟨rfl, rfl, rfl⟩

/-- What is left of an open walk once it was asked for the next item, in a tree that was left alone
meanwhile. -/
structure IsNext (s later : OpenWalk) : Prop where
  tree : later.tree = s.tree
  walk : later.walk = (s.walk.next s.tree).2.2
  answers : later.answers = s.answers ++ [(s.walk.next s.tree).1]

theorem exists_visits_nextWithin {steps : Nat} {s : OpenWalk}
    (enough : Walk.visitsLeft s.tree s.walk ≤ steps) :
    ∃ visits, let later := s.run (List.replicate visits .visit)
      later.tree = s.tree ∧ later.walk = (Walk.nextWithin s.tree steps s.walk).2.2 ∧
        later.answers = s.answers ++ [(Walk.nextWithin s.tree steps s.walk).1] := by
  induction steps generalizing s with
  | zero =>
    cases stepped : s.walk.step s.tree with
    | none =>
      have ended := visit_of_ended (Walk.step_eq_none_iff.1 stepped)
      exact ⟨1, by simp [ended, Walk.nextWithin]⟩
    | some found =>
      have := Walk.visitsLeft_lt_of_step stepped
      omega
  | succ steps ih =>
    cases stepped : s.walk.step s.tree with
    | none =>
      have ended := visit_of_ended (Walk.step_eq_none_iff.1 stepped)
      exact ⟨1, by simp [ended, Walk.nextWithin, stepped]⟩
    | some found =>
      obtain ⟨v, later⟩ := found
      obtain ⟨tree, walk, answers⟩ := visit_of_step stepped
      have fewer := Walk.visitsLeft_lt_of_step stepped
      unfold Walk.nextWithin
      simp only [stepped]
      cases item : v.item with
      | some item => exact ⟨1, tree, walk, by simpa [item] using answers⟩
      | none =>
        have enough' : Walk.visitsLeft s.visit.tree s.visit.walk ≤ steps := by
          rw [tree, walk]
          omega
        obtain ⟨visits, tree', walk', answers'⟩ := ih enough'
        rw [tree, walk] at walk' answers'
        refine ⟨visits + 1, tree'.trans tree, walk', answers'.trans ?_⟩
        simp [answers, item]

/-- Asking a walk for its next item amounts to a number of visits. -/
theorem exists_visits_isNext (s : OpenWalk) :
    ∃ visits, IsNext s (s.run (List.replicate visits .visit)) := by
  obtain ⟨visits, tree, walk, answers⟩ :=
    exists_visits_nextWithin (Walk.visitsLeft_le_budget s.tree s.walk)
  exact ⟨visits, tree, walk, answers⟩

end Next

/-- The answers of an open walk are some items, and after the end of the walk nothing but its
end. -/
def HasAnswered (s : OpenWalk) (items : List (Except Fault String)) : Prop :=
  ∃ ends, s.answers = items.map some ++ List.replicate ends none ∧
    (ends ≠ 0 → s.walk.pending = [])

section Answers

variable {s : OpenWalk} {items : List (Except Fault String)}

theorem hasAnswered_start (c : Config) (t : FileTree) : (start c t).HasAnswered [] :=
  ⟨0, rfl, fun ne => absurd rfl ne⟩

theorem HasAnswered.visit_ended (h : s.HasAnswered items) (ended : s.walk.pending = []) :
    s.visit.HasAnswered items := by
  obtain ⟨ends, answers, -⟩ := h
  rw [visit_of_ended ended]
  exact ⟨ends + 1, by simp [answers, List.replicate_succ'], fun _ => ended⟩

theorem HasAnswered.visit_pending (h : s.HasAnswered items) {entry : Pending} {rest : List Pending}
    (pending : s.walk.pending = entry :: rest) :
    s.visit.HasAnswered (items ++ (Walk.visit s.walk.config s.tree entry).item.toList) := by
  obtain ⟨ends, answers, ended⟩ := h
  have noEnds : ends = 0 := by
    by_contra ne
    rw [ended ne] at pending
    cases pending
  subst noEnds
  rw [visit_of_pending pending]
  exact ⟨0, by simp [answers], fun ne => absurd rfl ne⟩

end Answers

/-- The paths among a list of items. -/
def paths (items : List (Except Fault String)) : List String := items.filterMap Except.toOption

/-- An open walk has found files in strictly ascending order, and whatever it may still find comes
after all of them. -/
structure InOrder (c : Config) (s : OpenWalk) (items : List (Except Fault String))
    (belows : List Location) : Prop where
  config : s.walk.config = c
  answered : s.HasAnswered items
  paths_eq : paths items = belows.map (Walk.pathOf c.root)
  ascending : belows.Pairwise (· < ·)
  pending : s.walk.pending.Pairwise fun entry later => entry.below.Precedes later.below
  ahead : ∀ below ∈ belows, ∀ entry ∈ s.walk.pending, ∀ rest, below < entry.below ++ rest
  named : ∀ below ∈ belows, ∃ name : Name,
    Path.fileName (Walk.pathOf c.root below) = name.text ∧ c.accepts name.text = true

section InOrder

variable {c : Config} {s : OpenWalk} {items : List (Except Fault String)} {belows : List Location}

theorem inOrder_start (c : Config) (t : FileTree) : InOrder c (start c t) [] [] := by
  refine ⟨rfl, hasAnswered_start c t, rfl, .nil, ?_, nofun, nofun⟩
  unfold start Walk.start
  split <;> simp

/-- What a visit finds, and what it leaves to be visited, stands in the place of its entry. -/
theorem InOrder.visit_pending (h : InOrder c s items belows) {entry : Pending}
    {rest : List Pending} (pending : s.walk.pending = entry :: rest) :
    ∃ items' belows', InOrder c s.visit items' belows' := by
  have visits := Walk.visits_visit c s.tree entry
  have answered := h.answered.visit_pending pending
  have walk := congrArg OpenWalk.walk (visit_of_pending pending)
  rw [h.config] at answered walk
  have config : s.visit.walk.config = c := by rw [walk, h.config]
  have ordered := visits.pairwise_pending (pending ▸ h.pending)
  have ordered' : s.visit.walk.pending.Pairwise fun e e' => e.below.Precedes e'.below := by
    rwa [walk]
  have ahead : ∀ below ∈ belows, ∀ e ∈ s.visit.walk.pending, ∀ x, below < e.below ++ x := by
    intro below inside e mem x
    rw [walk] at mem
    rcases List.mem_append.1 mem with child | later
    · obtain ⟨name, eq⟩ := visits.exists_below e child
      rw [eq, List.append_assoc]
      exact h.ahead below inside entry (pending ▸ List.mem_cons_self) _
    · exact h.ahead below inside e (pending ▸ List.mem_cons_of_mem _ later) x
  have nothing (none : paths (Walk.visit c s.tree entry).item.toList = []) :
      InOrder c s.visit (items ++ (Walk.visit c s.tree entry).item.toList) belows := by
    refine ⟨config, answered, ?_, h.ascending, ordered', ahead, h.named⟩
    unfold paths at none ⊢
    rw [List.filterMap_append, none, List.append_nil]
    exact h.paths_eq
  cases visits with
  | failed cause item children => exact ⟨_, _, nothing (by simp [item, paths, Except.toOption])⟩
  | listed loc located item children => exact ⟨_, _, nothing (by simp [item, paths])⟩
  | passed leaf item children => exact ⟨_, _, nothing (by simp [item, paths])⟩
  | found name leaf item named accepted children =>
    refine ⟨_, belows ++ [entry.below], config, answered, ?_, ?_, ordered', ?_, ?_⟩
    · simp [item, paths, Except.toOption, ← h.paths_eq]
    · refine List.pairwise_append.2 ⟨h.ascending, List.pairwise_singleton _ _, ?_⟩
      intro below inside last mem
      obtain rfl := List.mem_singleton.1 mem
      simpa using h.ahead below inside entry (pending ▸ List.mem_cons_self) []
    · refine List.forall_mem_append.2 ⟨ahead, ?_⟩
      intro below inside e mem x
      obtain rfl := List.mem_singleton.1 inside
      rw [walk, children, List.nil_append] at mem
      have precedes := (List.pairwise_cons.1 (pending ▸ h.pending)).1 e mem
      simpa using (precedes.append [] x).lt
    · refine List.forall_mem_append.2 ⟨h.named, ?_⟩
      intro below inside
      obtain rfl := List.mem_singleton.1 inside
      exact ⟨name, named, accepted⟩

theorem InOrder.nodup (h : InOrder c s items belows) : belows.Nodup := by
  refine h.ascending.imp ?_
  rintro below _ lt rfl
  exact List.lt_irrefl below lt

theorem InOrder.step (h : InOrder c s items belows) (move : Move) :
    ∃ items' belows', InOrder c (s.step move) items' belows' := by
  cases move with
  | edit change =>
    exact ⟨items, belows, { h with config := h.config }⟩
  | visit =>
    cases pending : s.walk.pending with
    | nil =>
      have answered := h.answered.visit_ended pending
      refine ⟨items, belows, ?_⟩
      unfold OpenWalk.step
      rw [visit_of_ended pending] at answered ⊢
      exact { h with answered }
    | cons entry rest => exact h.visit_pending pending

theorem InOrder.run (h : InOrder c s items belows) (moves : List Move) :
    ∃ items' belows', InOrder c (s.run moves) items' belows' := by
  induction moves generalizing s items belows with
  | nil => exact ⟨items, belows, h⟩
  | cons move moves ih =>
    obtain ⟨items', belows', h'⟩ := h.step move
    exact ih h'

end InOrder

end OpenWalk

/-- Whatever is done to the tree while a walk is open, and whenever: it finds paths in strictly
ascending order of the names below the root, no path twice, and only paths whose last name has the
extension, and once it has come to its end it stays there. Asking it for the next item is a number
of visits in a row. -/
theorem answers_ascending (c : Config) (t : FileTree) (moves : List Move) :
    let s := (OpenWalk.start c t).run moves
    (∃ items ends, s.answers = items.map some ++ List.replicate ends none ∧
      (∃ belows : List Location, OpenWalk.paths items = belows.map (Walk.pathOf c.root) ∧
        belows.Pairwise Location.Before) ∧
      (OpenWalk.paths items).Nodup ∧
      ∀ path ∈ OpenWalk.paths items, ∃ name : Name,
        Path.fileName path = name.text ∧ ("." ++ c.extension).toList <:+ name.text.toList) ∧
    ∃ visits, OpenWalk.IsNext s (s.run (List.replicate visits .visit)) := by
  intro s
  obtain ⟨items, belows, h⟩ := (OpenWalk.inOrder_start c t).run moves
  obtain ⟨ends, answers, -⟩ := h.answered
  refine ⟨⟨items, ends, answers, ⟨belows, h.paths_eq, h.ascending.imp Location.before_of_lt⟩,
    ?_, ?_⟩, s.exists_visits_isNext⟩
  · rw [h.paths_eq]
    exact h.nodup.map (Walk.pathOf_injective c.root)
  · intro path mem
    rw [h.paths_eq] at mem
    obtain ⟨below, inside, rfl⟩ := List.mem_map.1 mem
    obtain ⟨name, named, accepted⟩ := h.named below inside
    exact ⟨name, named, Config.accepts_iff.1 accepted⟩

end FlutterMend
