import FlutterMend.Proofs.Course
import FlutterMend.Proofs.DryRun
import FlutterMend.SampleWidget

/-!
# Repeated runs

A run that has ended well can be repeated, and every further run reads the same files. It changes
none but those that the run before it has changed. A file that is fixed has no opacity call any
more, and only half of its longest chain of base calls is left, so after as many runs as this length
has binary digits there is nothing left to change.
-/

namespace FlutterMend

open FileTree

section Text

variable {s : Text} {n : Nat}

theorem LongestChain.halve (h : LongestChain s n) : LongestChain (fixText s) (n / 2) := by
  simpa [fixText, Rule.defaults] using Revision.longestChain_text Rule.defaults h

theorem not_hasCall_fixText (s : Text) : ¬HasCall (fixText s) := by
  simp [fixText, Revision.hasCall_text_iff, Rule.defaults]

theorem LongestChain.fixText_eq_self (h : LongestChain s 0) (noCall : ¬HasCall s) :
    fixText s = s := by
  have opacity : Rule.opacity.revise s = s := (h.revise_eq_self_iff .opacity).2 noCall
  have superKey : Rule.superKey.revise s = s := (h.revise_eq_self_iff .superKey).2 rfl
  simp [fixText, Revision.text_ofRules, Rule.defaults, opacity, superKey]

/-- Nothing is left to fix after one round for the calls, and one for every binary digit of the
length of the longest chain. -/
theorem LongestChain.fixText_iterate_succ (h : LongestChain s n) {k : Nat}
    (le : max 1 n.size ≤ k) : fixText^[k + 1] s = fixText^[k] s := by
  obtain ⟨j, rfl⟩ := Nat.exists_eq_add_of_le' (Nat.le_trans (Nat.le_max_left _ _) le)
  have short : n < 2 ^ (j + 1) := Nat.size_le.1 (Nat.le_trans (Nat.le_max_right _ _) le)
  have none := h.iterate LongestChain.halve (j + 1)
  rw [Nat.div_eq_of_lt short] at none
  rw [Function.iterate_succ_apply' _ (j + 1)]
  apply none.fixText_eq_self
  rw [Function.iterate_succ_apply']
  exact not_hasCall_fixText _

/-- One round is enough for a widget with both deprecated usages, and one without them is left
alone. -/
example : fixText SampleWidget.fixable.toList = SampleWidget.fixed.toList ∧
    fixText SampleWidget.clean.toList = SampleWidget.clean.toList := by
  simp only [SampleWidget.fixable, SampleWidget.fixed, SampleWidget.clean, toList_unlines]
  decide +kernel

theorem fixText_iterate_of_le {k m : Nat} (same : fixText^[k + 1] s = fixText^[k] s) (le : k ≤ m) :
    fixText^[m + 1] s = fixText^[m] s := by
  obtain ⟨j, rfl⟩ := Nat.exists_eq_add_of_le' le
  rw [Function.iterate_succ_apply'] at same ⊢
  rw [Function.iterate_add_apply, Function.iterate_fixed same, same]

end Text

/-- A file that one of the items leads to has a chain of so many base calls. -/
def HasChainIn (t : FileTree) (items : List (Except Fault String)) (length : Nat) : Prop :=
  ∃ path s, .ok path ∈ items ∧ t.readText path = .ok s ∧ HasChain s length

theorem hasChainIn_cons_iff {t : FileTree} {item : Except Fault String}
    {items : List (Except Fault String)} {n : Nat} :
    HasChainIn t (item :: items) n ↔ HasChainIn t [item] n ∨ HasChainIn t items n := by
  simp only [HasChainIn, List.mem_cons, List.not_mem_nil, or_false, or_and_right, exists_or]

theorem exists_longest_chainIn_singleton (t : FileTree) (item : Except Fault String) :
    ∃ longest, IsGreatest {n | n = 0 ∨ HasChainIn t [item] n} longest := by
  by_cases readable : ∃ path s, item = .ok path ∧ t.readText path = .ok s
  · obtain ⟨path, s, rfl, read⟩ := readable
    have same (n : Nat) : HasChainIn t [.ok path] n ↔ HasChain s n := by
      simp [HasChainIn, read]
    simp only [same]
    exact exists_longestChain s
  · refine ⟨0, .inl rfl, ?_⟩
    rintro n (rfl | ⟨path, s, mem, read, -⟩)
    · exact Nat.le_refl 0
    · exact absurd ⟨path, s, (List.mem_singleton.1 mem).symm, read⟩ readable

theorem exists_longest_chainIn (t : FileTree) (items : List (Except Fault String)) :
    ∃ longest, IsGreatest {n | n = 0 ∨ HasChainIn t items n} longest := by
  induction items with
  | nil => exact ⟨0, .inl rfl, by simp [HasChainIn, upperBounds]⟩
  | cons item items ih =>
    obtain ⟨first, isFirst⟩ := exists_longest_chainIn_singleton t item
    obtain ⟨later, isLater⟩ := ih
    refine ⟨max first later, ?_⟩
    have split : {n | n = 0 ∨ HasChainIn t (item :: items) n} =
        {n | n = 0 ∨ HasChainIn t [item] n} ∪ {n | n = 0 ∨ HasChainIn t items n} := by
      ext n
      change n = 0 ∨ HasChainIn t (item :: items) n ↔ _
      rw [hasChainIn_cons_iff, or_or_distrib_left]
      rfl
    rw [split]
    exact isFirst.union isLater

namespace Run

section Items

variable {t u u' : FileTree} {n n' : Location → Nat} {report report' : Report}

theorem fixFile_tree_of_false {rules : List Rule} {dryRun : Bool} {path : String}
    (h : (fixFile rules dryRun t path).result = .ok false) :
    (fixFile rules dryRun t path).tree = t := by
  rw [fixFile] at h ⊢
  split at h
  · cases h
  · split at h
    · rfl
    · split at h <;> cases h

/-- If nothing new is reported, then nothing was written. -/
theorem fixItems_report {rules : List Rule} {dryRun : Bool} {items : List (Except Fault String)}
    (done : (fixItems rules dryRun t report items).1 = .ok report') :
    report.modified <+: report'.modified ∧
      (report'.modified = report.modified → (fixItems rules dryRun t report items).2 = t) := by
  induction items generalizing t report with
  | nil =>
    cases done
    exact ⟨List.prefix_refl _, fun _ => rfl⟩
  | cons item items ih =>
    match item with
    | .error fault => cases done
    | .ok path =>
      rw [fixItems] at done ⊢
      cases result : (fixFile rules dryRun t path).result with
      | error fault =>
        rw [result] at done
        cases done
      | ok changed =>
        rw [result] at done
        obtain ⟨grows, unwritten⟩ := ih done
        cases changed with
        | false => exact ⟨grows, fun same => (unwritten same).trans (fixFile_tree_of_false result)⟩
        | true =>
          have longer : report.modified ++ [path] <+: report'.modified := grows
          refine ⟨(List.prefix_append _ _).trans longer, fun same => ?_⟩
          have := longer.length_le
          simp [same] at this

/-- Where files have been fixed more often, no more of them are reported. -/
theorem sublist_fixItems (fixed : Fixed n t u) (fixed' : Fixed n' t u')
    (le : ∀ loc, n loc ≤ n' loc) (sublist : report'.modified.Sublist report.modified)
    (dryRun : Bool) (items : List (Except Fault String)) :
    Agrees (fun r r' => r'.modified.Sublist r.modified)
      (fixItems Rule.defaults dryRun u report items).1
      (fixItems Rule.defaults dryRun u' report' items).1 := by
  induction items generalizing n n' u u' report report' with
  | nil => exact .ok sublist
  | cons item items ih =>
    match item with
    | .error fault => exact .error fault
    | .ok path =>
      rw [fixItems, fixItems]
      cases read : t.readText path with
      | error e =>
        rw [fixFile_of_readText_error _ _ (fixed.readText_error read),
          fixFile_of_readText_error _ _ (fixed'.readText_error read)]
        exact .error _
      | ok s =>
        obtain ⟨loc, reads⟩ := readText_eq_ok_iff.1 read
        obtain ⟨result, later⟩ := fixFile_of_reads fixed reads dryRun
        obtain ⟨result', later'⟩ := fixFile_of_reads fixed' reads dryRun
        rw [result, result']
        refine ih later later' (fun loc => Nat.add_le_add_right (le loc) _) ?_
        -- A text that stays as it is stays so for ever, so only the first run can report more.
        by_cases same : fixText^[n loc + 1] s = fixText^[n loc] s
        · have same' := fixText_iterate_of_le same (le loc)
          rw [decide_eq_false (not_not_intro same), decide_eq_false (not_not_intro same')]
          exact sublist
        · rw [decide_eq_true same]
          cases decide (fixText^[n' loc + 1] s ≠ fixText^[n' loc] s) with
          | true => exact sublist.append (.refl _)
          | false => exact sublist.trans (List.sublist_append_left _ _)

/-- Files with nothing left to fix are read and left alone. -/
theorem fixItems_of_settled {paths : List String} (h : Fixed n t u)
    (settled : ∀ path ∈ paths, ∃ loc s, t.Reads path loc s ∧
      fixText^[n loc + 1] s = fixText^[n loc] s) (dryRun : Bool) (report : Report) :
    fixItems Rule.defaults dryRun u report (paths.map .ok) =
      (.ok { report with scanned := report.scanned + paths.length }, u) := by
  induction paths generalizing report with
  | nil => rfl
  | cons path paths ih =>
    obtain ⟨⟨loc, s, reads, same⟩, settled⟩ := List.forall_mem_cons.1 settled
    have unchanged := fixFile_eq (h.reads reads) Rule.defaults dryRun
    rw [Function.iterate_succ_apply'] at same
    rw [if_pos (by exact same)] at unchanged
    rw [List.map_cons, fixItems, unchanged]
    simp only
    rw [ih settled]
    simp only [Report.add, Bool.false_eq_true, if_false, List.length_cons]
    congr 3
    omega

end Items

end Run

/-- The tree after a number of runs with the same settings. -/
def treeAfter (c : Config) (t : FileTree) : Nat → FileTree
  | 0 => t
  | runs + 1 => (runFix c (treeAfter c t runs)).tree

/-- What the reports of repeated runs show: the runs go on to end well, report less and less, and
after some number of runs, which the longest chain of base calls bounds, do nothing at all. -/
structure Settles (c : Config) (t : FileTree) (longest : Nat) (reports : Nat → Report) : Prop where
  result : ∀ i, (runFix c (treeAfter c t i)).result = .ok (reports i)
  scanned : ∀ i, (reports i).scanned = (reports 0).scanned
  sublist : ∀ i, (reports (i + 1)).modified.Sublist (reports i).modified
  tree_eq : ∀ i, (reports i).modified = [] → treeAfter c t (i + 1) = treeAfter c t i
  finite : {i | (reports i).modified ≠ []}.Finite
  ncard_le : {i | (reports i).modified ≠ []}.ncard ≤ max 1 longest.size
  second : longest ≤ 1 → (reports 1).modified = [] ∧ treeAfter c t 2 = treeAfter c t 1

namespace Run

section Reruns

variable {c : Config} {t : FileTree} {paths : List String} {stop : Option Fault} {longest : Nat}

/-- Every run adds the same to how often the files were fixed. -/
theorem Course.fixed_treeAfter (course : Course t (Walk.items t (Walk.start c t)) paths stop)
    (valid : c.validate = .ok ()) (i : Nat) :
    Fixed (fun loc => i * visits t c.dryRun paths loc) t (treeAfter c t i) := by
  induction i with
  | zero => simpa [treeAfter] using Fixed.zero t
  | succ i ih =>
    simp only [Nat.succ_mul]
    exact (course.fixed_runFix valid ih).1

theorem visits_pos {path : String} {loc : Location} {s : Text} (mem : path ∈ paths)
    (reads : t.Reads path loc s) : 0 < visits t false paths loc := by
  rw [visits, if_neg Bool.false_ne_true, List.countP_pos_iff]
  exact ⟨path, mem, reads.leadsTo_iff.2 rfl⟩

/-- After enough runs no file has anything left to fix. -/
theorem Course.settled (course : Course t (Walk.items t (Walk.start c t)) paths none)
    (isLongest : IsGreatest {n | n = 0 ∨ HasChainIn t (Walk.items t (Walk.start c t)) n} longest)
    {i : Nat} (le : max 1 longest.size ≤ i) :
    ∀ path ∈ paths, ∃ loc s, t.Reads path loc s ∧
      fixText^[i * visits t false paths loc + 1] s = fixText^[i * visits t false paths loc] s := by
  intro path mem
  obtain ⟨loc, s, reads⟩ := course.readable path mem
  refine ⟨loc, s, reads, ?_⟩
  obtain ⟨n, h⟩ := exists_longestChain s
  have inside : .ok path ∈ Walk.items t (Walk.start c t) := by
    rw [course.eq_map]
    exact List.mem_map_of_mem mem
  have shorter : n ≤ longest := isLongest.2 <| h.1.imp_right fun chain =>
    ⟨path, s, inside, readText_eq_ok_iff.2 ⟨loc, reads⟩, chain⟩
  apply h.fixText_iterate_succ
  have size := Nat.size_le_size shorter
  have often := Nat.le_mul_of_pos_right i (visits_pos mem reads)
  omega

/-- A run that comes after enough others reports nothing and leaves the tree as it is. -/
theorem Course.idle (course : Course t (Walk.items t (Walk.start c t)) paths none)
    (valid : c.validate = .ok ()) (writes : c.dryRun = false)
    (isLongest : IsGreatest {n | n = 0 ∨ HasChainIn t (Walk.items t (Walk.start c t)) n} longest)
    {i : Nat} (le : max 1 longest.size ≤ i) {report : Report}
    (done : (runFix c (treeAfter c t i)).result = .ok report) :
    report.modified = [] ∧ treeAfter c t (i + 1) = treeAfter c t i := by
  have fixed := course.fixed_treeAfter valid i
  have settled := course.settled isLongest le
  rw [writes] at fixed
  have inOrder := runFix_inOrder_of_fixed valid fixed
  rw [course.eq_map, fixItems_of_settled fixed settled] at inOrder
  obtain ⟨result, tree⟩ := Prod.mk.inj inOrder
  rw [done] at result
  cases result
  exact ⟨rfl, tree⟩

theorem Course.sublist_reports (course : Course t (Walk.items t (Walk.start c t)) paths stop)
    (valid : c.validate = .ok ()) (i : Nat) :
    Agrees (fun report later => later.modified.Sublist report.modified)
      (runFix c (treeAfter c t i)).result
      (runFix c (treeAfter c t (i + 1))).result := by
  have fixed := course.fixed_treeAfter valid i
  have later := course.fixed_treeAfter valid (i + 1)
  obtain ⟨result, -⟩ := Prod.mk.inj (runFix_inOrder_of_fixed valid fixed)
  obtain ⟨result', -⟩ := Prod.mk.inj (runFix_inOrder_of_fixed valid later)
  rw [result, result']
  exact sublist_fixItems fixed later (fun loc => Nat.mul_le_mul_right _ (Nat.le_succ i))
    (.refl _) c.dryRun _

theorem treeAfter_succ_of_modified_eq_nil (valid : c.validate = .ok ()) {i : Nat} {report : Report}
    (done : (runFix c (treeAfter c t i)).result = .ok report)
    (unmodified : report.modified = []) : treeAfter c t (i + 1) = treeAfter c t i := by
  obtain ⟨result, tree⟩ := Prod.mk.inj (runFix_inOrder valid (treeAfter c t i))
  rw [treeAfter, tree]
  rw [done] at result
  exact (fixItems_report result.symm).2 unmodified

/-- The runs settle if the first of them has no fault. -/
theorem Course.settles (course : Course t (Walk.items t (Walk.start c t)) paths none)
    (valid : c.validate = .ok ()) (writes : c.dryRun = false)
    (isLongest : IsGreatest {n | n = 0 ∨ HasChainIn t (Walk.items t (Walk.start c t)) n} longest)
    {reports : Nat → Report}
    (done : ∀ i, (runFix c (treeAfter c t i)).result = .ok (reports i) ∧
      (reports i).scanned = paths.length) : Settles c t longest reports := by
  have result (i : Nat) := (done i).1
  have busy : {i | (reports i).modified ≠ []} ⊆ Finset.range (max 1 longest.size) := by
    intro i modified
    simp only [Finset.coe_range, Set.mem_Iio]
    by_contra late
    exact modified (course.idle valid writes isLongest (Nat.le_of_not_lt late) (result i)).1
  refine ⟨result, fun i => (done i).2.trans (done 0).2.symm, fun i => ?_, fun i => ?_,
    (Finset.finite_toSet _).subset busy, ?_, fun short => ?_⟩
  · have agrees := course.sublist_reports valid i
    rw [result i, result (i + 1)] at agrees
    cases agrees with
    | ok sublist => exact sublist
  · exact treeAfter_succ_of_modified_eq_nil valid (result i)
  · have le := Set.ncard_le_ncard busy (Finset.finite_toSet _)
    rwa [Set.ncard_coe_finset, Finset.card_range] at le
  · have once : max 1 longest.size ≤ 1 := by
      have := Nat.size_le_size short
      simpa using this
    exact course.idle valid writes isLongest once (result 1)

end Reruns

end Run

/-- Repeated runs shrink and settle. -/
theorem reruns_settle {c : Config} {t : FileTree} {report : Report} (writes : c.dryRun = false)
    (first : (runFix c t).result = .ok report) :
    Walk.Yields t (Walk.start c t) (Walk.items t (Walk.start c t)) ∧
      ∃ longest, IsGreatest
          {n | n = 0 ∨ HasChainIn t (Walk.items t (Walk.start c t)) n} longest ∧
        ∃ reports, reports 0 = report ∧ Settles c t longest reports := by
  refine ⟨Walk.yields_items t _, ?_⟩
  have valid : c.validate = .ok () := by
    cases valid : c.validate with
    | error fault =>
      rw [runFix, valid] at first
      cases first
    | ok => rfl
  obtain ⟨longest, isLongest⟩ := exists_longest_chainIn t (Walk.items t (Walk.start c t))
  obtain ⟨paths, stop, course⟩ := Run.exists_course t (Walk.items t (Walk.start c t))
  cases stop with
  | some fault =>
    rw [course.runFix_eq_error valid (.zero t)] at first
    cases first
  | none =>
    choose reports done using fun i => course.exists_report valid (course.fixed_treeAfter valid i)
    refine ⟨longest, isLongest, reports, ?_, course.settles valid writes isLongest done⟩
    exact Except.ok.inj ((done 0).1.symm.trans first)

theorem reruns_settle_linkedTree :
    let report : Report := { modified := ["lib/a.dart"], scanned := 2 }
    ({} : Config).dryRun = false ∧ (runFix {} linkedTree).result = .ok report ∧
      ∃ longest reports, reports 0 = report ∧ Settles {} linkedTree longest reports := by
  intro report
  have first : (runFix {} linkedTree).result = .ok report := by decide +kernel
  obtain ⟨-, longest, -, reports, eq, settles⟩ := reruns_settle rfl first
  exact ⟨rfl, first, longest, reports, eq, settles⟩

end FlutterMend
