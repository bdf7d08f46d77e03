import FlutterMend.Proofs.Chains
import FlutterMend.Rule

/-!
# Lists of rules

The two rules commute, and revising opacity calls twice is the same as doing it once. So a list of
rules has a normal form, in which only the number of its entries counts. Which of the entries report
a change can be told from the text that the list is applied to.
-/

namespace FlutterMend

open Opacity SuperKey Pattern

theorem Rule.changed_apply_iff (rule : Rule) (s : Text) :
    (rule.apply s).changed = true ↔ rule.revise s ≠ s := bne_iff_ne

/-- A rule that reports no change would not have changed the text. -/
theorem Revision.text_ofRules (rules : List Rule) (s : Text) :
    (ofRules rules s).text = rules.foldl (fun s rule => rule.revise s) s := by
  induction rules generalizing s with
  | nil => rfl
  | cons rule rules ih =>
    rw [ofRules, List.foldl_cons]
    by_cases h : rule.revise s = s
    · simp [Rule.apply, RevisedText.compare, h, ih]
    · simp [Rule.apply, RevisedText.compare, h, ih]

theorem Revision.applied_cons (rule : Rule) (rules : List Rule) (s : Text) :
    (ofRules (rule :: rules) s).applied =
      (if rule.revise s = s then [] else [rule]) ++ (ofRules rules (rule.revise s)).applied := by
  rw [ofRules]
  by_cases h : rule.revise s = s
  · simp [Rule.apply, RevisedText.compare, h]
  · simp [Rule.apply, RevisedText.compare, h]

namespace Lexeme

variable {x y : Lexeme} {s : Text} {ls ls' : List Lexeme}

/-- What a rule does to the lexemes of a text. -/
def applyRule : Rule → List Lexeme → List Lexeme
  | .opacity, ls => ls.map modernize
  | .superKey, ls => (promote true ls).map shorten

theorem forall₂_revised_applyRule (rule : Rule) (ls : List Lexeme) :
    List.Forall₂ Revised ls (applyRule rule ls) := by
  cases rule with
  | opacity => exact forall₂_revised_map revised_modernize ls
  | superKey => exact forall₂_revised_map_promote revised_shorten (fun _ _ => rfl) true ls

theorem revise_render (rule : Rule) (lexed : Lexed ls) :
    rule.revise (render ls) = render (applyRule rule ls) := by
  cases rule with
  | opacity => exact opacity_revise_render lexed
  | superKey =>
    change removeBaseCalls (SuperKey.promote (render ls)) = _
    rw [promote_render lexed,
      removeBaseCalls_render (lexed_of_revised (forall₂_revised_promote true ls) lexed)]
    rfl

theorem lexed_applyRule (rule : Rule) (lexed : Lexed ls) : Lexed (applyRule rule ls) :=
  lexed_of_revised (forall₂_revised_applyRule rule ls) lexed

/-- An exchange shows in the text. -/
theorem eq_of_render_eq (h : List.Forall₂ Revised ls ls') (lexed : Lexed ls)
    (eq : render ls' = render ls) : ls' = ls := by
  induction h with
  | nil => rfl
  | @cons x y ls ls' hxy h ih =>
    rw [render_cons, render_cons] at eq
    cases hxy with
    | same => rw [ih lexed.2 (List.append_cancel_left eq)]
    | call => cases eq
    | head before ne =>
      obtain ⟨blanks, rfl, -⟩ := exists_of_parameter_accepts (lexed.1.2.resolve_right ne)
      rw [text, text, List.append_assoc, List.append_assoc, List.append_assoc,
        List.append_assoc] at eq
      cases List.append_cancel_left eq
    | @closing lead clauses ne =>
      have lexed' := lexed_of_revised (.cons (.closing lead ne) h) lexed
      rw [text, text, List.append_assoc, List.append_assoc] at eq
      have flat := (List.cons.inj (List.append_cancel_left eq)).2
      have le := length_le_of_flatten_eq lexed'.1.2.1 lexed.1.2.1 lexed'.1.2.2 flat.symm
      have := List.length_pos_iff.2 ne
      rw [length_everySecond] at le
      omega

theorem applyRule_comm (ls : List Lexeme) :
    applyRule .superKey (applyRule .opacity ls) = applyRule .opacity (applyRule .superKey ls) := by
  simp only [applyRule, promote_map_modernize, List.map_map]
  exact List.map_congr_left fun x _ => shorten_modernize x

theorem applyRule_opacity_twice (ls : List Lexeme) :
    applyRule .opacity (applyRule .opacity ls) = applyRule .opacity ls := by
  simp only [applyRule, List.map_map]
  exact List.map_congr_left fun x _ => by cases x <;> rfl

theorem longest_applyRule (rule : Rule) (ls : List Lexeme) :
    longest (applyRule rule ls) =
      match rule with
      | .opacity => longest ls
      | .superKey => longest ls / 2 := by
  cases rule with
  | opacity => exact longest_map_modernize ls
  | superKey => rw [applyRule, longest_map_shorten, longest_promote]

theorem call_mem_promote (ready : Bool) (ls : List Lexeme) (current : Bool) :
    call current ∈ promote ready ls ↔ call current ∈ ls := by
  fun_induction promote ready ls <;> simp_all

theorem call_mem_applyRule (rule : Rule) (ls : List Lexeme) :
    call false ∈ applyRule rule ls ↔ rule = .superKey ∧ call false ∈ ls := by
  cases rule with
  | opacity =>
    simp only [applyRule, List.mem_map, reduceCtorEq, false_and, iff_false, not_exists, not_and]
    intro x _ eq
    cases x <;> cases eq
  | superKey =>
    simp only [applyRule, List.mem_map, true_and, ← call_mem_promote true ls]
    constructor
    · rintro ⟨x, mem, eq⟩
      cases x <;> cases eq
      exact mem
    · exact fun mem => ⟨_, mem, rfl⟩

/-- A rule has nothing left to do if there is no deprecated call, or no base call after a
parenthesis. -/
theorem applyRule_eq_self_iff (rule : Rule) (ls : List Lexeme) :
    applyRule rule ls = ls ↔
      match rule with
      | .opacity => call false ∉ ls
      | .superKey => longest ls = 0 := by
  cases rule with
  | opacity =>
    constructor
    · intro eq mem
      rw [← eq, call_mem_applyRule] at mem
      cases mem.1
    · intro absent
      refine (List.map_congr_left fun x mem => ?_).trans (List.map_id ls)
      exact modernize_of_ne fun eq => absent (eq ▸ mem)
  | superKey =>
    constructor
    · intro eq
      have halved := longest_applyRule .superKey ls
      rw [eq] at halved
      change longest ls = 0
      simp only at halved
      omega
    · intro none
      rw [applyRule, promote_of_forwards_eq_false (forwards_of_longest_eq_zero none),
        map_shorten_of_longest_eq_zero none]

end Lexeme

/-- An opacity call with a numeral stands somewhere in the text. -/
def HasCall (t : Text) : Prop := HasCallOf false t

/-- Whether the entry at an index of a list of rules reports a change when the list is applied to a
text with the given longest chain of base calls. -/
def Reports (t : Text) (longest : Nat) (rules : List Rule) (i : Nat) : Prop :=
  (rules[i]? = some .opacity ∧ .opacity ∉ rules.take i ∧ HasCall t) ∨
    (rules[i]? = some .superKey ∧ (rules.take (i + 1)).count .superKey ≤ longest.size)

namespace Lexeme

variable {ls : List Lexeme}

theorem hasCall_render_iff (lexed : Lexed ls) : HasCall (render ls) ↔ call false ∈ ls :=
  hasCallOf_render_iff false lexed

theorem revise_render_eq_self_iff (rule : Rule) (lexed : Lexed ls) :
    rule.revise (render ls) = render ls ↔ applyRule rule ls = ls := by
  rw [revise_render rule lexed]
  exact ⟨eq_of_render_eq (forall₂_revised_applyRule rule ls) lexed, congrArg render⟩

theorem reports_length_iff (t : Text) (n : Nat) (rule : Rule) (done rest : List Rule) :
    Reports t n (done ++ rule :: rest) done.length ↔
      match rule with
      | .opacity => .opacity ∉ done ∧ HasCall t
      | .superKey => done.count .superKey < n.size := by
  have entry : (done ++ rule :: rest)[done.length]? = some rule := by simp
  have before : (done ++ rule :: rest).take done.length = done := List.take_left
  have through : (done ++ rule :: rest).take (done.length + 1) = done ++ [rule] := by
    simp [List.take_append, List.take_of_length_le]
  rw [Reports, entry, before, through]
  cases rule with
  | opacity => simp
  | superKey =>
    have counted : (done ++ [Rule.superKey]).count .superKey = done.count .superKey + 1 := by
      rw [List.count_append]
      rfl
    rw [counted]
    constructor
    · rintro (⟨other, -⟩ | ⟨-, le⟩)
      · cases other
      · exact le
    · exact fun lt => .inr ⟨rfl, lt⟩

/-- A rule leaves the text alone if its entry does not report a change. -/
theorem revise_eq_self_iff_not_reports {t : Text} {n : Nat} (rule : Rule) (done rest : List Rule)
    (lexed : Lexed ls) (hcall : call false ∈ ls ↔ .opacity ∉ done ∧ HasCall t)
    (hlongest : longest ls = n / 2 ^ done.count .superKey) :
    rule.revise (render ls) = render ls ↔ ¬Reports t n (done ++ rule :: rest) done.length := by
  rw [revise_render_eq_self_iff rule lexed, applyRule_eq_self_iff, reports_length_iff]
  cases rule with
  | opacity => exact not_congr hcall
  | superKey =>
    have := Nat.lt_size (m := done.count .superKey) (n := n)
    simp [hlongest, Nat.div_eq_zero_iff, this]

/-- The entries that report a change, among those of a list from some entry on. -/
theorem exists_reported {t : Text} {n : Nat} (done rest : List Rule) (lexed : Lexed ls)
    (hcall : call false ∈ ls ↔ .opacity ∉ done ∧ HasCall t)
    (hlongest : longest ls = n / 2 ^ done.count .superKey) :
    ∃ reported : List Nat, reported.Pairwise (· < ·) ∧
      (∀ i, i ∈ reported ↔ done.length ≤ i ∧ Reports t n (done ++ rest) i) ∧
      (Revision.ofRules rest (render ls)).applied.map some =
        reported.map ((done ++ rest)[·]?) := by
  induction rest generalizing done ls with
  | nil =>
    refine ⟨[], .nil, fun i => ⟨nofun, fun ⟨le, reports⟩ => ?_⟩, rfl⟩
    have beyond : (done ++ [])[i]? = none := by simpa using le
    rw [Reports, beyond] at reports
    simp at reports
  | cons rule rest ih =>
    have unchanged := revise_eq_self_iff_not_reports rule done rest lexed hcall hlongest
    have hcall' : call false ∈ applyRule rule ls ↔ .opacity ∉ done ++ [rule] ∧ HasCall t := by
      rw [call_mem_applyRule, hcall]
      cases rule <;> simp
    have hlongest' : longest (applyRule rule ls) = n / 2 ^ (done ++ [rule]).count .superKey := by
      rw [longest_applyRule]
      cases rule <;> simp [hlongest, Nat.div_div_eq_div_mul, Nat.pow_succ]
    obtain ⟨reported, sorted, mem, eq⟩ :=
      ih (done ++ [rule]) (lexed_applyRule rule lexed) hcall' hlongest'
    rw [List.append_assoc, List.singleton_append] at mem eq
    rw [List.length_append, List.length_singleton] at mem
    rw [Revision.applied_cons, revise_render rule lexed]
    rw [revise_render rule lexed] at unchanged
    by_cases reports : Reports t n (done ++ rule :: rest) done.length
    · refine ⟨done.length :: reported, .cons (fun i hi => ((mem i).1 hi).1) sorted,
        fun i => ?_, ?_⟩
      · rw [List.mem_cons, mem]
        constructor
        · rintro (rfl | ⟨le, reports'⟩)
          · exact ⟨Nat.le_refl _, reports⟩
          · exact ⟨by omega, reports'⟩
        · rintro ⟨le, reports'⟩
          exact (Nat.eq_or_lt_of_le le).imp Eq.symm fun lt => ⟨lt, reports'⟩
      · rw [if_neg fun same => unchanged.1 same reports, List.map_append, eq]
        simp
    · refine ⟨reported, sorted, fun i => ?_, ?_⟩
      · rw [mem]
        constructor
        · exact fun ⟨le, reports'⟩ => ⟨by omega, reports'⟩
        · rintro ⟨le, reports'⟩
          refine ⟨Nat.lt_of_le_of_ne le ?_, reports'⟩
          rintro rfl
          exact reports reports'
      · rw [if_pos (unchanged.2 reports), List.nil_append, eq]

end Lexeme

open Lexeme in
theorem superKey_opacity_comm (t : Text) :
    SuperKey.revise (Opacity.revise t) = Opacity.revise (SuperKey.revise t) := by
  obtain ⟨ls, lexed, rfl⟩ := exists_lexed t
  change Rule.revise .superKey (Rule.revise .opacity _) =
    Rule.revise .opacity (Rule.revise .superKey _)
  rw [revise_render .opacity lexed, revise_render .superKey lexed,
    revise_render .superKey (lexed_applyRule _ lexed),
    revise_render .opacity (lexed_applyRule _ lexed), applyRule_comm]

open Lexeme in
theorem opacity_revise_twice (t : Text) :
    Opacity.revise (Opacity.revise t) = Opacity.revise t := by
  obtain ⟨ls, lexed, rfl⟩ := exists_lexed t
  change Rule.revise .opacity (Rule.revise .opacity _) = Rule.revise .opacity _
  rw [revise_render .opacity lexed, revise_render .opacity (lexed_applyRule _ lexed),
    applyRule_opacity_twice]

/-- Only the number of its entries counts for what a list of rules makes of a text. -/
theorem foldl_revise_eq (rules : List Rule) (t : Text) :
    rules.foldl (fun s rule => rule.revise s) t =
      SuperKey.revise^[rules.count .superKey]
        (if .opacity ∈ rules then Opacity.revise t else t) := by
  induction rules generalizing t with
  | nil => rfl
  | cons rule rules ih =>
    rw [List.foldl_cons, ih]
    cases rule with
    | opacity =>
      have once : (if Rule.opacity ∈ rules then Opacity.revise (Opacity.revise t)
          else Opacity.revise t) = Opacity.revise t := by
        rw [opacity_revise_twice, ite_self]
      simpa [Rule.revise] using congrArg _ once
    | superKey =>
      have inside : (if Rule.opacity ∈ rules then Opacity.revise (SuperKey.revise t)
          else SuperKey.revise t) =
          SuperKey.revise (if Rule.opacity ∈ rules then Opacity.revise t else t) := by
        rw [← superKey_opacity_comm, apply_ite SuperKey.revise]
      simp [Rule.revise, inside]

theorem Revision.text_of_applied_eq_nil {rules : List Rule} {t : Text}
    (h : (ofRules rules t).applied = []) : (ofRules rules t).text = t := by
  induction rules with
  | nil => rfl
  | cons rule rules ih =>
    rw [applied_cons, List.append_eq_nil_iff] at h
    have same : rule.revise t = t := by simpa using h.1
    rw [same] at h
    rw [text_ofRules, List.foldl_cons, same, ← text_ofRules]
    exact ih h.2

/-- The normal form of a list of rules, and the entries that report a change. -/
theorem Revision.ofRules_normalForm (rules : List Rule) (t : Text) :
    SuperKey.revise (Opacity.revise t) = Opacity.revise (SuperKey.revise t) ∧
      (ofRules rules t).text = SuperKey.revise^[rules.count .superKey]
        (if .opacity ∈ rules then Opacity.revise t else t) ∧
      ∃ longest, IsGreatest {n | n = 0 ∨ HasChain t n} longest ∧
        ∃ reported : List Nat, reported.Pairwise (· < ·) ∧
          (∀ i, i ∈ reported ↔ Reports t longest rules i) ∧
          (ofRules rules t).applied.map some = reported.map (rules[·]?) := by
  refine ⟨superKey_opacity_comm t, by rw [text_ofRules, foldl_revise_eq], ?_⟩
  obtain ⟨ls, lexed, rfl⟩ := exists_lexed t
  refine ⟨Lexeme.longest ls, Lexeme.isGreatest_longest lexed, ?_⟩
  simpa using Lexeme.exists_reported (t := Lexeme.render ls) [] rules lexed
    (by simp [Lexeme.hasCall_render_iff lexed]) (by simp)

end FlutterMend
