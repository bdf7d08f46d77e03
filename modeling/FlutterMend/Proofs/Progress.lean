import FlutterMend.Proofs.RuleList

/-!
# What is left to revise

Whether a rule still changes a text can be told from two things: whether the text has an opacity
call, and how long its longest chain of base calls is. A rule takes away all opacity calls or halves
the chain, and no rule brings anything back. So rules that have changed a text do not lead back to
it, in whatever order and however often they are applied.
-/

namespace FlutterMend

open Lexeme

/-- The longest chain of base calls after a parenthesis of the text has this length. -/
def LongestChain (t : Text) (n : Nat) : Prop := IsGreatest {n | n = 0 ∨ HasChain t n} n

variable {t : Text} {n : Nat}

theorem exists_longestChain (t : Text) : ∃ n, LongestChain t n := by
  obtain ⟨ls, lexed, rfl⟩ := exists_lexed t
  exact ⟨longest ls, isGreatest_longest lexed⟩

theorem LongestChain.unique {m : Nat} (h : LongestChain t n) (h' : LongestChain t m) : n = m :=
  IsGreatest.unique h h'

theorem LongestChain.revise (h : LongestChain t n) (rule : Rule) :
    LongestChain (rule.revise t) (if rule = .superKey then n / 2 else n) := by
  obtain ⟨ls, lexed, rfl⟩ := exists_lexed t
  have isLongest := isGreatest_longest (lexed_applyRule rule lexed)
  rw [longest_applyRule, ← revise_render rule lexed] at isLongest
  cases h.unique (isGreatest_longest lexed)
  cases rule <;> exact isLongest

/-- Repeating what halves the chain halves it again and again. -/
theorem LongestChain.iterate {f : Text → Text}
    (halves : ∀ {s m}, LongestChain s m → LongestChain (f s) (m / 2)) (h : LongestChain t n)
    (k : Nat) : LongestChain (f^[k] t) (n / 2 ^ k) := by
  induction k with
  | zero => simpa using h
  | succ k ih =>
    rw [Function.iterate_succ_apply', Nat.pow_succ, ← Nat.div_div_eq_div_mul]
    exact halves ih

theorem hasCall_revise_iff (rule : Rule) (t : Text) :
    HasCall (rule.revise t) ↔ rule = .superKey ∧ HasCall t := by
  obtain ⟨ls, lexed, rfl⟩ := exists_lexed t
  rw [revise_render rule lexed, hasCall_render_iff (lexed_applyRule rule lexed),
    call_mem_applyRule, hasCall_render_iff lexed]

/-- A rule leaves a text alone if there is no opacity call, or no base call after a parenthesis. -/
theorem LongestChain.revise_eq_self_iff (h : LongestChain t n) (rule : Rule) :
    rule.revise t = t ↔
      match rule with
      | .opacity => ¬HasCall t
      | .superKey => n = 0 := by
  obtain ⟨ls, lexed, rfl⟩ := exists_lexed t
  cases h.unique (isGreatest_longest lexed)
  rw [revise_render_eq_self_iff rule lexed, applyRule_eq_self_iff]
  cases rule with
  | opacity => exact not_congr (hasCall_render_iff lexed).symm
  | superKey => exact Iff.rfl

namespace Revision

theorem ofRules_cons_text (rule : Rule) (rules : List Rule) (t : Text) :
    (ofRules (rule :: rules) t).text = (ofRules rules (rule.revise t)).text := by
  simp [text_ofRules]

theorem longestChain_text (rules : List Rule) (h : LongestChain t n) :
    LongestChain (ofRules rules t).text (n / 2 ^ rules.count .superKey) := by
  induction rules generalizing t n with
  | nil => simpa [ofRules] using h
  | cons rule rules ih =>
    have later := ih (h.revise rule)
    rw [ofRules_cons_text]
    cases rule with
    | opacity => simpa using later
    | superKey => simpa [Nat.div_div_eq_div_mul, Nat.pow_succ'] using later

theorem hasCall_text_iff (rules : List Rule) (t : Text) :
    HasCall (ofRules rules t).text ↔ .opacity ∉ rules ∧ HasCall t := by
  induction rules generalizing t with
  | nil => simp [ofRules]
  | cons rule rules ih =>
    rw [ofRules_cons_text, ih, hasCall_revise_iff]
    cases rule <;> simp

/-- If rules lead back to the text that they are applied to, then already the first of them leaves
it alone. -/
theorem revise_eq_self_of_text {rule : Rule} {rules : List Rule}
    (same : (ofRules (rule :: rules) t).text = t) : rule.revise t = t := by
  obtain ⟨n, h⟩ := exists_longestChain t
  have later := longestChain_text (rule :: rules) h
  have call := hasCall_text_iff (rule :: rules) t
  rw [same] at later call
  rw [h.revise_eq_self_iff]
  cases rule with
  | opacity => simpa using call
  | superKey =>
    -- The chain is halved at least once, and only a chain of no calls stays as long as it is.
    have halved := h.unique later
    rw [List.count_cons_self, Nat.pow_succ', ← Nat.div_div_eq_div_mul] at halved
    have := Nat.div_le_self (n / 2) (2 ^ rules.count .superKey)
    change n = 0
    omega

/-- Rules that lead back to the text that they are applied to have not changed it on the way. -/
theorem applied_eq_nil_iff (rules : List Rule) (t : Text) :
    (ofRules rules t).applied = [] ↔ (ofRules rules t).text = t := by
  refine ⟨text_of_applied_eq_nil, fun same => ?_⟩
  induction rules with
  | nil => rfl
  | cons rule rules ih =>
    have first := revise_eq_self_of_text same
    rw [ofRules_cons_text, first] at same
    rw [applied_cons, first, ih same]
    simp

theorem text_append (rules rules' : List Rule) (t : Text) :
    (ofRules (rules ++ rules') t).text = (ofRules rules' (ofRules rules t).text).text := by
  simp [text_ofRules]

theorem applied_append (rules rules' : List Rule) (t : Text) :
    (ofRules (rules ++ rules') t).applied =
      (ofRules rules t).applied ++ (ofRules rules' (ofRules rules t).text).applied := by
  induction rules generalizing t with
  | nil => rfl
  | cons rule rules ih =>
    rw [List.cons_append, applied_cons, applied_cons, ih, ofRules_cons_text, List.append_assoc]

end Revision

end FlutterMend
