import FlutterMend.Proofs.Progress

/-!
# Repeated revision of forwarded keys

Revising the forwarded keys of a text halves its longest chain of base calls, whatever is promoted
on the way. So the revision changes a text as often as the length of this chain has binary digits,
and from then on no base call stands after a parenthesis.
-/

namespace FlutterMend

open SuperKey

namespace LongestChain

variable {t : Text} {n : Nat}

theorem superKey_revise (h : LongestChain t n) : LongestChain (SuperKey.revise t) (n / 2) :=
  h.revise .superKey

theorem superKey_changed_iff (h : LongestChain t n) :
    (Rule.superKey.apply t).changed = true ↔ 1 ≤ n := by
  have unchanged : SuperKey.revise t = t ↔ n = 0 := h.revise_eq_self_iff .superKey
  rw [Rule.changed_apply_iff, Rule.revise, Ne, unchanged, Nat.one_le_iff_ne_zero]

/-- A base call after a parenthesis is a chain of its own. -/
theorem exists_isRemoval_iff (h : LongestChain t n) :
    (∃ i e, IsRemoval (t.drop i) e) ↔ 1 ≤ n := by
  constructor
  · rintro ⟨i, e, clause, rest, accepted, -, eq⟩
    refine h.2 (.inr ⟨t.take i, [clause], rest, ?_, rfl, by simpa using accepted⟩)
    rw [List.flatten_singleton, ← eq, List.take_append_drop]
  · intro le
    obtain rfl | ⟨front, clauses, rest, rfl, rfl, all⟩ := h.1
    · cases le
    · obtain ⟨u, clauses, rfl⟩ := List.exists_cons_of_length_pos le
      refine ⟨front.length, _, u, clauses.flatten ++ rest, all u List.mem_cons_self, rfl, ?_⟩
      rw [List.drop_left, List.flatten_cons, List.append_assoc]

end LongestChain

/-- A revision of forwarded keys halves the longest chain of base calls after a parenthesis. It
changes the text just as long as there is such a chain, so one revision is enough if no two base
calls stand in a row, and otherwise it takes one for every binary digit of the length. -/
theorem superKey_halves (t : Text) :
    ∃ n, LongestChain t n ∧ LongestChain (Rule.superKey.apply t).text (n / 2) ∧
      ((Rule.superKey.apply t).changed = true ↔ 1 ≤ n) ∧
      ((∃ i e, IsRemoval (t.drop i) e) ↔ 1 ≤ n) ∧
      ((Rule.superKey.apply (Rule.superKey.apply t).text).changed = false ↔ n ≤ 1) ∧
      ∀ k, let later := (fun s => (Rule.superKey.apply s).text)^[k] t
        ((Rule.superKey.apply later).changed = true ↔ k < n.size) ∧
          ((∀ i e, ¬IsRemoval (later.drop i) e) ↔ n.size ≤ k) := by
  obtain ⟨n, h⟩ := exists_longestChain t
  have second := h.superKey_revise.superKey_changed_iff
  refine ⟨n, h, h.superKey_revise, h.superKey_changed_iff, h.exists_isRemoval_iff, ?_,
    fun k => ?_⟩
  · rw [← Bool.not_eq_true, Rule.apply, RevisedText.compare]
    refine (not_congr second).trans ?_
    omega
  · have later := h.iterate LongestChain.superKey_revise k
    have long : 1 ≤ n / 2 ^ k ↔ k < n.size := by
      rw [Nat.lt_size, Nat.one_le_div_iff (Nat.two_pow_pos k)]
    refine ⟨later.superKey_changed_iff.trans long, ?_⟩
    have found := later.exists_isRemoval_iff.trans long
    rw [← not_lt, ← found]
    simp only [not_exists]
    rfl

/-- Three base calls in a row take two revisions, the first of which leaves one of them. -/
example : SuperKey.revise "A() : super(key: key) : super(key: key) : super(key: key);".toList =
    "A() : super(key: key);".toList := by decide +kernel

end FlutterMend
