import FlutterMend.Proofs.Passes.Calls
import FlutterMend.Proofs.Passes.Promotions
import FlutterMend.Proofs.Passes.Removals

/-!
# Chains of base calls

How often forwarded keys can be revised in a text depends on the longest chain of base calls after a
parenthesis. Every revision halves it, and the text is left as it is once there is no base call
after a parenthesis any more.
-/

namespace FlutterMend

open Opacity SuperKey Pattern

/-- So many base calls stand in a row right after a parenthesis of the text. -/
def HasChain (t : Text) (length : Nat) : Prop :=
  ∃ (front : Text) (clauses : List Text) (rest : Text),
    t = front ++ ')' :: (clauses.flatten ++ rest) ∧
    clauses.length = length ∧ ∀ w ∈ clauses, baseCall.Accepts w

theorem length_le_of_flatten_eq {clauses others : List Text} {s s' : Text}
    (all : ∀ w ∈ clauses, baseCall.Accepts w) (all' : ∀ w ∈ others, baseCall.Accepts w)
    (last : ∀ w rest, baseCall.Accepts w → s ≠ w ++ rest)
    (eq : others.flatten ++ s' = clauses.flatten ++ s) : others.length ≤ clauses.length := by
  induction others generalizing clauses with
  | nil => exact Nat.zero_le _
  | cons w others ih =>
    have accepted := all' w List.mem_cons_self
    rw [List.flatten_cons, List.append_assoc] at eq
    cases clauses with
    | nil => exact absurd eq.symm (last w _ accepted)
    | cons u clauses =>
      rw [List.flatten_cons, List.append_assoc] at eq
      obtain ⟨-, eq⟩ := accepts_unique delimited_baseCall accepted
        (all u List.mem_cons_self) eq
      exact Nat.succ_le_succ (ih (fun v hv => all v (List.mem_cons_of_mem _ hv))
        (fun v hv => all' v (List.mem_cons_of_mem _ hv)) eq)

namespace Lexeme

variable {x y : Lexeme} {s : Text} {ls ls' : List Lexeme}

def clauseCount : Lexeme → Nat
  | closing _ clauses => clauses.length
  | _ => 0

/-- The greatest number of clauses in a closing. -/
def longest (ls : List Lexeme) : Nat := ls.foldr (fun x n => max x.clauseCount n) 0

@[simp] theorem longest_cons (x : Lexeme) (ls : List Lexeme) :
    longest (x :: ls) = max x.clauseCount (longest ls) := rfl

/-- More clauses than given stand in a row at the front, after a parenthesis. -/
def Exceeds (n : Nat) (s : Text) : Prop :=
  ∃ (clauses : List Text) (rest : Text), s = ')' :: (clauses.flatten ++ rest) ∧ n < clauses.length ∧
    ∀ w ∈ clauses, baseCall.Accepts w

theorem free_exceeds_of_forall_ne {n : Nat} {w rest : Text} (h : ∀ c ∈ w, c ≠ ')') :
    Free (Exceeds n) w rest :=
  .of_forall_mem fun c hc _ ⟨_, _, eq, _⟩ => h c hc (List.cons.inj eq).1

theorem free_exceeds_clauses {n : Nat} {clauses : List Text}
    (all : ∀ w ∈ clauses, baseCall.Accepts w)
    (last : ∀ w rest, baseCall.Accepts w → s ≠ w ++ rest) (le : clauses.length ≤ n) :
    Free (Exceeds n) (')' :: clauses.flatten) s := by
  induction clauses with
  | nil =>
    refine ⟨fun ⟨others, rest, eq, lt, all'⟩ => ?_, trivial⟩
    have := length_le_of_flatten_eq all all' last (List.cons.inj eq).2.symm
    omega
  | cons u clauses ih =>
    obtain ⟨stem, eq, chars⟩ := exists_of_baseCall_accepts (all u List.mem_cons_self)
    constructor
    · rintro ⟨others, rest, eq, lt, all'⟩
      have := length_le_of_flatten_eq all all' last (List.cons.inj eq).2.symm
      omega
    · rw [List.flatten_cons, eq, List.append_assoc]
      refine .append (free_exceeds_of_forall_ne fun c hc => (chars c hc).2.1) ?_
      exact ih (fun v hv => all v (List.mem_cons_of_mem _ hv)) (Nat.le_of_succ_le le)

theorem free_exceeds (lexed : Lexed ls) {n : Nat} (le : longest ls ≤ n) :
    Free (Exceeds n) (render ls) [] := by
  induction ls with
  | nil => trivial
  | cons x ls ih =>
    rw [longest_cons] at le
    refine .append ?_ (ih lexed.2 (by omega))
    rw [List.append_nil]
    by_cases h : ∃ lead clauses, x = closing lead clauses
    · obtain ⟨lead, clauses, rfl⟩ := h
      have count : clauses.length ≤ n := by
        simp only [clauseCount] at le
        omega
      refine .append (free_exceeds_of_forall_ne (forall_ne_of_isLead lexed.1.1)) ?_
      exact free_exceeds_clauses lexed.1.2.1 lexed.1.2.2 count
    · exact free_exceeds_of_forall_ne
        (forall_ne_of_ne_closing lexed.1 fun lead clauses eq => h ⟨lead, clauses, eq⟩)

/-- The longest chain after a parenthesis is the longest one in a closing. -/
theorem isGreatest_longest (lexed : Lexed ls) :
    IsGreatest {n | n = 0 ∨ HasChain (render ls) n} (longest ls) := by
  constructor
  · induction ls with
    | nil => exact .inl rfl
    | cons x ls ih =>
      rw [longest_cons]
      rcases Nat.le_total x.clauseCount (longest ls) with le | le
      · rw [Nat.max_eq_right le]
        refine (ih lexed.2).imp id fun ⟨front, clauses, rest, eq, chain⟩ => ?_
        exact ⟨x.text ++ front, clauses, rest, by rw [render_cons, eq, List.append_assoc], chain⟩
      · rw [Nat.max_eq_left le]
        cases x with
        | closing lead clauses =>
          exact .inr ⟨lead, clauses, render ls, by simp [text], rfl, lexed.1.2.1⟩
        | _ => exact .inl rfl
  · rintro n (rfl | ⟨front, clauses, rest, eq, rfl, all⟩)
    · exact Nat.zero_le _
    · by_contra h
      have free := free_exceeds lexed (Nat.le_refl (longest ls))
      refine free.not_drop (i := front.length) (by simp [eq]) ?_
      rw [List.append_nil, eq, List.drop_left]
      exact ⟨clauses, rest, rfl, by omega, all⟩

theorem longest_map_modernize (ls : List Lexeme) : longest (ls.map modernize) = longest ls := by
  induction ls with
  | nil => rfl
  | cons x ls ih =>
    rw [List.map_cons, longest_cons, longest_cons, ih]
    cases x <;> rfl

theorem longest_promote (ready : Bool) (ls : List Lexeme) :
    longest (promote ready ls) = longest ls := by
  fun_induction promote ready ls with
  | case1 => rfl
  | case2 ready before param ls h ih => rw [longest_cons, longest_cons, ih]; rfl
  | case3 ready before param ls h ih => rw [longest_cons, longest_cons, ih]
  | case4 ready x ls _ ih => rw [longest_cons, longest_cons, ih]

theorem longest_map_shorten (ls : List Lexeme) : longest (ls.map shorten) = longest ls / 2 := by
  induction ls with
  | nil => rfl
  | cons x ls ih =>
    have halved : x.shorten.clauseCount = x.clauseCount / 2 := by
      cases x with
      | closing lead clauses => exact length_everySecond clauses
      | _ => simp [shorten, clauseCount]
    rw [List.map_cons, longest_cons, longest_cons, ih, halved]
    omega

theorem forwards_of_longest_eq_zero (h : longest ls = 0) : ls.any forwards = false := by
  induction ls with
  | nil => rfl
  | cons x ls ih =>
    rw [longest_cons] at h
    rw [List.any_cons, ih (by omega), Bool.or_false]
    match x, h with
    | letter _, _ | call _, _ | head _ _, _ | closing [] _, _ | closing (_ :: _) [], _ => rfl
    | closing (_ :: _) (_ :: _), h => simp [clauseCount] at h

theorem promote_of_forwards_eq_false {ready : Bool} (h : ls.any forwards = false) :
    promote ready ls = ls := by
  fun_induction promote ready ls with
  | case1 => rfl
  | case2 ready before param ls promotes ih =>
    rw [List.any_cons, promotes.2.2, Bool.or_true] at h
    cases h
  | case3 ready before param ls _ ih =>
    rw [List.any_cons, Bool.or_eq_false_iff] at h
    rw [ih h.2]
  | case4 ready x ls _ ih =>
    rw [List.any_cons, Bool.or_eq_false_iff] at h
    rw [ih h.2]

theorem map_shorten_of_longest_eq_zero (h : longest ls = 0) : ls.map shorten = ls := by
  induction ls with
  | nil => rfl
  | cons x ls ih =>
    rw [longest_cons] at h
    rw [List.map_cons, ih (by omega)]
    match x, h with
    | letter _, _ | call _, _ | head _ _, _ | closing _ [], _ => rfl
    | closing _ (_ :: _), h => simp [clauseCount] at h

end Lexeme

end FlutterMend
