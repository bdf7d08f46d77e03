import FlutterMend.Proofs.Passes.Promotions
import FlutterMend.Proofs.Passes.Removals

/-!
# Matches after earlier passes

The exchanges of one pass leave the matches of the next ones where they are, up to the growth of the
text in front of them. They neither make nor spoil a match, and they do not cut one in two or join
two of them.
-/

namespace FlutterMend

open Opacity SuperKey Pattern

/-- A match in a text and the match it has become by a script for that text. -/
structure Moved (script : List Splice) (m m' : Match) : Prop where
  before : m'.edit.before = m.edit.before
  removed : m'.edit.removed = m.edit.removed
  inserted : m'.edit.inserted = m.edit.inserted
  start : (m'.start : Int) = shifted script m.start
  stop : (m'.stop : Int) = shifted script m.stop

namespace Lexeme

variable {x y : Lexeme} {s : Text} {ls ls' : List Lexeme}

/-- The tail of a promotion is rewritten apart from what follows it. -/
theorem exists_rewrites_tailOf (lexed : Lexed ls) (any : ls.any forwards = true) (pos : Nat) :
    ∃ first later rest rest', script pos ls (ls.map modernize) = first ++ later ∧
      Rewrites pos first (tailOf ls) (tailOf (ls.map modernize)) ∧
      Rewrites (pos + (tailOf ls).length) later rest rest' := by
  induction ls generalizing pos with
  | nil => cases any
  | cons x ls ih =>
    have rewrites := rewrites_script (forall₂_revised_map revised_modernize ls) lexed.2
    cases forwarding : x.forwards with
    | true =>
      obtain ⟨c, lead, u, clauses, rfl⟩ := exists_of_forwards forwarding
      have length : pos + (c :: lead ++ ')' :: u).length + clauses.flatten.length =
          pos + (closing (c :: lead) (u :: clauses)).text.length := by
        simp [text]
        omega
      refine ⟨[], _, clauses.flatten ++ render ls, _, ?_, .refl _ _,
        (Rewrites.refl _ clauses.flatten).append (by rw [tailOf, length]; exact rewrites _)⟩
      rw [List.map_cons, modernize_closing, script, splices_self]
      rfl
    | false =>
      rw [List.any_cons, forwarding, Bool.false_or] at any
      obtain ⟨first, later, rest, rest', eq, hfirst, hlater⟩ :=
        ih lexed.2 any (pos + x.text.length)
      have forwarding' : x.modernize.forwards = false := by
        cases x <;> exact forwarding
      refine ⟨splices pos x x.modernize ++ first, later, rest, rest', ?_, ?_, ?_⟩
      · rw [List.map_cons, script, eq, List.append_assoc]
      · rw [List.map_cons, tailOf_cons forwarding, tailOf_cons forwarding']
        exact (rewrites_splices (revised_modernize x) lexed.1 pos).append hfirst
      · rwa [tailOf_cons forwarding, List.length_append, ← Nat.add_assoc]

/-- Promotions stay when opacity calls are revised, also those that reach over such calls. -/
theorem forall₂_moved_promotions (lexed : Lexed ls) (ready : Bool) {earlier : List Splice}
    {u u' : Text} (h : Rewrites 0 earlier u u') :
    List.Forall₂ (Moved (earlier ++ script u.length ls (ls.map modernize)))
      (promotions u.length ready ls) (promotions u'.length ready (ls.map modernize)) := by
  induction ls generalizing ready earlier u u' with
  | nil => exact .nil
  | cons x ls ih =>
    have step := rewrites_splices (revised_modernize x) lexed.1 (0 + u.length)
    have onward := fun ready => ih lexed.2 ready (h.append step)
    rw [Nat.zero_add] at onward
    simp only [List.length_append, List.append_assoc] at onward
    rw [List.map_cons, script]
    by_cases promotes : ∃ before param, x = head before param ∧
        (ready = true ∧ param ≠ promotedParameter ∧ ls.any forwards = true)
    · obtain ⟨before, param, rfl, promotes⟩ := promotes
      have promotes' : ready = true ∧ param ≠ promotedParameter ∧
          (ls.map modernize).any forwards = true := by
        rwa [any_forwards_map_modernize]
      rw [modernize_head, promotions, if_pos promotes, promotions, if_pos promotes']
      refine .cons ⟨rfl, rfl, rfl, ?_, ?_⟩ (onward false)
      · have rest := rewrites_script (forall₂_revised_map revised_modernize ls) lexed.2
          (u.length + (head before param).text.length)
        rw [splices_self, List.nil_append]
        exact (h.shifted_eq ((Rewrites.refl _ _).append rest)).symm
      · obtain ⟨first, later, rest, rest', eq, hfirst, hlater⟩ := exists_rewrites_tailOf lexed.2
          promotes.2.2 (u.length + (head before param).text.length)
        have through := (Rewrites.refl u.length (head before param).text).append hfirst
        have whole := h.append (by rwa [Nat.zero_add])
        rw [List.nil_append] at whole
        have moved := whole.shifted_eq (by
          rw [List.length_append, List.length_append, ← Nat.add_assoc]
          exact hlater)
        rw [splices_self, List.nil_append, eq, ← List.append_assoc]
        convert moved.symm using 2
        · simp [Match.stop, Edit.source, text]
        · simp [Match.stop, Edit.source, text]
    · have promotes' : ¬∃ before param, x.modernize = head before param ∧
          (ready = true ∧ param ≠ promotedParameter ∧ (ls.map modernize).any forwards = true) := by
        rintro ⟨before, param, eq, h⟩
        rw [any_forwards_map_modernize] at h
        cases x <;> cases eq
        exact promotes ⟨before, param, rfl, h⟩
      have forwarding : x.modernize.forwards = x.forwards := by
        cases x <;> rfl
      rw [promotions_cons promotes, promotions_cons promotes', forwarding]
      exact onward _

/-- Within a copied part, all positions are shifted alike. -/
theorem shifted_add {earlier later : List Splice} {u u' v v' : Text} (w : Text)
    (h : Rewrites 0 earlier u u') (rest : Rewrites (u.length + w.length) later v v') {k : Nat}
    (le : k ≤ w.length) :
    shifted (earlier ++ later) (u.length + k) = (u'.length + k : Nat) := by
  have length : (w.take k).length = k := List.length_take_of_le le
  have front := h.append (Rewrites.refl (0 + u.length) (w.take k))
  have back : Rewrites (u ++ w.take k).length later (w.drop k ++ v) (w.drop k ++ v') := by
    refine (Rewrites.refl _ (w.drop k)).append ?_
    convert rest using 1
    simp
    omega
  have moved := front.shifted_eq back
  rwa [List.append_nil, List.length_append, List.length_append, length] at moved

theorem forall₂_moved_clauseMatches {S : List Splice} (clauses : List Text) (next : Option Char)
    {pos pos' : Nat} (h : ∀ k ≤ 1 + clauses.flatten.length + (if next = some ';' then 1 else 0),
      shifted S (pos + k) = (pos' + k : Nat)) :
    List.Forall₂ (Moved S) (clauseMatches pos clauses next) (clauseMatches pos' clauses next) := by
  induction clauses using everySecond.induct generalizing pos pos' with
  | case1 u w clauses ih =>
    refine .cons ⟨rfl, rfl, rfl, (h 0 (Nat.zero_le _)).symm, ?_⟩ (ih fun k hk => ?_)
    · have stop := h (1 + u.length) (by simp; omega)
      simpa [Match.stop, Edit.source, Nat.add_comm 1] using stop.symm
    · have inner := h (u.length + w.length + k) (by
        simp only [List.flatten_cons, List.length_append]
        omega)
      simpa [Nat.add_assoc] using inner
  | case2 clauses short =>
    cases clauses with
    | nil => exact .nil
    | cons u clauses =>
      cases clauses with
      | cons w clauses => exact absurd rfl (short u w clauses)
      | nil =>
        have after : (if next = some ';' then [';'] else []).length =
            if next = some ';' then 1 else 0 := by
          split <;> rfl
        have stop := h _ (Nat.le_refl _)
        refine .cons ⟨rfl, rfl, rfl, (h 0 (Nat.zero_le _)).symm, ?_⟩ .nil
        simpa [Match.stop, Edit.source, after, Nat.add_comm 1, Nat.add_assoc] using stop.symm

/-- An exchange that is not one of the removing pass. -/
def Exchanged (x y : Lexeme) : Prop :=
  Revised x y ∧ ∀ lead clauses, x = closing lead clauses → y = x

theorem eq_letter_of_head? (lexed : Lexed ls) (h : (render ls).head? = some ';') :
    ∃ ls', ls = letter ';' :: ls' := by
  cases ls with
  | nil => cases h
  | cons x ls =>
    obtain ⟨t, ht⟩ := exists_text lexed.1
    rw [render_cons, ht] at h
    have first : x.first = ';' := Option.some.inj h
    exact ⟨ls, by rw [eq_letter_of_mem lexed.1 (by simp [ht, first])]⟩

/-- Removals stay when calls are revised and heads promoted. -/
theorem forall₂_moved_removals (h : List.Forall₂ Exchanged ls ls') (lexed : Lexed ls)
    {earlier : List Splice} {u u' : Text} (prior : Rewrites 0 earlier u u') :
    List.Forall₂ (Moved (earlier ++ script u.length ls ls'))
      (removals u.length ls) (removals u'.length ls') := by
  induction h generalizing earlier u u' with
  | nil => exact .nil
  | @cons x y ls ls' hxy h ih =>
    have revised : List.Forall₂ Revised ls ls' := h.imp fun _ _ h => h.1
    have step := rewrites_splices hxy.1 lexed.1 (0 + u.length)
    have onward := ih lexed.2 (prior.append step)
    rw [Nat.zero_add] at onward
    simp only [List.length_append, List.append_assoc] at onward
    by_cases isClosing : ∃ lead clauses, x = closing lead clauses
    · obtain ⟨lead, clauses, rfl⟩ := isClosing
      obtain rfl := hxy.2 lead clauses rfl
      rw [script, removals, removals, head?_render (similar_of_revised revised lexed.2) lexed.2]
      refine List.rel_append (forall₂_moved_clauseMatches clauses _ fun k hk => ?_) onward
      rw [splices_self, List.nil_append, Nat.add_assoc, Nat.add_assoc]
      by_cases next : (render ls).head? = some ';'
      · -- The semicolon is copied as well.
        rw [if_pos next] at hk
        obtain ⟨ls, rfl⟩ := eq_letter_of_head? lexed.2 next
        cases revised with
        | cons hletter revised =>
          cases hletter
          have rest := rewrites_script revised lexed.2.2
            (u.length + ((closing lead clauses).text ++ [';']).length)
          have copied := shifted_add ((closing lead clauses).text ++ [';']) prior rest
            (k := lead.length + k) (by
              simp only [text, List.length_append, List.length_cons]
              omega)
          simpa [script, text, Nat.add_assoc] using copied
      · rw [if_neg next] at hk
        have rest := rewrites_script revised lexed.2 (u.length + (closing lead clauses).text.length)
        exact shifted_add (closing lead clauses).text prior rest (by
          simp only [text, List.length_append, List.length_cons]
          omega)
    · have ne : ∀ lead clauses, x ≠ closing lead clauses := fun lead clauses eq =>
        isClosing ⟨lead, clauses, eq⟩
      have ne' : ∀ lead clauses, y ≠ closing lead clauses := by
        cases hxy.1 with
        | same => exact ne
        | closing lead _ => exact absurd rfl (ne lead _)
        | _ =>
          intro lead clauses eq
          cases eq
      rw [script, removals_cons ne, removals_cons ne']
      exact onward

end Lexeme

end FlutterMend
