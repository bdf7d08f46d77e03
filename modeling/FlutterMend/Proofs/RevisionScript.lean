import FlutterMend.Proofs.Passes.Calls
import FlutterMend.Proofs.Passes.Moved
import FlutterMend.Proofs.RuleList

/-!
# One script for the default rules

The default rules revise a text in three passes, each of which reads what the pass before it has
left. Their matches are all there in the text itself, though, and they do not meet. So the passes
come to the same as one script, which makes the replacements of all matches in the text at once.
-/

namespace FlutterMend

open Opacity SuperKey

/-- The replacements of the default rules, by their places in the text itself. The later passes meet
the same matches in the text that the earlier ones have left. -/
structure IsRevisionScript (t : Text) (calls : List Splice) (promotions removals : List Match)
    (script : List Splice) : Prop where
  calls_iff : ∀ e, e ∈ calls ↔
    e.removed = ".withOpacity(".toList ∧ e.inserted = ".withValues(alpha: ".toList ∧
      ∃ call, IsCall (t.drop e.start) call
  promotions_leftmost : LeftmostMatches IsPromotion 0 t promotions
  removals_leftmost : LeftmostMatches IsRemoval 0 t removals
  isScriptOf : IsScriptOf script t
  mem_iff : ∀ e, e ∈ script ↔
    e ∈ calls ∨ e ∈ promotions.map Match.splice ∨ e ∈ removals.map Match.splice
  carryOut_eq : carryOut script t = (Revision.ofRules Rule.defaults t).text
  /-- The base call at the end of a promotion is removed. -/
  promotion_closing : ∀ p ∈ promotions, ∃ r ∈ removals, r.splice.stop = p.stop ∧
    ∃ tail, p.edit.after = tail ++ ')' :: r.edit.removed
  promotions_moved : IsScriptOf calls t ∧ carryOut calls t = Opacity.revise t ∧
    ∃ found, LeftmostMatches IsPromotion 0 (Opacity.revise t) found ∧
      List.Forall₂ (Moved calls) promotions found
  removals_moved : ∃ earlier, IsScriptOf earlier t ∧
    (∀ e, e ∈ earlier ↔ e ∈ calls ∨ e ∈ promotions.map Match.splice) ∧
    carryOut earlier t = promote (Opacity.revise t) ∧
    ∃ found, LeftmostMatches IsRemoval 0 (promote (Opacity.revise t)) found ∧
      List.Forall₂ (Moved earlier) removals found

/-- Matches and replacements are determined by the text. -/
theorem IsRevisionScript.unique {t : Text} {calls calls' script script' : List Splice}
    {promotions promotions' removals removals' : List Match}
    (h : IsRevisionScript t calls promotions removals script)
    (h' : IsRevisionScript t calls' promotions' removals' script') :
    calls = calls' ∧ promotions = promotions' ∧ removals = removals' ∧ script = script' := by
  obtain rfl : calls = calls' := by
    refine h.promotions_moved.1.eq_of_mem_iff h'.promotions_moved.1 fun e => ?_
    rw [h.calls_iff, h'.calls_iff]
  obtain rfl : promotions = promotions' := by
    refine h.promotions_leftmost.unique (fun s e e' isPromotion isPromotion' => ?_)
      h'.promotions_leftmost
    have found := promotionAt?_eq_some_iff.2 isPromotion
    exact Option.some.inj (found.symm.trans (promotionAt?_eq_some_iff.2 isPromotion'))
  obtain rfl : removals = removals' :=
    h.removals_leftmost.unique (fun _ _ _ isRemoval isRemoval' => isRemoval.unique isRemoval')
      h'.removals_leftmost
  refine ⟨rfl, rfl, rfl, h.isScriptOf.eq_of_mem_iff h'.isScriptOf fun e => ?_⟩
  rw [h.mem_iff, h'.mem_iff]

namespace Lexeme

variable {ls : List Lexeme}

theorem forall₂_exchanged (ready : Bool) (ls : List Lexeme) :
    List.Forall₂ Exchanged ls ((promote ready ls).map modernize) := by
  fun_induction promote ready ls with
  | case1 => exact .nil
  | case2 ready before param ls h ih =>
    refine .cons ⟨.head before h.2.1, ?_⟩ ih
    intro lead clauses eq
    cases eq
  | case3 ready before param ls h ih => exact .cons ⟨.same _, fun _ _ _ => rfl⟩ ih
  | case4 ready x ls _ ih =>
    refine .cons ⟨revised_modernize x, ?_⟩ ih
    rintro lead clauses rfl
    rfl

theorem mem_removals_cons {r : Match} {x : Lexeme} {pos : Nat}
    (mem : r ∈ removals (pos + x.text.length) ls) : r ∈ removals pos (x :: ls) := by
  cases x with
  | closing lead clauses => exact List.mem_append_right _ mem
  | _ => exact mem

theorem exists_first_clauseMatch (pos : Nat) (u : Text) (clauses : List Text)
    (next : Option Char) : ∃ r ∈ clauseMatches pos (u :: clauses) next,
      r.edit.removed = u ∧ r.splice.stop = pos + 1 + u.length := by
  cases clauses with
  | nil => exact ⟨_, List.mem_cons_self, rfl, rfl⟩
  | cons w clauses => exact ⟨_, List.mem_cons_self, rfl, rfl⟩

theorem exists_removal_of_any (any : ls.any forwards = true) (pos : Nat) :
    ∃ r ∈ removals pos ls, r.splice.stop = pos + (tailOf ls).length ∧
      ∃ tail, tailOf ls = tail ++ ')' :: r.edit.removed := by
  induction ls generalizing pos with
  | nil => cases any
  | cons x ls ih =>
    cases forwarding : x.forwards with
    | true =>
      obtain ⟨c, lead, u, clauses, rfl⟩ := exists_of_forwards forwarding
      obtain ⟨r, mem, removed, stop⟩ := exists_first_clauseMatch (pos + (c :: lead).length) u
        clauses (render ls).head?
      refine ⟨r, List.mem_append_left _ mem, ?_, c :: lead, by rw [removed]; rfl⟩
      rw [stop, tailOf]
      simp
      omega
    | false =>
      rw [List.any_cons, forwarding, Bool.false_or] at any
      obtain ⟨r, mem, stop, tail, eq⟩ := ih any (pos + x.text.length)
      refine ⟨r, mem_removals_cons mem, ?_, x.text ++ tail, ?_⟩
      · rw [stop, tailOf_cons forwarding, List.length_append, Nat.add_assoc]
      · rw [tailOf_cons forwarding, eq, List.append_assoc]

theorem exists_removal_of_promotion {pos : Nat} {ready : Bool} {p : Match}
    (mem : p ∈ promotions pos ready ls) :
    ∃ r ∈ removals pos ls, r.splice.stop = p.stop ∧
      ∃ tail, p.edit.after = tail ++ ')' :: r.edit.removed := by
  fun_induction promotions pos ready ls with
  | case1 => cases mem
  | case2 pos ready before param ls later h edit ih =>
    rcases List.mem_cons.1 mem with rfl | mem
    · obtain ⟨r, mem, stop, tail, eq⟩ := exists_removal_of_any h.2.2 later
      refine ⟨r, mem_removals_cons mem, ?_, ',' :: tail, congrArg (List.cons ',') eq⟩
      rw [stop]
      simp [later, edit, Match.stop, Edit.source, text]
      omega
    · obtain ⟨r, mem, stop⟩ := ih mem
      exact ⟨r, mem_removals_cons mem, stop⟩
  | case3 pos ready before param ls later h ih =>
    obtain ⟨r, mem, stop⟩ := ih mem
    exact ⟨r, mem_removals_cons mem, stop⟩
  | case4 pos ready x ls _ ih =>
    obtain ⟨r, mem, stop⟩ := ih mem
    exact ⟨r, mem_removals_cons mem, stop⟩

end Lexeme

open Lexeme in
theorem isRevisionScript_of_lexed {ls : List Lexeme} (lexed : Lexed ls) :
    IsRevisionScript (render ls) (script 0 ls (ls.map modernize)) (promotions 0 true ls)
      (removals 0 ls) (script 0 ls ((Lexeme.promote true ls).map settle)) := by
  have modernized := forall₂_revised_map revised_modernize ls
  have lexed₁ := lexed_of_revised modernized lexed
  have calls := rewrites_script modernized lexed 0
  have modernizedToo := forall₂_revised_map_promote revised_modernize (fun _ _ => rfl) true ls
  have promoted := rewrites_script modernizedToo lexed 0
  have settled := rewrites_script
    (forall₂_revised_map_promote revised_settle (fun _ _ => rfl) true ls) lexed 0
  have second : SuperKey.promote (Opacity.revise (render ls)) =
      render ((Lexeme.promote true ls).map modernize) := by
    rw [opacity_revise_render lexed, promote_render lexed₁, promote_map_modernize]
  have start := Rewrites.nil 0
  exact
    { calls_iff := fun e => (mem_script_modernize lexed 0 e).trans (and_iff_right (Nat.zero_le _))
      promotions_leftmost := leftmostMatches_promotions lexed 0
      removals_leftmost := leftmostMatches_removals lexed 0
      isScriptOf := settled.isScriptOf
      mem_iff := fun e => by
        rw [map_splice_promotions, map_splice_removals, mem_script_settle_promote]
      carryOut_eq := by
        have lexed₂ := lexed_of_revised (forall₂_revised_promote true _) lexed₁
        rw [carryOut, settled.carryOutFrom_eq, Revision.text_ofRules]
        change _ = removeBaseCalls (SuperKey.promote (Opacity.revise (render ls)))
        rw [second, removeBaseCalls_render (promote_map_modernize true ls ▸ lexed₂), List.map_map]
        rfl
      promotion_closing := fun p mem => exists_removal_of_promotion mem
      promotions_moved := by
        refine ⟨calls.isScriptOf, ?_, promotions 0 true (ls.map modernize), ?_,
          forall₂_moved_promotions lexed true start⟩
        · rw [carryOut, calls.carryOutFrom_eq, opacity_revise_render lexed]
        · rw [opacity_revise_render lexed]
          exact leftmostMatches_promotions lexed₁ 0
      removals_moved := by
        refine ⟨_, promoted.isScriptOf, fun e => ?_, ?_, removals 0 _, ?_,
          forall₂_moved_removals (forall₂_exchanged true ls) lexed start⟩
        · rw [map_splice_promotions, mem_script_map_promote fun _ _ => rfl]
        · rw [carryOut, promoted.carryOutFrom_eq, second]
        · rw [second]
          exact leftmostMatches_removals (lexed_of_revised modernizedToo lexed) 0 }

/-- The default rules carry out one script of the text, and there is no other such script. -/
theorem exists_isRevisionScript (t : Text) :
    ∃ calls promotions removals script, IsRevisionScript t calls promotions removals script ∧
      ∀ calls' promotions' removals' script',
        IsRevisionScript t calls' promotions' removals' script' →
        calls' = calls ∧ promotions' = promotions ∧ removals' = removals ∧ script' = script := by
  obtain ⟨ls, lexed, rfl⟩ := exists_lexed t
  have isScript := isRevisionScript_of_lexed lexed
  exact ⟨_, _, _, _, isScript, fun _ _ _ _ other => other.unique isScript⟩

end FlutterMend
