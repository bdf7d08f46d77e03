import FlutterMend.Proofs.RuleList

/-!
# Taking a revision of opacity calls back

Giving current calls the deprecated opening undoes a revision, as long as the text had no current
call before. For a call of one kind can only come from a call of the other kind: an opening never
joins the text next to it to a call that was not there.
-/

namespace FlutterMend

open Opacity

/-- The text with all current calls made deprecated ones. -/
def Opacity.restore (t : Text) : Text := exchangeCalls true t

variable {current : Bool} {t : Text}

/-- All calls of the one kind are exchanged, and nothing else. -/
theorem exists_exchangeCalls (current : Bool) (t : Text) :
    ∃ calls : List Match, (∀ m, m ∈ calls ↔ IsCallOf current (t.drop m.start) m.edit) ∧
      IsScriptOf (calls.map Match.exchange) t ∧
      carryOut (calls.map Match.exchange) t = exchangeCalls current t := by
  have rewrites := rewrites_matchesFrom (callOfAt?_sound current) 0 t
  refine ⟨_, fun m => ?_, rewrites.isScriptOf, rewrites.carryOutFrom_eq⟩
  simp [mem_matchesFrom_callOfAt?_iff]

theorem hasCallOf_iff : HasCallOf current t ↔ matchesFrom (callOfAt? current) 0 t ≠ [] := by
  constructor
  · rintro ⟨i, e, isCall⟩ none
    have mem : { start := i, edit := e } ∈ matchesFrom (callOfAt? current) 0 t :=
      mem_matchesFrom_callOfAt?_iff.2 ⟨i, by simp, isCall⟩
    rw [none] at mem
    cases mem
  · intro ne
    obtain ⟨m, mem⟩ := List.exists_mem_of_ne_nil _ ne
    obtain ⟨i, -, isCall⟩ := mem_matchesFrom_callOfAt?_iff.1 mem
    exact ⟨i, m.edit, isCall⟩

instance (current : Bool) (t : Text) : Decidable (HasCallOf current t) :=
  decidable_of_iff _ hasCallOf_iff.symm

namespace Lexeme

theorem reopen_reopen (current other : Bool) (x : Lexeme) :
    (x.reopen other).reopen current = x.reopen current := by
  cases x <;> rfl

end Lexeme

open Lexeme in
/-- An exchange is taken back by the other one if there is nothing else to take back. -/
theorem exchangeCalls_exchangeCalls (current : Bool) (h : ¬HasCallOf (!current) t) :
    exchangeCalls (!current) (exchangeCalls current t) = t := by
  obtain ⟨ls, lexed, rfl⟩ := exists_lexed t
  have absent : call (!current) ∉ ls := fun mem => h ((hasCallOf_render_iff _ lexed).2 mem)
  have back : (ls.map (reopen !current)).map (reopen current) = ls := by
    rw [List.map_map]
    exact (List.map_congr_left fun x _ => reopen_reopen current (!current) x).trans
      (map_reopen_of_not_mem absent)
  rw [exchangeCalls_render lexed, exchangeCalls_render (lexed_map_reopen lexed _), Bool.not_not,
    back]

/-- A revision of opacity calls can be taken back in a text that had no current call, and it leads
back to any text that has no deprecated call. -/
theorem opacity_restores :
    (∀ u, ∃ calls : List Match, (∀ m, m ∈ calls ↔ IsCallOf true (u.drop m.start) m.edit) ∧
      IsScriptOf (calls.map Match.exchange) u ∧
      carryOut (calls.map Match.exchange) u = restore u) ∧
    (∀ t, ¬HasCallOf true t → restore (Rule.opacity.apply t).text = t) ∧
    Set.InjOn (fun t => (Rule.opacity.apply t).text) {t | ¬HasCallOf true t} ∧
    ∀ u, ¬HasCallOf false u → (Rule.opacity.apply (restore u)).text = u := by
  have restored (t : Text) (h : ¬HasCallOf true t) : restore (Rule.opacity.apply t).text = t :=
    exchangeCalls_exchangeCalls false h
  refine ⟨exists_exchangeCalls true, restored, ?_, fun u h => ?_⟩
  · have back : Set.LeftInvOn restore (fun t => (Rule.opacity.apply t).text)
        {t | ¬HasCallOf true t} := restored
    exact back.injOn
  · exact exchangeCalls_exchangeCalls true h

/-- A text in which the beginning of a current call stands before a deprecated call. -/
def cutShort : Text := ".withValues(alpha: 1.withOpacity(.5) + .withOpacity(2.)".toList

theorem opacity_restores_cutShort :
    ¬HasCallOf true cutShort ∧ HasCallOf false cutShort ∧
      restore (Rule.opacity.apply cutShort).text = cutShort ∧
      ¬HasCallOf false (Rule.opacity.apply cutShort).text ∧
      (Rule.opacity.apply (restore (Rule.opacity.apply cutShort).text)).text =
        (Rule.opacity.apply cutShort).text := by
  obtain ⟨-, restored, -, revised⟩ := opacity_restores
  have absent : ¬HasCallOf true cutShort := by decide +kernel
  have absent' : ¬HasCallOf false (Rule.opacity.apply cutShort).text := by decide +kernel
  exact ⟨absent, by decide +kernel, restored _ absent, absent', revised _ absent'⟩

end FlutterMend
