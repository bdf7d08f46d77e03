import FlutterMend.Proofs.Exchange

/-!
# Opacity calls on lexemes

Calls with a numeral stand at the lexemes for calls and nowhere else, with the deprecated opening or
the current one. So giving all calls of the one kind the opening of the other kind exchanges these
lexemes. The revision of a text makes the deprecated ones current.
-/

namespace FlutterMend

open Opacity SuperKey Pattern

/-- The finder of calls with an opening of the given kind. -/
def callOfAt? (current : Bool) : Text → Option Edit :=
  numeralCallAt? (callOpening current) (callOpening !current)

/-- The text with all calls of one kind exchanged for calls of the other kind. -/
def exchangeCalls (current : Bool) (t : Text) : Text := revise (callOfAt? current) t

/-- A call with an opening of the given kind stands somewhere in the text. -/
def HasCallOf (current : Bool) (t : Text) : Prop := ∃ i call, IsCallOf current (t.drop i) call

section CallOf

variable {current : Bool} {s : Text} {e : Edit}

theorem callOfAt?_sound (current : Bool) : SoundFinder (callOfAt? current) :=
  numeralCallAt?_sound _ _

theorem callOfAt?_eq_some_iff : callOfAt? current s = some e ↔ IsCallOf current s e :=
  numeralCallAt?_eq_some_iff

theorem exists_of_isCallOf (h : ∃ e, IsCallOf current s e) :
    ∃ rest, s = callOpening current ++ rest ∧ NumeralArgument rest := by
  obtain ⟨e, numeral, rest, form, rfl, rfl⟩ := h
  exact ⟨numeral ++ ')' :: rest, by simp [Edit.source], numeral, rest, isNumeral_iff.2 form, rfl⟩

theorem begins_of_isCallOf (h : ∃ e, IsCallOf current s e) : Begins s := by
  obtain ⟨rest, rfl, argument⟩ := exists_of_isCallOf h
  exact .call current argument

theorem first_of_isCallOf {c : Char} (h : ∃ e, IsCallOf current (c :: s) e) : c = '.' := by
  obtain ⟨rest, eq, -⟩ := exists_of_isCallOf h
  obtain ⟨name, opening, -⟩ := callOpening_eq current
  rw [opening] at eq
  exact (List.cons.inj eq).1

/-- No call begins in an argument. -/
theorem free_argument (current : Bool) {numeral : Text} (h : isNumeral numeral = true)
    (rest : Text) : Free (fun s => ∃ e, IsCallOf current s e) (numeral ++ [')']) rest := by
  refine .append ((free_of_numeral (isNumeralChar_of_isNumeral h)).mono
    fun _ => begins_of_isCallOf) (.of_forall_mem fun c hc s isCall => ?_)
  obtain rfl := List.mem_singleton.1 hc
  cases first_of_isCallOf isCall

/-- No call begins inside a call. -/
theorem free_tail_of_isCallOf (h : IsCallOf current (e.source ++ s) e) :
    Free (fun s => ∃ e, IsCallOf current s e) e.source.tail s := by
  obtain ⟨numeral, rest, form, eq, -⟩ := h
  obtain ⟨name, opening, isQuiet⟩ := callOpening_eq current
  have source : e.source = '.' :: ('w' :: name ++ (numeral ++ [')'])) := by
    simp [eq, Edit.source, opening]
  rw [source, List.tail_cons]
  refine .append ?_ (free_argument current (isNumeral_iff.2 form) s)
  exact (free_of_quiet (isQuiet _)).mono fun _ => begins_of_isCallOf

theorem free_callOfAt?_of_free {w rest : Text}
    (h : Free (fun s => ∃ e, IsCallOf current s e) w rest) :
    Free (fun s => ∃ e, callOfAt? current s = some e) w rest :=
  h.mono fun _ ⟨e, he⟩ => ⟨e, callOfAt?_eq_some_iff.1 he⟩

/-- A scan meets all calls of a text. -/
theorem mem_matchesFrom_callOfAt?_iff {pos : Nat} {m : Match} :
    m ∈ matchesFrom (callOfAt? current) pos s ↔
      ∃ i, m.start = pos + i ∧ IsCallOf current (s.drop i) m.edit := by
  rw [mem_matchesFrom_iff (callOfAt?_sound current) fun e s found =>
    free_callOfAt?_of_free (free_tail_of_isCallOf (callOfAt?_eq_some_iff.1 found))]
  simp only [callOfAt?_eq_some_iff]

end CallOf

namespace Lexeme

variable {x : Lexeme} {s : Text} {ls : List Lexeme} {current : Bool}

theorem free_isCallOf (current : Bool) (fits : x.Fits s) :
    ∃ w, x.text = x.first :: w ∧ Free (fun s => ∃ e, IsCallOf current s e) w s :=
  free_tail (d := '.') (by decide) (fun _ => begins_of_isCallOf) (fun _ _ => first_of_isCallOf) fits

/-- Calls begin at the lexemes for them. -/
theorem exists_isCallOf_iff (fits : x.Fits s) :
    (∃ e, IsCallOf current (x.text ++ s) e) ↔ x = call current := by
  constructor
  · intro h
    obtain ⟨rest, eq, -⟩ := exists_of_isCallOf h
    obtain ⟨name, opening, -⟩ := callOpening_eq current
    cases x with
    | letter c => exact absurd (begins_of_isCallOf h) fits
    | call other =>
      cases current <;> cases other
      · rfl
      · cases eq
      · cases eq
      · rfl
    | head before param =>
      obtain ⟨w, front, -⟩ := exists_head_text fits.1 fits.2
      rw [text, front, opening] at eq
      cases eq
    | closing lead clauses =>
      rw [opening] at eq
      obtain rfl | ⟨blanks, rfl, -⟩ := fits.1 <;> cases eq
  · rintro rfl
    obtain ⟨numeral, rest, hnumeral, rfl⟩ := fits
    refine ⟨_, numeral, rest, isNumeral_iff.1 hnumeral, rfl, ?_⟩
    simp [Edit.source, text]

/-- The lexeme for a call gets an opening of the given kind. -/
def reopen (current : Bool) : Lexeme → Lexeme
  | call _ => call current
  | x => x

theorem modernize_eq (x : Lexeme) : x.modernize = x.reopen true := by
  cases x <;> rfl

theorem similar_reopen (fits : x.Fits s) (current : Bool) : Similar x (x.reopen current) := by
  cases x with
  | call other => exact .call other current
  | _ => exact .refl fits

theorem reopen_of_ne (h : x ≠ call !current) : x.reopen current = x := by
  cases x with
  | call other => cases current <;> cases other <;> simp_all [reopen]
  | _ => rfl

theorem modernize_of_ne (h : x ≠ call false) : x.modernize = x := by
  rw [modernize_eq, reopen_of_ne h]

theorem lexed_map_reopen (lexed : Lexed ls) (current : Bool) : Lexed (ls.map (reopen current)) := by
  refine lexed_of_similar ?_ lexed
  induction ls with
  | nil => exact .nil
  | cons x ls ih => exact .cons (similar_reopen lexed.1 current) (ih lexed.2)

theorem map_reopen_of_not_mem (h : call (!current) ∉ ls) : ls.map (reopen current) = ls :=
  (List.map_congr_left fun _ mem => reopen_of_ne fun eq => h (eq ▸ mem)).trans (List.map_id ls)

/-- Exchanging the openings of calls exchanges their lexemes. -/
theorem exchangeCalls_render (lexed : Lexed ls) (current : Bool) :
    exchangeCalls current (render ls) = render (ls.map (reopen !current)) := by
  rw [exchangeCalls]
  induction ls with
  | nil => rfl
  | cons x ls ih =>
    rw [List.map_cons, render_cons, render_cons, ← ih lexed.2]
    by_cases isCall : x = call current
    · -- The scan resumes after the argument, but nothing is found in it.
      subst isCall
      obtain ⟨numeral, rest, hnumeral, hrest⟩ := lexed.1
      let e : Edit := { before := [], removed := callOpening current,
                        inserted := callOpening !current, after := numeral ++ [')'] }
      have source : (call current).text ++ render ls = e.source ++ rest := by
        simp [hrest, e, Edit.source, text]
      have found : callOfAt? current (e.source ++ rest) = some e :=
        callOfAt?_eq_some_iff.2 ⟨numeral, rest, isNumeral_iff.1 hnumeral, rfl, rfl⟩
      have argument := revise_append_of_free
        (free_callOfAt?_of_free (free_argument current hnumeral rest))
      rw [source, revise_append (callOfAt?_sound current _ _ found).2 found, hrest]
      simp only [List.append_assoc, List.singleton_append] at argument
      simp [argument, e, Edit.result, reopen, text]
    · obtain ⟨w, hw, free⟩ := free_isCallOf current lexed.1
      have front : ¬∃ e, IsCallOf current (x.first :: (w ++ render ls)) e := by
        rwa [← List.cons_append, ← hw, exists_isCallOf_iff lexed.1]
      rw [reopen_of_ne (by simpa using isCall)]
      refine revise_append_of_free (free_callOfAt?_of_free ?_)
      rw [hw]
      exact ⟨front, free⟩

theorem hasCallOf_render_iff (current : Bool) (lexed : Lexed ls) :
    HasCallOf current (render ls) ↔ call current ∈ ls := by
  constructor
  · rintro ⟨i, isCall⟩
    obtain ⟨done, x, rest, rfl, -, here⟩ := exists_append_of_drop (d := '.') (by decide)
      (fun _ => begins_of_isCallOf) (fun _ _ => first_of_isCallOf) lexed isCall
    obtain rfl := (exists_isCallOf_iff lexed.of_append.1).1 here
    simp
  · intro mem
    obtain ⟨done, rest, rfl⟩ := List.append_of_mem mem
    refine ⟨(render done).length, ?_⟩
    rw [render_append, List.drop_left]
    exact (exists_isCallOf_iff lexed.of_append.1).2 rfl

theorem splices_modernize (pos : Nat) (x : Lexeme) :
    splices pos x x.modernize =
      if x = call false then
        [{ start := pos, removed := callOpening false, inserted := callOpening true }]
      else [] := by
  split
  · next h =>
    subst h
    rfl
  · next h => rw [modernize_of_ne h, splices_self]

/-- A deprecated opening is replaced wherever an opacity call stands, and nowhere else. -/
theorem mem_script_modernize (lexed : Lexed ls) (pos : Nat) (e : Splice) :
    e ∈ script pos ls (ls.map modernize) ↔
      pos ≤ e.start ∧ e.removed = callOpening false ∧ e.inserted = callOpening true ∧
        ∃ d, IsCall ((render ls).drop (e.start - pos)) d := by
  rw [mem_script_map_iff]
  constructor
  · rintro ⟨done, x, rest, rfl, mem⟩
    rw [splices_modernize] at mem
    split at mem
    · next isCall =>
      obtain rfl := List.mem_singleton.1 mem
      refine ⟨Nat.le_add_right _ _, rfl, rfl, ?_⟩
      rw [Nat.add_sub_cancel_left, render_append, List.drop_left]
      exact (exists_isCallOf_iff lexed.of_append.1).2 isCall
    · cases mem
  · rintro ⟨le, removed, inserted, isCall⟩
    obtain ⟨done, x, rest, rfl, start, here⟩ := exists_append_of_drop
      (P := fun s => ∃ e, IsCallOf false s e) (d := '.') (by decide)
      (fun _ => begins_of_isCallOf) (fun _ _ => first_of_isCallOf) lexed isCall
    refine ⟨done, x, rest, rfl, ?_⟩
    rw [splices_modernize, if_pos ((exists_isCallOf_iff lexed.of_append.1).1 here), ← start,
      Nat.add_sub_cancel' le, ← removed, ← inserted]
    exact List.mem_cons_self

theorem opacity_revise_render (lexed : Lexed ls) :
    Opacity.revise (render ls) = render (ls.map modernize) := by
  rw [List.map_congr_left fun x _ => modernize_eq x]
  exact exchangeCalls_render lexed false

end Lexeme

end FlutterMend
