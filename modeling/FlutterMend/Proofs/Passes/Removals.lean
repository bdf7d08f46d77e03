import FlutterMend.Proofs.Exchange

/-!
# Removals on lexemes

Base calls are removed from closings. A removed base call takes along the parenthesis that the next
one would have to begin after, so every other one stays.
-/

namespace FlutterMend

open Opacity SuperKey Pattern

namespace Lexeme

variable {x : Lexeme} {s : Text} {ls : List Lexeme}

/-- The matches of the removing pass among the clauses of a closing whose parenthesis is at a
position. -/
def clauseMatches : Nat → List Text → Option Char → List Match
  | _, [], _ => []
  | pos, [u], next =>
    let edit : Edit := { before := [')'], removed := u, inserted := [],
                         after := if next = some ';' then [';'] else [] }
    [{ start := pos, edit }]
  | pos, u :: w :: clauses, next =>
    let edit : Edit := { before := [')'], removed := u, inserted := [], after := [] }
    { start := pos, edit } :: clauseMatches (pos + u.length + w.length) clauses next

/-- The matches of the removing pass in the text of lexemes. -/
def removals : Nat → List Lexeme → List Match
  | _, [] => []
  | pos, closing lead clauses :: ls =>
    clauseMatches (pos + lead.length) clauses (render ls).head? ++
      removals (pos + (closing lead clauses).text.length) ls
  | pos, x :: ls => removals (pos + x.text.length) ls

theorem first_of_isRemoval {c : Char} {s : Text} (h : ∃ e, IsRemoval (c :: s) e) : c = ')' := by
  obtain ⟨_, clause, rest, -, -, eq⟩ := h
  exact (List.cons.inj eq).1

theorem free_isRemoval_of_forall_ne {w rest : Text} (h : ∀ c ∈ w, c ≠ ')') :
    Free (fun s => ∃ e, IsRemoval s e) w rest :=
  .of_forall_mem fun c hc _ isMatch => h c hc (first_of_isRemoval isMatch)

/-- A base call after a parenthesis is a match, with what of a semicolon stands after it. -/
theorem leftmostMatches_meet {u rest : Text} {pos : Nat} {found : List Match} (after : Text)
    (accepted : baseCall.Accepts u)
    (semicolon : (if (after ++ rest).head? = some ';' then [';'] else []) = after)
    (h : LeftmostMatches IsRemoval (pos + 1 + u.length + after.length) rest found) :
    LeftmostMatches IsRemoval pos (')' :: (u ++ (after ++ rest)))
      ({ start := pos, edit := { before := [')'], removed := u, inserted := [], after } } ::
        found) := by
  let edit : Edit := { before := [')'], removed := u, inserted := [], after }
  have split : ')' :: (u ++ (after ++ rest)) = edit.source ++ rest := by
    simp [edit, Edit.source]
  have length : pos + edit.source.length = pos + 1 + u.length + after.length := by
    simp [edit, Edit.source]
    omega
  rw [split]
  refine .meet (by simp [edit, Edit.source]) ⟨u, after ++ rest, accepted, ?_, split.symm⟩ ?_
  · rw [semicolon]
  · rwa [length]

theorem head?_ne_semicolon {stem : Text} (accepted : baseCall.Accepts (stem ++ [')']))
    (rest : Text) : (stem ++ ')' :: rest).head? ≠ some ';' := by
  have absent := semicolon_not_mem_baseCall accepted
  intro eq
  cases stem with
  | nil => cases eq
  | cons c stem =>
    cases eq
    exact absent List.mem_cons_self

theorem leftmostMatches_clauses {clauses : List Text} {pos : Nat} {found : List Match}
    (all : ∀ w ∈ clauses, baseCall.Accepts w)
    (last : ∀ w rest, baseCall.Accepts w → s ≠ w ++ rest)
    (h : LeftmostMatches IsRemoval (pos + 1 + clauses.flatten.length) s found) :
    LeftmostMatches IsRemoval pos (')' :: (clauses.flatten ++ s))
      (clauseMatches pos clauses s.head? ++ found) := by
  induction clauses using everySecond.induct generalizing pos with
  | case1 u w clauses ih =>
    obtain ⟨stem, rfl, chars⟩ := exists_of_baseCall_accepts (all w (by simp))
    have next := head?_ne_semicolon (all (stem ++ [')']) (by simp)) (clauses.flatten ++ s)
    have later : LeftmostMatches IsRemoval
        (pos + u.length + (stem ++ [')']).length + 1 + clauses.flatten.length) s found := by
      convert h using 1
      simp
      omega
    have rest := ih (fun v hv => all v (by simp [hv])) later
    have split : ')' :: ((u :: (stem ++ [')']) :: clauses).flatten ++ s) =
        ')' :: (u ++ ([] ++ (stem ++ ')' :: (clauses.flatten ++ s)))) := by
      simp
    rw [split]
    refine leftmostMatches_meet [] (all u (by simp)) (if_neg next) (.append_of_free ?_ ?_)
    · exact free_isRemoval_of_forall_ne fun c hc => (chars c hc).2.1
    · have length : pos + 1 + u.length + 0 + stem.length =
          pos + u.length + (stem ++ [')']).length := by
        rw [List.length_append, List.length_singleton]
        omega
      rw [List.length_nil, length]
      exact rest
  | case2 clauses short =>
    cases clauses with
    | nil =>
      refine .skip ?_ h
      rintro e ⟨clause, rest, accepted, -, eq⟩
      exact last clause rest accepted (List.cons.inj eq).2
    | cons u clauses =>
      cases clauses with
      | cons w clauses => exact absurd rfl (short u w clauses)
      | nil =>
        rw [List.flatten_singleton] at h ⊢
        by_cases next : s.head? = some ';'
        · obtain ⟨rest, rfl⟩ := List.head?_eq_some_iff.1 next
          have scan := h.tail fun e isMatch => by cases first_of_isRemoval ⟨e, isMatch⟩
          exact leftmostMatches_meet [';'] (all u (by simp)) rfl scan
        · rw [clauseMatches, if_neg next]
          exact leftmostMatches_meet [] (all u (by simp)) (if_neg next) h

theorem removals_cons {pos : Nat} (ne : ∀ lead clauses, x ≠ closing lead clauses) :
    removals pos (x :: ls) = removals (pos + x.text.length) ls := by
  cases x with
  | closing lead clauses => exact absurd rfl (ne lead clauses)
  | _ => rfl

theorem leftmostMatches_removals (lexed : Lexed ls) (pos : Nat) :
    LeftmostMatches IsRemoval pos (render ls) (removals pos ls) := by
  induction ls generalizing pos with
  | nil => exact .done pos
  | cons x ls ih =>
    by_cases h : ∃ lead clauses, x = closing lead clauses
    · obtain ⟨lead, clauses, rfl⟩ := h
      rw [render_cons, text, List.append_assoc, List.cons_append, removals]
      refine .append_of_free ?_ (leftmostMatches_clauses lexed.1.2.1 lexed.1.2.2 ?_)
      · exact free_isRemoval_of_forall_ne (forall_ne_of_isLead lexed.1.1)
      · convert ih lexed.2 (pos + (closing lead clauses).text.length) using 1
        simp [text]
        omega
    · have ne : ∀ lead clauses, x ≠ closing lead clauses := fun lead clauses eq =>
        h ⟨lead, clauses, eq⟩
      rw [removals_cons ne]
      exact .append_of_free (free_isRemoval_of_forall_ne (forall_ne_of_ne_closing lexed.1 ne))
        (ih lexed.2 _)

theorem map_splice_clauseMatches (pos : Nat) (clauses : List Text) (next : Option Char) :
    (clauseMatches pos clauses next).map Match.splice = clauseSplices (pos + 1) clauses := by
  fun_induction clauseMatches pos clauses next with
  | case1 => rfl
  | case2 => rfl
  | case3 pos next u w clauses edit ih =>
    rw [List.map_cons, ih, clauseSplices, Nat.add_right_comm pos 1, Nat.add_right_comm _ 1]
    rfl

theorem map_splice_removals (pos : Nat) (ls : List Lexeme) :
    (removals pos ls).map Match.splice = script pos ls (ls.map shorten) := by
  induction ls generalizing pos with
  | nil => rfl
  | cons x ls ih =>
    cases x with
    | closing lead clauses =>
      rw [removals, List.map_append, ih, map_splice_clauseMatches, List.map_cons, script, shorten,
        splices_closing]
    | _ => simp [removals, script, shorten, ih]

theorem scriptFrom_removalAt? (lexed : Lexed ls) (pos : Nat) :
    scriptFrom removalAt? pos (render ls) = script pos ls (ls.map shorten) := by
  have scan := (leftmostMatches_removals lexed pos).map_splice removalAt?_sound
    (fun _ _ => exists_isRemoval) (fun _ _ => exists_removalAt?)
  rw [← scan, map_splice_removals]

/-- The removing pass shortens the closings. -/
theorem removeBaseCalls_render (lexed : Lexed ls) :
    removeBaseCalls (render ls) = render (ls.map shorten) := by
  rw [removeBaseCalls, revise_eq_carryOutFrom removalAt?_sound 0, scriptFrom_removalAt? lexed]
  exact (rewrites_script (forall₂_revised_map revised_shorten ls) lexed 0).carryOutFrom_eq

end Lexeme

end FlutterMend
