import FlutterMend.Proofs.Exchange

/-!
# Promotions on lexemes

A promotion begins at a head with a key parameter and goes on through the first base call of the
nearest forwarding closing. The scan of the promoting pass is therefore read off the lexemes of a
text.
-/

namespace FlutterMend

open Opacity SuperKey Pattern

namespace Lexeme

variable {x : Lexeme} {s : Text} {ls : List Lexeme}

/-- The text through the first base call of the first forwarding closing. -/
def tailOf : List Lexeme → Text
  | [] => []
  | closing (c :: lead) (w :: _) :: _ => c :: lead ++ ')' :: w
  | x :: ls => x.text ++ tailOf ls

/-- The matches of the promoting pass in the text of lexemes. -/
def promotions : Nat → Bool → List Lexeme → List Match
  | _, _, [] => []
  | pos, ready, head before param :: ls =>
    let later := pos + (head before param).text.length
    if ready ∧ param ≠ promotedParameter ∧ ls.any forwards then
      let edit : Edit := { before, removed := param, inserted := promotedParameter,
                           after := ',' :: tailOf ls }
      { start := pos, edit } :: promotions later false ls
    else promotions later ready ls
  | pos, ready, x :: ls => promotions (pos + x.text.length) (ready || x.forwards) ls

theorem exists_of_standsIn {s : Text} (h : StandsIn bracedBaseCall s) :
    ∃ blanks clause rest, s = '}' :: (blanks ++ ')' :: (clause ++ rest)) ∧
      (∀ c ∈ blanks, CharClass.whiteSpace.contains c = true) ∧ baseCall.Accepts clause := by
  obtain ⟨_, rest, accepted, rfl⟩ := h
  obtain ⟨blanks, clause, rfl, all, accepted⟩ := bracedBaseCall_accepts_iff.1 accepted
  exact ⟨blanks, clause, rest, by simp, all, accepted⟩

theorem begins_of_standsIn {s : Text} (h : StandsIn bracedBaseCall s) : Begins s := by
  obtain ⟨blanks, clause, rest, rfl, all, -⟩ := exists_of_standsIn h
  exact @Begins.closing ('}' :: blanks) _ (.inr ⟨blanks, rfl, all⟩)

theorem first_of_standsIn {c : Char} {s : Text} (h : StandsIn bracedBaseCall (c :: s)) :
    c = '}' := by
  obtain ⟨blanks, clause, rest, eq, -⟩ := exists_of_standsIn h
  exact (List.cons.inj eq).1

theorem free_standsIn (fits : x.Fits s) :
    ∃ w, x.text = x.first :: w ∧ Free (StandsIn bracedBaseCall) w s :=
  free_tail (d := '}') (by decide) (fun _ => begins_of_standsIn) (fun _ _ => first_of_standsIn) fits

theorem blanks_unique {blanks blanks' s s' : Text}
    (all : ∀ c ∈ blanks, CharClass.whiteSpace.contains c = true)
    (all' : ∀ c ∈ blanks', CharClass.whiteSpace.contains c = true)
    (eq : blanks ++ ')' :: s = blanks' ++ ')' :: s') : blanks = blanks' ∧ s = s' := by
  have close : ∀ c ∈ (')' :: s).head?, CharClass.whiteSpace.contains c = false := by
    simp; decide
  have close' : ∀ c ∈ (')' :: s').head?, CharClass.whiteSpace.contains c = false := by
    simp; decide
  have taken := (takeWhile_append_eq all close).1
  rw [eq, (takeWhile_append_eq all' close').1] at taken
  subst taken
  exact ⟨rfl, (List.cons.inj (List.append_cancel_left eq)).2⟩

/-- Braced base calls stand at the forwarding closings. -/
theorem standsIn_iff (fits : x.Fits s) :
    StandsIn bracedBaseCall (x.text ++ s) ↔ x.forwards = true := by
  constructor
  · intro h
    obtain ⟨blanks, clause, rest, eq, all, accepted⟩ := exists_of_standsIn h
    cases x with
    | letter c => exact absurd (begins_of_standsIn h) fits
    | call current =>
      obtain ⟨name, front, -⟩ := callOpening_eq current
      rw [text, front] at eq
      cases eq
    | head before param =>
      obtain ⟨w, front, -⟩ := exists_head_text fits.1 fits.2
      rw [text, front] at eq
      cases eq
    | closing lead clauses =>
      obtain rfl | ⟨blanks', rfl, all'⟩ := fits.1
      · cases eq
      · rw [text, List.cons_append, List.cons_append, List.append_assoc, List.cons_append,
          List.cons.injEq] at eq
        obtain ⟨-, eq⟩ := blanks_unique all' all eq.2
        cases clauses with
        | nil => exact absurd eq (fits.2.2 clause rest accepted)
        | cons w clauses => rfl
  · intro h
    obtain ⟨c, lead, w, clauses, rfl⟩ := exists_of_forwards h
    obtain eq | ⟨blanks, eq, all⟩ := fits.1
    · cases eq
    · cases eq
      refine ⟨'}' :: (lead ++ ')' :: w), clauses.flatten ++ s, ?_, by simp [text]⟩
      exact bracedBaseCall_accepts_iff.2 ⟨lead, w, rfl, all, fits.2.1 w List.mem_cons_self⟩

theorem free_of_not_forwards (fits : x.Fits s) (h : x.forwards = false) :
    Free (StandsIn bracedBaseCall) x.text s := by
  obtain ⟨w, hw, free⟩ := free_standsIn fits
  have front : ¬StandsIn bracedBaseCall (x.text ++ s) := by simp [standsIn_iff fits, h]
  rw [hw] at front ⊢
  exact ⟨front, free⟩

theorem tailOf_cons (h : x.forwards = false) : tailOf (x :: ls) = x.text ++ tailOf ls := by
  match x, h with
  | letter _, _ | call _, _ | head _ _, _ => rfl
  | closing [] _, _ => rfl
  | closing (_ :: _) [], _ => rfl

/-- The tail is the shortest one through a braced base call. -/
theorem exists_tailOf (lexed : Lexed ls) (h : ls.any forwards = true) :
    ∃ rest, bracedBaseCall.splitThrough? (render ls) = some (tailOf ls, rest) ∧
      render ls = tailOf ls ++ rest := by
  suffices ∃ filler closing rest, tailOf ls = filler ++ closing ∧ bracedBaseCall.Accepts closing ∧
      render ls = tailOf ls ++ rest ∧ Free (StandsIn bracedBaseCall) filler (closing ++ rest) by
    obtain ⟨filler, closing, rest, eq, accepted, split, free⟩ := this
    exact ⟨rest, (splitThrough?_eq_some_iff delimited_bracedBaseCall).2
      ⟨filler, closing, eq, accepted, split, free⟩, split⟩
  induction ls with
  | nil => cases h
  | cons x ls ih =>
    cases forwarding : x.forwards with
    | true =>
      obtain ⟨c, lead, w, clauses, rfl⟩ := exists_of_forwards forwarding
      obtain eq | ⟨blanks, eq, all⟩ := lexed.1.1
      · cases eq
      · cases eq
        refine ⟨[], _, clauses.flatten ++ render ls, rfl, ?_, by simp [text, tailOf], trivial⟩
        exact bracedBaseCall_accepts_iff.2 ⟨lead, w, rfl, all, lexed.1.2.1 w List.mem_cons_self⟩
    | false =>
      rw [List.any_cons, forwarding, Bool.false_or] at h
      obtain ⟨filler, closing, rest, eq, accepted, split, free⟩ := ih lexed.2 h
      refine ⟨x.text ++ filler, closing, rest, ?_, accepted, ?_, ?_⟩
      · rw [tailOf_cons forwarding, eq, List.append_assoc]
      · rw [tailOf_cons forwarding, render_cons, split, List.append_assoc]
      · refine .append ?_ free
        rw [← List.append_assoc, ← eq, ← split]
        exact free_of_not_forwards lexed.1 forwarding

theorem free_render_of_not_forwards (lexed : Lexed ls) (h : ls.any forwards = false) :
    Free (StandsIn bracedBaseCall) (render ls) [] := by
  induction ls with
  | nil => trivial
  | cons x ls ih =>
    rw [List.any_cons, Bool.or_eq_false_iff] at h
    refine .append ?_ (ih lexed.2 h.2)
    rw [List.append_nil]
    exact free_of_not_forwards lexed.1 h.1

theorem begins_of_isPromotion {s : Text} (h : ∃ e, IsPromotion s e) : Begins s := by
  obtain ⟨_, before, param, filler, closing, rest, accepted, isParameter, -, -, rfl, rfl⟩ := h
  have := Begins.head (s := filler ++ closing ++ rest) accepted (.inl isParameter)
  simpa [Edit.source] using this

theorem first_of_isPromotion {c : Char} {s : Text} (h : ∃ e, IsPromotion (c :: s) e) : c = 'c' := by
  obtain ⟨_, before, param, filler, closing, rest, accepted, -, -, -, rfl, eq⟩ := h
  obtain ⟨blanks, name, more, more', rfl, -⟩ := exists_of_opening_accepts accepted
  exact (List.cons.inj eq).1

theorem free_isPromotion (fits : x.Fits s) :
    ∃ w, x.text = x.first :: w ∧ Free (fun s => ∃ e, IsPromotion s e) w s :=
  free_tail (d := 'c') (by decide) (fun _ => begins_of_isPromotion)
    (fun _ _ => first_of_isPromotion) fits

/-- A parameter that is accepted after an opening is the one of the head there. -/
theorem head_unique {before before' param param' s s' : Text} (accepted : opening.Accepts before)
    (isParameter : IsParameter param) (accepted' : opening.Accepts before')
    (acceptedParam : parameter.Accepts param')
    (eq : before ++ param ++ ',' :: s = before' ++ param' ++ ',' :: s') :
    before = before' ∧ param = param' ∧ s = s' := by
  rw [List.append_assoc, List.append_assoc] at eq
  have second : opening.split? (before' ++ (param' ++ ',' :: s')) =
      some (before', param' ++ ',' :: s') := by
    obtain ⟨blanks, rfl, -⟩ := exists_of_parameter_accepts acceptedParam
    exact split?_append delimited_opening accepted'
  have first : opening.split? (before ++ (param ++ ',' :: s)) =
      some (before, param ++ ',' :: s) := by
    obtain h | rfl := isParameter
    · obtain ⟨blanks, rfl, -⟩ := exists_of_parameter_accepts h
      exact split?_append delimited_opening accepted
    · exact split?_append delimited_opening_promoted accepted
  rw [eq, second, Option.some.injEq, Prod.mk.injEq] at first
  obtain ⟨rfl, after⟩ := first
  obtain h | rfl := isParameter
  · obtain ⟨rfl, rest⟩ := accepts_unique delimited_parameter acceptedParam h after
    exact ⟨rfl, rfl, (List.cons.inj rest).2.symm⟩
  · obtain ⟨blanks, rfl, -⟩ := exists_of_parameter_accepts acceptedParam
    cases after

theorem ne_promotedParameter {param : Text} (h : parameter.Accepts param) :
    param ≠ promotedParameter := by
  obtain ⟨blanks, rfl, -⟩ := exists_of_parameter_accepts h
  exact nofun

/-- An opening and a key parameter with a comma after it are those of a head. -/
theorem eq_head_of_accepts {before param s : Text} (lexed : Lexed (x :: ls))
    (accepted : opening.Accepts before) (acceptedParam : parameter.Accepts param)
    (eq : render (x :: ls) = before ++ param ++ ',' :: s) :
    x = head before param ∧ render ls = s := by
  have begins : Begins (x.text ++ render ls) := by
    rw [← render_cons, eq]
    exact .head accepted (.inl acceptedParam)
  have starts : x.first = 'c' := by
    obtain ⟨t, ht⟩ := exists_text lexed.1
    obtain ⟨_, _, _, _, front, -⟩ := exists_of_opening_accepts accepted
    rw [render_cons, ht, front] at eq
    exact (List.cons.inj eq).1
  match x, lexed, eq with
  | letter c, lexed, _ => exact absurd begins lexed.1
  | call _, _, _ => cases starts
  | .closing lead clauses, lexed, _ =>
    obtain rfl | ⟨blanks, rfl, -⟩ := lexed.1.1 <;> cases starts
  | head before' param', lexed, eq =>
    have eq : before' ++ param' ++ ',' :: render ls = before ++ param ++ ',' :: s := by
      simpa [text] using eq
    obtain ⟨rfl, rfl, rest⟩ := head_unique lexed.1.1 lexed.1.2 accepted acceptedParam eq
    exact ⟨rfl, rest⟩

/-- Promotions begin at the heads with a key parameter that a forwarding closing follows. -/
theorem isPromotion_iff (lexed : Lexed (x :: ls)) {e : Edit} :
    IsPromotion (render (x :: ls)) e ↔ ∃ before param, x = head before param ∧
      param ≠ promotedParameter ∧ ls.any forwards = true ∧
        e = { before, removed := param, inserted := promotedParameter,
              after := ',' :: tailOf ls } := by
  constructor
  · rintro ⟨before, param, filler, closing, rest, accepted, acceptedParam, acceptedClosing, free,
      rfl, eq⟩
    have front : render (x :: ls) = before ++ param ++ ',' :: (filler ++ closing ++ rest) := by
      simpa [Edit.source] using eq
    obtain ⟨rfl, split⟩ := eq_head_of_accepts lexed accepted acceptedParam front
    refine ⟨before, param, rfl, ne_promotedParameter acceptedParam, ?_⟩
    cases any : ls.any forwards with
    | true =>
      obtain ⟨rest', through, -⟩ := exists_tailOf lexed.2 any
      rw [split, (splitThrough?_eq_some_iff delimited_bracedBaseCall).2
        ⟨filler, closing, rfl, acceptedClosing, rfl, free⟩] at through
      rw [Option.some.injEq, Prod.mk.injEq] at through
      rw [through.1]
      exact ⟨rfl, rfl⟩
    | false =>
      -- The promotion would have to end with a braced base call.
      have absent := free_render_of_not_forwards lexed.2 any
      have filled : 0 < closing.length := by
        obtain ⟨blanks, clause, rfl, -⟩ := bracedBaseCall_accepts_iff.1 acceptedClosing
        exact Nat.succ_pos _
      rw [split] at absent
      refine absurd ⟨closing, rest, acceptedClosing, ?_⟩
        (absent.not_drop (i := filler.length) (by simp; omega))
      simp
  · rintro ⟨before, param, rfl, ne, any, rfl⟩
    obtain ⟨rest, through, split⟩ := exists_tailOf lexed.2 any
    obtain ⟨filler, closing, eq, accepted, -, free⟩ :=
      (splitThrough?_eq_some_iff delimited_bracedBaseCall).1 through
    refine ⟨before, param, filler, closing, rest, lexed.1.1, lexed.1.2.resolve_right ne, accepted,
      free, by rw [eq]; rfl, ?_⟩
    rw [render_cons, split]
    simp [text, Edit.source]

theorem promotions_cons {pos : Nat} {ready : Bool} (h : ¬∃ before param, x = head before param ∧
      ready = true ∧ param ≠ promotedParameter ∧ ls.any forwards = true) :
    promotions pos ready (x :: ls) =
      promotions (pos + x.text.length) (ready || x.forwards) ls := by
  match x, h with
  | letter _, _ | call _, _ | closing _ _, _ => rfl
  | head before param, h =>
    rw [promotions, if_neg fun promotes => h ⟨before, param, rfl, promotes⟩]
    exact congrArg (promotions _ · ls) (Bool.or_false ready).symm

/-- The scan of the promoting pass, at a place where a match may begin, and after the beginning of a
match that still goes on. -/
theorem leftmostMatches_promotions_and (lexed : Lexed ls) :
    (∀ pos, LeftmostMatches IsPromotion pos (render ls) (promotions pos true ls)) ∧
      (ls.any forwards = true → ∀ pos, ∃ rest, render ls = tailOf ls ++ rest ∧
        LeftmostMatches IsPromotion (pos + (tailOf ls).length) rest (promotions pos false ls)) := by
  induction ls with
  | nil => exact ⟨fun pos => .done pos, fun any => by cases any⟩
  | cons x ls ih =>
    obtain ⟨ready, busy⟩ := ih lexed.2
    obtain ⟨w, hw, free⟩ := free_isPromotion lexed.1
    constructor
    · intro pos
      by_cases h : ∃ before param, x = head before param ∧ param ≠ promotedParameter ∧
          ls.any forwards = true
      · obtain ⟨before, param, rfl, ne, any⟩ := h
        have isMatch := (isPromotion_iff lexed).2 ⟨before, param, rfl, ne, any, rfl⟩
        obtain ⟨rest, split, scan⟩ := busy any (pos + (head before param).text.length)
        have source : render (head before param :: ls) = Edit.source
            { before, removed := param, inserted := promotedParameter,
              after := ',' :: tailOf ls } ++
              rest := by
          simp [split, text, Edit.source]
        rw [promotions, if_pos ⟨rfl, ne, any⟩]
        rw [source] at isMatch ⊢
        refine .meet (by simp [Edit.source]) isMatch ?_
        convert scan using 1
        simp [text, Edit.source]
        omega
      · rw [promotions_cons (by simpa using h), render_cons, Bool.true_or]
        refine .append_of_free ?_ (ready _)
        have front : ¬∃ e, IsPromotion (render (x :: ls)) e := by
          rintro ⟨e, isMatch⟩
          obtain ⟨before, param, eq, ne, any, -⟩ := (isPromotion_iff lexed).1 isMatch
          exact h ⟨before, param, eq, ne, any⟩
        rw [render_cons, hw] at front
        rw [hw]
        exact ⟨front, free⟩
    · intro any pos
      rw [promotions_cons (by simp), Bool.false_or]
      cases forwarding : x.forwards with
      | true =>
        obtain ⟨c, lead, u, clauses, rfl⟩ := exists_of_forwards forwarding
        refine ⟨clauses.flatten ++ render ls, by simp [text, tailOf], ?_⟩
        refine .append_of_free ?_ ?_
        · have chars := clause_chars lexed.1.2.1
          refine .of_forall_mem fun c hc s isMatch => ?_
          exact (chars c (List.mem_append_right _ hc)).2.2 (first_of_isPromotion isMatch)
        · convert ready (pos + (Lexeme.closing (c :: lead) (u :: clauses)).text.length) using 1
          simp [tailOf, text]
          omega
      | false =>
        rw [List.any_cons, forwarding, Bool.false_or] at any
        obtain ⟨rest, split, scan⟩ := busy any (pos + x.text.length)
        refine ⟨rest, by rw [render_cons, split, tailOf_cons forwarding, List.append_assoc], ?_⟩
        rwa [tailOf_cons forwarding, List.length_append, ← Nat.add_assoc]

theorem leftmostMatches_promotions (lexed : Lexed ls) (pos : Nat) :
    LeftmostMatches IsPromotion pos (render ls) (promotions pos true ls) :=
  (leftmostMatches_promotions_and lexed).1 pos

theorem map_splice_promotions (pos : Nat) (ready : Bool) (ls : List Lexeme) :
    (promotions pos ready ls).map Match.splice = script pos ls (promote ready ls) := by
  fun_induction promote ready ls generalizing pos with
  | case1 => rfl
  | case2 ready before param ls h ih =>
    rw [promotions, if_pos h, List.map_cons, ih, script, splices_head pos before h.2.1]
    rfl
  | case3 ready before param ls h ih =>
    rw [promotions, if_neg h, ih, script, splices_self, List.nil_append]
  | case4 ready x ls ne ih =>
    rw [script, splices_self, List.nil_append, ← ih]
    cases x with
    | head before param => exact absurd rfl (ne before param)
    | _ => rfl

theorem scriptFrom_promotionAt? (lexed : Lexed ls) (pos : Nat) :
    scriptFrom promotionAt? pos (render ls) = script pos ls (promote true ls) := by
  have scan := (leftmostMatches_promotions lexed pos).map_splice promotionAt?_sound
    (fun _ e h => ⟨e, promotionAt?_eq_some_iff.1 h⟩)
    (fun s e h => ⟨e, [], promotionAt?_eq_some_iff.2 h, by simp, trivial⟩)
  rw [← scan, map_splice_promotions]

/-- The promoting pass promotes the heads. -/
theorem promote_render (lexed : Lexed ls) :
    SuperKey.promote (render ls) = render (Lexeme.promote true ls) := by
  rw [SuperKey.promote, revise_eq_carryOutFrom promotionAt?_sound 0, scriptFrom_promotionAt? lexed]
  exact (rewrites_script (forall₂_revised_promote true ls) lexed 0).carryOutFrom_eq

end Lexeme

end FlutterMend
