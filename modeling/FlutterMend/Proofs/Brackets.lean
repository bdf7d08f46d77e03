import FlutterMend.Proofs.Progress

/-!
# Brackets

Rules leave the bracket structure of a text alone. All they take away from its brackets are pairs of
parentheses that stand next to each other, those of removed base calls, and braces, square brackets,
semicolons and commas stay as they are. A text is therefore well bracketed after any rules if and
only if it was so before.
-/

namespace FlutterMend

open Opacity SuperKey Pattern

def brackets : List Char := ['(', ')', '[', ']', '{', '}']

/-- The braces, square brackets, semicolons and commas. -/
def separators : List Char := ['{', '}', '[', ']', ';', ',']

/-- The characters of a text that are among the given ones. -/
def marked (marks : List Char) (s : Text) : Text := s.filter marks.contains

@[simp] theorem marked_append (marks : List Char) (s t : Text) :
    marked marks (s ++ t) = marked marks s ++ marked marks t := List.filter_append ..

/-! ## Well-bracketed texts -/

def closer? : Char → Option Char
  | '(' => some ')'
  | '[' => some ']'
  | '{' => some '}'
  | _ => none

/-- Every bracket is closed by one of its own kind, in nested order. -/
inductive WellBracketed : Text → Prop where
  | nil : WellBracketed []
  | plain {c : Char} {s : Text} : c ∉ brackets → WellBracketed s → WellBracketed (c :: s)
  | enclosed {opener closer : Char} {inner rest : Text} : closer? opener = some closer →
      WellBracketed inner → WellBracketed rest → WellBracketed (opener :: (inner ++ closer :: rest))

/-- Whether a text closes its own brackets and the awaited ones, the last opened first. -/
def closes : List Char → Text → Bool
  | awaited, [] => awaited.isEmpty
  | awaited, c :: s =>
    match closer? c with
    | some closer => closes (closer :: awaited) s
    | none =>
      if c ∈ brackets then awaited.head? == some c && closes awaited.tail s else closes awaited s

section Closes

variable {awaited : List Char} {c d : Char} {s t : Text}

theorem brackets_of_closer? (h : closer? c = some d) :
    c ∈ brackets ∧ d ∈ brackets ∧ closer? d = none := by
  unfold closer? at h
  split at h <;> cases h <;> decide

theorem closes_opener (h : closer? c = some d) :
    closes awaited (c :: s) = closes (d :: awaited) s := by
  rw [closes, h]

theorem closes_plain (h : c ∉ brackets) : closes awaited (c :: s) = closes awaited s := by
  have none : closer? c = none :=
    Option.eq_none_iff_forall_ne_some.2 fun d eq => h (brackets_of_closer? eq).1
  rw [closes, none]
  exact if_neg h

theorem closes_closer (none : closer? c = none) (h : c ∈ brackets) :
    closes awaited (c :: s) = (awaited.head? == some c && closes awaited.tail s) := by
  rw [closes, none]
  exact if_pos h

/-- A well-bracketed text changes nothing about what is awaited. -/
theorem WellBracketed.closes_append (h : WellBracketed s) (awaited : List Char) (t : Text) :
    closes awaited (s ++ t) = closes awaited t := by
  induction h generalizing awaited t with
  | nil => rfl
  | plain notBracket _ ih => rw [List.cons_append, closes_plain notBracket, ih]
  | @enclosed opener closer inner rest pair _ _ ihInner ihRest =>
    obtain ⟨-, isBracket, none⟩ := brackets_of_closer? pair
    rw [List.cons_append, closes_opener pair, List.append_assoc, ihInner, List.cons_append,
      closes_closer none isBracket, List.head?_cons, beq_self_eq_true, Bool.true_and,
      List.tail_cons, ihRest]

/-- The text consists of well-bracketed parts with the awaited brackets between them. -/
def ClosesIn : List Char → Text → Prop
  | [], s => WellBracketed s
  | d :: awaited, s =>
    ∃ inner rest, s = inner ++ d :: rest ∧ WellBracketed inner ∧ ClosesIn awaited rest

theorem ClosesIn.plain (h : ClosesIn awaited s) (notBracket : c ∉ brackets) :
    ClosesIn awaited (c :: s) := by
  cases awaited with
  | nil => exact WellBracketed.plain notBracket h
  | cons d awaited =>
    obtain ⟨inner, rest, rfl, wellBracketed, later⟩ := h
    exact ⟨c :: inner, rest, rfl, wellBracketed.plain notBracket, later⟩

theorem ClosesIn.enclosed (h : ClosesIn (d :: awaited) s) (pair : closer? c = some d) :
    ClosesIn awaited (c :: s) := by
  obtain ⟨inner, rest, rfl, wellBracketed, later⟩ := h
  cases awaited with
  | nil => exact WellBracketed.enclosed pair wellBracketed later
  | cons e awaited =>
    obtain ⟨inner', rest', rfl, wellBracketed', later⟩ := later
    refine ⟨c :: (inner ++ d :: inner'), rest', by simp, ?_, later⟩
    exact .enclosed pair wellBracketed wellBracketed'

theorem closesIn_of_closes (h : closes awaited s = true) : ClosesIn awaited s := by
  induction s generalizing awaited with
  | nil =>
    obtain rfl := List.isEmpty_iff.1 h
    exact WellBracketed.nil
  | cons c s ih =>
    cases pair : closer? c with
    | some d => exact (ih (closes_opener pair ▸ h)).enclosed pair
    | none =>
      by_cases isBracket : c ∈ brackets
      · rw [closes_closer pair isBracket, Bool.and_eq_true, beq_iff_eq] at h
        obtain ⟨awaited, rfl⟩ := List.head?_eq_some_iff.1 h.1
        exact ⟨[], s, rfl, .nil, ih h.2⟩
      · exact (ih (closes_plain isBracket ▸ h)).plain isBracket

theorem wellBracketed_iff : WellBracketed s ↔ closes [] s = true := by
  refine ⟨fun h => ?_, closesIn_of_closes⟩
  have read := h.closes_append [] []
  rwa [List.append_nil] at read

instance (s : Text) : Decidable (WellBracketed s) := decidable_of_iff _ wellBracketed_iff.symm

/-- Brackets of two kinds may not cross. -/
example : WellBracketed "f([x], (y))".toList ∧ ¬WellBracketed "f([x)]".toList := by decide

/-- Only brackets count. -/
theorem closes_marked (awaited : List Char) (s : Text) :
    closes awaited (marked brackets s) = closes awaited s := by
  induction s generalizing awaited with
  | nil => rfl
  | cons c s ih =>
    by_cases isBracket : c ∈ brackets
    · have kept : marked brackets (c :: s) = c :: marked brackets s := by
        simp [marked, isBracket]
      simp only [kept, closes, ih]
    · have dropped : marked brackets (c :: s) = marked brackets s := by
        simp [marked, isBracket]
      rw [dropped, ih, closes_plain isBracket]

end Closes

/-! ## Pairs of parentheses -/

/-- The second text is the first one without some pairs of parentheses that stand next to each
other in it. -/
inductive DropsPairs : Text → Text → Prop where
  | nil : DropsPairs [] []
  | keep {s t : Text} (c : Char) : DropsPairs s t → DropsPairs (c :: s) (c :: t)
  | drop {s t : Text} : DropsPairs s t → DropsPairs ('(' :: ')' :: s) t

namespace DropsPairs

variable {s s' t t' : Text}

theorem refl (s : Text) : DropsPairs s s := by
  induction s with
  | nil => exact .nil
  | cons c s ih => exact .keep c ih

theorem append (h : DropsPairs s t) (h' : DropsPairs s' t') : DropsPairs (s ++ s') (t ++ t') := by
  induction h with
  | nil => exact h'
  | keep c _ ih => exact .keep c ih
  | drop _ ih => exact .drop ih

theorem closes_eq (h : DropsPairs s t) (awaited : List Char) :
    closes awaited s = closes awaited t := by
  induction h generalizing awaited with
  | nil => rfl
  | keep c _ ih => simp only [closes, ih]
  | drop _ ih =>
    rw [← ih]
    rfl

/-- Pairs of parentheses do not count for whether a text is well bracketed. -/
theorem wellBracketed_iff (h : DropsPairs (marked brackets s) (marked brackets t)) :
    WellBracketed s ↔ WellBracketed t := by
  rw [FlutterMend.wellBracketed_iff, FlutterMend.wellBracketed_iff, ← closes_marked [] s,
    ← closes_marked [] t, h.closes_eq]

end DropsPairs

/-! ## The brackets of lexemes -/

namespace Pattern

/-- The marks in the fixed words of a pattern. -/
def marks (chars : List Char) (p : Pattern) : Text :=
  p.flatMap fun
    | .literal word => marked chars word
    | .run _ _ => []

/-- Whether no run of a pattern can hold one of the characters. -/
def runsAvoid (chars : List Char) (p : Pattern) : Bool :=
  p.all fun
    | .literal _ => true
    | .run cls _ => chars.all fun c => !cls.contains c

/-- Marks that stand in no run can be told from the pattern. -/
theorem marked_of_accepts {chars : List Char} {p : Pattern} {w : Text}
    (avoid : p.runsAvoid chars = true) (accepted : p.Accepts w) :
    marked chars w = p.marks chars := by
  induction p generalizing w with
  | nil =>
    obtain rfl : w = [] := accepted
    rfl
  | cons piece p ih =>
    obtain ⟨front, back, rfl, acceptedFront, acceptedBack⟩ := accepted
    rw [runsAvoid, List.all_cons, Bool.and_eq_true] at avoid
    rw [marked_append, ih avoid.2 acceptedBack, marks, marks, List.flatMap_cons]
    congr 1
    cases piece with
    | literal word =>
      obtain rfl : front = word := acceptedFront
      rfl
    | run cls least =>
      refine List.filter_eq_nil_iff.2 fun c mem isMark => ?_
      have outside := List.all_eq_true.1 avoid.1 c (List.contains_iff_mem.1 isMark)
      rw [acceptedFront.2 c mem] at outside
      cases outside

end Pattern

/-- A base call has one pair of parentheses. -/
theorem marked_baseCall {w : Text} (h : baseCall.Accepts w) :
    marked brackets w = ['(', ')'] ∧ marked separators w = [] :=
  ⟨marked_of_accepts (by decide +kernel) h, marked_of_accepts (by decide +kernel) h⟩

theorem marked_parameter {param : Text} (h : IsParameter param) :
    marked brackets param = [] ∧ marked separators param = [] := by
  obtain h | rfl := h
  · exact ⟨marked_of_accepts (by decide +kernel) h, marked_of_accepts (by decide +kernel) h⟩
  · exact ⟨rfl, rfl⟩

theorem marked_callOpening (current : Bool) :
    marked brackets (callOpening current) = ['('] ∧
      marked separators (callOpening current) = [] := by
  cases current <;> exact ⟨rfl, rfl⟩

theorem marked_separators_flatten {clauses : List Text} (h : ∀ w ∈ clauses, baseCall.Accepts w) :
    marked separators clauses.flatten = [] := by
  induction clauses with
  | nil => rfl
  | cons w clauses ih =>
    rw [List.flatten_cons, marked_append, (marked_baseCall (h w List.mem_cons_self)).2,
      ih fun v hv => h v (List.mem_cons_of_mem _ hv)]
    rfl

/-- Base calls that are left out take their parentheses with them. -/
theorem dropsPairs_flatten {clauses kept : List Text} (sublist : kept.Sublist clauses)
    (h : ∀ w ∈ clauses, baseCall.Accepts w) :
    DropsPairs (marked brackets clauses.flatten) (marked brackets kept.flatten) := by
  induction sublist with
  | slnil => exact .nil
  | cons w _ ih =>
    rw [List.flatten_cons, marked_append, (marked_baseCall (h w List.mem_cons_self)).1]
    exact .drop (ih fun v hv => h v (List.mem_cons_of_mem _ hv))
  | cons_cons w _ ih =>
    rw [List.flatten_cons, List.flatten_cons, marked_append, marked_append]
    exact (DropsPairs.refl _).append (ih fun v hv => h v (List.mem_cons_of_mem _ hv))

namespace Lexeme

variable {x y z : Lexeme} {s t : Text} {ls ls' ls'' : List Lexeme}

/-- What becomes of a lexeme under any rules: a call or a head may have been revised, and a closing
may have lost some of its base calls. -/
inductive Trimmed : Lexeme → Lexeme → Prop where
  | letter (c : Char) : Trimmed (letter c) (letter c)
  | call (a b : Bool) : Trimmed (call a) (call b)
  | head (before p q : Text) : Trimmed (head before p) (head before q)
  | closing (lead : Text) {clauses kept : List Text} : kept.Sublist clauses →
      Trimmed (closing lead clauses) (closing lead kept)

theorem Trimmed.refl (x : Lexeme) : Trimmed x x := by
  cases x with
  | letter c => exact .letter c
  | call current => exact .call current current
  | head before param => exact .head before param param
  | closing lead clauses => exact .closing lead (List.Sublist.refl _)

theorem Trimmed.revised (h : Trimmed x y) (h' : Revised y z) : Trimmed x z := by
  cases h' with
  | same => exact h
  | call =>
    cases h with
    | call a _ => exact .call a true
  | head before _ =>
    cases h with
    | head _ p _ => exact .head before p promotedParameter
  | closing lead _ =>
    cases h with
    | closing _ sublist => exact .closing lead ((everySecond_sublist _).trans sublist)

theorem forall₂_trimmed_revised (h : List.Forall₂ Trimmed ls ls')
    (h' : List.Forall₂ Revised ls' ls'') : List.Forall₂ Trimmed ls ls'' := by
  induction h generalizing ls'' with
  | nil =>
    cases h'
    exact .nil
  | cons h _ ih =>
    cases h' with
    | cons h' rest' => exact .cons (h.revised h') (ih rest')

/-- Rules trim the lexemes of a text. -/
theorem exists_trimmed (rules : List Rule) (h : List.Forall₂ Trimmed ls ls') (lexed : Lexed ls') :
    ∃ ls'', Lexed ls'' ∧ List.Forall₂ Trimmed ls ls'' ∧
      (Revision.ofRules rules (render ls')).text = render ls'' := by
  induction rules generalizing ls' with
  | nil => exact ⟨ls', lexed, h, rfl⟩
  | cons rule rules ih =>
    rw [Revision.ofRules_cons_text, revise_render rule lexed]
    exact ih (forall₂_trimmed_revised h (forall₂_revised_applyRule rule ls'))
      (lexed_applyRule rule lexed)

theorem marked_closing (marks : List Char) (lead : Text) (clauses : List Text) :
    marked marks (closing lead clauses).text =
      marked marks (lead ++ [')']) ++ marked marks clauses.flatten := by
  rw [← marked_append, text, ← List.append_cons]

theorem Trimmed.marked_separators (h : Trimmed x y) (fits : x.Fits s) (fits' : y.Fits t) :
    marked separators y.text = marked separators x.text := by
  cases h with
  | letter c => rfl
  | call a b => rw [text, text, (marked_callOpening a).2, (marked_callOpening b).2]
  | head before p q =>
    simp only [text, marked_append, (marked_parameter fits.2).2, (marked_parameter fits'.2).2]
  | closing lead _ =>
    rw [marked_closing, marked_closing, marked_separators_flatten fits.2.1,
      marked_separators_flatten fits'.2.1]

theorem Trimmed.dropsPairs (h : Trimmed x y) (fits : x.Fits s) (fits' : y.Fits t) :
    DropsPairs (marked brackets x.text) (marked brackets y.text) := by
  cases h with
  | letter c => exact .refl _
  | call a b =>
    rw [text, text, (marked_callOpening a).1, (marked_callOpening b).1]
    exact .refl _
  | head before p q =>
    simp only [text, marked_append, (marked_parameter fits.2).1, (marked_parameter fits'.2).1]
    exact .refl _
  | closing lead sublist =>
    rw [marked_closing, marked_closing]
    exact (DropsPairs.refl _).append (dropsPairs_flatten sublist fits.2.1)

theorem marked_separators_render (h : List.Forall₂ Trimmed ls ls') (lexed : Lexed ls)
    (lexed' : Lexed ls') : marked separators (render ls') = marked separators (render ls) := by
  induction h with
  | nil => rfl
  | cons h _ ih =>
    rw [render_cons, render_cons, marked_append, marked_append,
      h.marked_separators lexed.1 lexed'.1, ih lexed.2 lexed'.2]

theorem dropsPairs_render (h : List.Forall₂ Trimmed ls ls') (lexed : Lexed ls)
    (lexed' : Lexed ls') :
    DropsPairs (marked brackets (render ls)) (marked brackets (render ls')) := by
  induction h with
  | nil => exact .nil
  | cons h _ ih =>
    rw [render_cons, render_cons, marked_append, marked_append]
    exact (h.dropsPairs lexed.1 lexed'.1).append (ih lexed.2 lexed'.2)

end Lexeme

/-- Rules keep all separators of a text and drop nothing of its brackets but pairs of parentheses,
so a text is well bracketed after them just when it was so before. -/
theorem ofRules_keeps_brackets (rules : List Rule) (t : Text) :
    let u := (Revision.ofRules rules t).text
    marked separators u = marked separators t ∧
      DropsPairs (marked brackets t) (marked brackets u) ∧
      (WellBracketed t ↔ WellBracketed u) := by
  obtain ⟨ls, lexed, rfl⟩ := exists_lexed t
  have start : List.Forall₂ Lexeme.Trimmed ls ls :=
    List.forall₂_same.2 fun x _ => Lexeme.Trimmed.refl x
  obtain ⟨ls', lexed', trimmed, eq⟩ := Lexeme.exists_trimmed rules start lexed
  have pairs := Lexeme.dropsPairs_render trimmed lexed lexed'
  simp only [eq]
  exact ⟨Lexeme.marked_separators_render trimmed lexed lexed', pairs, pairs.wellBracketed_iff⟩

end FlutterMend
