import FlutterMend.Proofs.Pattern
import FlutterMend.Proofs.Scan
import FlutterMend.Rule.Opacity

/-!
# What the finders find

The places that the rules revise are described here by their grammar alone. Each finder finds just
the edits so described. A removal reaches over a semicolon after its base call, which the finder
leaves to be copied.
-/

namespace FlutterMend

namespace Pattern

/-- An accepted text stands at the front. -/
def StandsIn (p : Pattern) (s : Text) : Prop := ∃ w rest, p.Accepts w ∧ s = w ++ rest

/-- The shortest prefix through an accepted text has none that begins earlier. -/
theorem splitThrough?_eq_some_iff {p : Pattern} (h : ∀ next, delimited p next = true)
    {s front rest : Text} :
    p.splitThrough? s = some (front, rest) ↔
      ∃ filler found, front = filler ++ found ∧ p.Accepts found ∧ s = front ++ rest ∧
        Free p.StandsIn filler (found ++ rest) := by
  have split?_eq_none {s : Text} (absent : ¬p.StandsIn s) : p.split? s = none := by
    refine Option.eq_none_iff_forall_ne_some.2 fun (w, rest) eq => ?_
    obtain ⟨eq, accepted⟩ := split?_eq_some eq
    exact absent ⟨w, rest, accepted, eq⟩
  constructor
  · intro through
    induction s generalizing front with
    | nil =>
      obtain ⟨eq, accepted⟩ := split?_eq_some through
      exact ⟨[], front, rfl, accepted, eq, trivial⟩
    | cons c s ih =>
      simp only [splitThrough?] at through
      split at through
      · next first =>
        cases through
        obtain ⟨eq, accepted⟩ := split?_eq_some first
        exact ⟨[], front, rfl, accepted, eq, trivial⟩
      · next first =>
        obtain ⟨⟨front', rest'⟩, hrest, heq⟩ := Option.map_eq_some_iff.1 through
        cases heq
        obtain ⟨filler, found, rfl, accepted, rfl, free⟩ := ih hrest
        refine ⟨c :: filler, found, rfl, accepted, rfl, ?_, free⟩
        rintro ⟨w, rest, accepted, eq⟩
        rw [List.append_assoc, eq, split?_append (h _) accepted] at first
        cases first
  · rintro ⟨filler, found, rfl, accepted, rfl, free⟩
    rw [List.append_assoc]
    induction filler with
    | nil =>
      cases hs : found ++ rest with
      | nil =>
        obtain ⟨rfl, rfl⟩ := List.append_eq_nil_iff.1 hs
        exact split?_append (h none) accepted
      | cons c s =>
        have first := split?_append (h rest.head?) accepted
        rw [hs] at first
        simp only [List.nil_append, splitThrough?, first]
    | cons c filler ih =>
      simp only [List.cons_append, splitThrough?, split?_eq_none free.1, ih free.2,
        Option.map_some]

end Pattern

namespace Opacity

theorem isNumeralChar_of_isNumeral {numeral : Text} (h : isNumeral numeral = true) :
    ∀ c ∈ numeral, isNumeralChar c = true := by
  rw [isNumeral, Bool.and_eq_true, Bool.and_eq_true, List.all_eq_true] at h
  exact h.1.1

/-- The forms of a numeral: digits, digits with a point after some of them, or a point and
digits. -/
def numeralForms : List Pattern :=
  [[.run .digit 1], [.run .digit 1, .literal ['.'], .run .digit 0],
    [.literal ['.'], .run .digit 1]]

theorem exists_form_of_isNumeral {s : Text} (h : isNumeral s = true) :
    ∃ p ∈ numeralForms, p.Accepts s := by
  have all := isNumeralChar_of_isNumeral h
  rw [isNumeral, Bool.and_eq_true, Bool.and_eq_true, decide_eq_true_eq, List.any_eq_true] at h
  obtain ⟨⟨-, d, hd, isDigit⟩, once⟩ := h
  have digits {w : Text} (sub : w ⊆ s) (point : '.' ∉ w) :
      ∀ c ∈ w, CharClass.digit.contains c = true := by
    intro c hc
    have := all c (sub hc)
    rw [isNumeralChar, Bool.or_eq_true, beq_iff_eq] at this
    exact this.resolve_right fun eq => point (eq ▸ hc)
  simp only [numeralForms, List.mem_cons, List.not_mem_nil, or_false, exists_eq_or_imp,
    exists_eq_left, Pattern.Accepts, Piece.Accepts]
  by_cases point : '.' ∈ s
  · -- The point is the only one, so there are digits on either side.
    obtain ⟨a, b, rfl⟩ := List.append_of_mem point
    have ha : '.' ∉ a := fun mem => by
      have := List.count_pos_iff.2 mem
      simp at once
      omega
    have hb : '.' ∉ b := fun mem => by
      have := List.count_pos_iff.2 mem
      simp at once
      omega
    have front := digits (List.subset_append_left _ _) ha
    have back := digits (fun c hc => List.mem_append_right _ (List.mem_cons_of_mem _ hc)) hb
    cases a with
    | nil =>
      refine .inr (.inr ⟨['.'], b, rfl, rfl, b, [], by simp, ⟨?_, back⟩, rfl⟩)
      cases b with
      | nil =>
        obtain rfl : d = '.' := by simpa using hd
        exact absurd isDigit (by decide)
      | cons c b => exact Nat.succ_pos _
    | cons c a =>
      exact .inr (.inl ⟨c :: a, _, rfl, ⟨Nat.succ_pos _, front⟩, ['.'], b, rfl, rfl, b, [],
        by simp, ⟨Nat.zero_le _, back⟩, rfl⟩)
  · exact .inl ⟨s, [], by simp, ⟨List.length_pos_of_mem hd, digits (fun _ h => h) point⟩, rfl⟩

theorem count_point_of_digits {w : Text} (h : ∀ c ∈ w, CharClass.digit.contains c = true) :
    w.count '.' = 0 := by
  refine List.count_eq_zero.2 fun mem => ?_
  have isDigit := h _ mem
  revert isDigit
  decide

/-- Digits and at most one point make up a numeral. -/
theorem isNumeral_of_digits {w : Text} (a b : Text) (sub : ∀ c ∈ w, c ∈ a ∨ c = '.' ∨ c ∈ b)
    (ha : ∀ c ∈ a, CharClass.digit.contains c = true)
    (hb : ∀ c ∈ b, CharClass.digit.contains c = true)
    (long : ∃ d ∈ w, d ∈ a ∨ d ∈ b) (once : w.count '.' ≤ 1) : isNumeral w = true := by
  simp only [isNumeral, isNumeralChar, Bool.and_eq_true, List.all_eq_true, Bool.or_eq_true,
    beq_iff_eq, List.any_eq_true, decide_eq_true_eq]
  refine ⟨⟨fun c hc => ?_, ?_⟩, once⟩
  · obtain mem | rfl | mem := sub c hc
    · exact .inl (ha c mem)
    · exact .inr rfl
    · exact .inl (hb c mem)
  · obtain ⟨d, hd, mem⟩ := long
    exact ⟨d, hd, mem.elim (ha d) (hb d)⟩

theorem isNumeral_iff {s : Text} : isNumeral s = true ↔ ∃ p ∈ numeralForms, p.Accepts s := by
  refine ⟨exists_form_of_isNumeral, ?_⟩
  simp only [numeralForms, List.mem_cons, List.not_mem_nil, or_false, exists_eq_or_imp,
    exists_eq_left, Pattern.Accepts, Piece.Accepts]
  rintro (⟨a, _, rfl, ⟨long, ha⟩, rfl⟩ |
    ⟨a, _, rfl, ⟨long, ha⟩, _, _, rfl, rfl, b, _, rfl, ⟨-, hb⟩, rfl⟩ |
    ⟨_, _, rfl, rfl, b, _, rfl, ⟨long, hb⟩, rfl⟩)
  · obtain ⟨d, hd⟩ := List.exists_mem_of_length_pos long
    exact isNumeral_of_digits a [] (by simp +contextual) ha (by simp) ⟨d, by simp [hd]⟩
      (by simp [count_point_of_digits ha])
  · obtain ⟨d, hd⟩ := List.exists_mem_of_length_pos long
    exact isNumeral_of_digits a b (by simp) ha hb ⟨d, by simp [hd]⟩
      (by simp [count_point_of_digits ha, count_point_of_digits hb])
  · obtain ⟨d, hd⟩ := List.exists_mem_of_length_pos long
    exact isNumeral_of_digits [] b (by simp) (by simp) hb ⟨d, by simp [hd]⟩
      (by simp [count_point_of_digits hb])

/-- A call that opens as given stands at the front, with a numeral as its argument. -/
def IsNumeralCall (opening replacement s : Text) (e : Edit) : Prop :=
  ∃ numeral rest, (∃ p ∈ numeralForms, p.Accepts numeral) ∧
    e = { before := [], removed := opening, inserted := replacement, after := numeral ++ [')'] } ∧
    s = e.source ++ rest

/-- The openings of calls, the deprecated one and the current one. -/
def callOpening : Bool → Text
  | false => ".withOpacity(".toList
  | true => ".withValues(alpha: ".toList

/-- A call with an opening of the given kind stands at the front. Its edit exchanges the opening for
that of the other kind. -/
def IsCallOf (current : Bool) : Text → Edit → Prop :=
  IsNumeralCall (callOpening current) (callOpening !current)

/-- An opacity call stands at the front, to be made a current one. -/
def IsCall : Text → Edit → Prop := IsCallOf false

theorem numeralCallAt?_eq_some_iff {opening replacement s : Text} {e : Edit} :
    numeralCallAt? opening replacement s = some e ↔ IsNumeralCall opening replacement s e := by
  constructor
  · intro h
    obtain ⟨argument, hargument, h⟩ := Option.bind_eq_some_iff.1 h
    obtain ⟨⟨hnumeral, hclose⟩, h⟩ := Option.ite_none_right_eq_some.1 h
    obtain ⟨rest, hrest⟩ := List.head?_eq_some_iff.1 hclose
    cases h
    refine ⟨_, rest, isNumeral_iff.1 hnumeral, rfl, ?_⟩
    rw [isPrefixOf?_eq_some_iff.1 hargument]
    simp [Edit.source, ← hrest]
  · rintro ⟨numeral, rest, form, rfl, rfl⟩
    have hnumeral := isNumeral_iff.2 form
    have all := isNumeralChar_of_isNumeral hnumeral
    have close : isNumeralChar ')' = false := by decide
    have take : (numeral ++ ')' :: rest).takeWhile isNumeralChar = numeral := by
      simp [List.takeWhile_append_of_pos all, close]
    have drop : (numeral ++ ')' :: rest).dropWhile isNumeralChar = ')' :: rest := by
      simp [List.dropWhile_append_of_pos all, close]
    have opens : opening.isPrefixOf? (opening ++ (numeral ++ ')' :: rest)) =
        some (numeral ++ ')' :: rest) := isPrefixOf?_eq_some_iff.2 rfl
    simp [numeralCallAt?, Edit.source, opens, take, drop, hnumeral]

end Opacity

namespace SuperKey

open Pattern

theorem delimited_baseCall (next : Option Char) : delimited baseCall next = true := rfl

theorem delimited_bracedBaseCall (next : Option Char) : delimited bracedBaseCall next = true := rfl

theorem delimited_parameter (next : Option Char) : delimited parameter next = true := rfl

theorem delimited_opening : delimited opening (some 'K') = true := by decide +kernel

theorem delimited_opening_promoted : delimited opening (some 's') = true := by decide +kernel

theorem exists_of_parameter_accepts {param : Text} (h : parameter.Accepts param) :
    ∃ blanks, param = 'K' :: 'e' :: 'y' :: '?' :: (blanks ++ ['k', 'e', 'y']) ∧
      ∀ c ∈ blanks, CharClass.whiteSpace.contains c = true := by
  obtain ⟨_, _, rfl, rfl, blanks, _, rfl, ⟨-, all⟩, _, _, rfl, rfl, rfl⟩ := h
  exact ⟨blanks, by simp, all⟩

theorem bracedBaseCall_accepts_iff {w : Text} :
    bracedBaseCall.Accepts w ↔ ∃ blanks clause, w = '}' :: (blanks ++ ')' :: clause) ∧
      (∀ c ∈ blanks, CharClass.whiteSpace.contains c = true) ∧ baseCall.Accepts clause := by
  rw [bracedBaseCall, accepts_append]
  constructor
  · rintro ⟨_, clause, rfl, ⟨_, _, rfl, rfl, blanks, _, rfl, ⟨-, all⟩, _, _, rfl, rfl, rfl⟩, h⟩
    exact ⟨blanks, clause, by simp, all, h⟩
  · rintro ⟨blanks, clause, rfl, all, h⟩
    refine ⟨'}' :: (blanks ++ [')']), clause, by simp, ?_, h⟩
    exact ⟨['}'], _, rfl, rfl, blanks, [')'], rfl, ⟨Nat.zero_le _, all⟩, [')'], [], rfl, rfl, rfl⟩

/-- A forwarding base call stands right after the parenthesis at the front. A semicolon after it
belongs to the match. -/
def IsRemoval (s : Text) (e : Edit) : Prop :=
  ∃ clause rest, baseCall.Accepts clause ∧
    e = { before := [')'], removed := clause, inserted := [],
          after := if rest.head? = some ';' then [';'] else [] } ∧
    s = ')' :: (clause ++ rest)

theorem removalAt?_eq_some_iff {s : Text} {e : Edit} :
    removalAt? s = some e ↔
      ∃ clause rest, baseCall.Accepts clause ∧ s = ')' :: (clause ++ rest) ∧
        e = { before := [')'], removed := clause, inserted := [], after := [] } := by
  constructor
  · intro h
    obtain ⟨s, hclose, h⟩ := Option.bind_eq_some_iff.1 h
    obtain ⟨⟨clause, rest⟩, hclause, h⟩ := Option.bind_eq_some_iff.1 h
    cases h
    obtain ⟨rfl, accepted⟩ := split?_eq_some hclause
    exact ⟨clause, rest, accepted, isPrefixOf?_eq_some_iff.1 hclose, rfl⟩
  · rintro ⟨clause, rest, accepted, rfl, rfl⟩
    have close : [')'].isPrefixOf? (')' :: (clause ++ rest)) = some (clause ++ rest) :=
      isPrefixOf?_eq_some_iff.2 rfl
    simp [removalAt?, close, split?_append (delimited_baseCall _) accepted]

/-- Blanks may stand before each token of a base call. -/
example : (removalAt? ")\n  : super ( key: key );".toList).map Edit.removed =
    some "\n  : super ( key: key )".toList := by decide +kernel

theorem IsRemoval.unique {s : Text} {e e' : Edit} (h : IsRemoval s e) (h' : IsRemoval s e') :
    e = e' := by
  obtain ⟨clause, rest, accepted, rfl, rfl⟩ := h
  obtain ⟨clause', rest', accepted', rfl, eq⟩ := h'
  have found := removalAt?_eq_some_iff.2 ⟨clause, rest, accepted, rfl, rfl⟩
  cases found.symm.trans (removalAt?_eq_some_iff.2 ⟨clause', rest', accepted', eq, rfl⟩)
  rw [List.append_cancel_left (List.cons.inj eq).2]

theorem exists_isRemoval {s : Text} {e : Edit} (h : removalAt? s = some e) :
    ∃ e, IsRemoval s e := by
  obtain ⟨clause, rest, accepted, rfl, rfl⟩ := removalAt?_eq_some_iff.1 h
  exact ⟨_, clause, rest, accepted, rfl, rfl⟩

theorem exists_removalAt? {s : Text} {e : Edit} (h : IsRemoval (e.source ++ s) e) :
    ∃ d more, removalAt? (e.source ++ s) = some d ∧ e = { d with after := d.after ++ more } ∧
      Free (fun s => ∃ e, removalAt? s = some e) more s := by
  obtain ⟨clause, rest, accepted, eq, split⟩ := h
  refine ⟨_, e.after, removalAt?_eq_some_iff.2 ⟨clause, rest, accepted, split, rfl⟩, ?_, ?_⟩
  · rw [eq]
    rfl
  · refine .of_forall_mem fun c hc s ⟨d, hd⟩ => ?_
    obtain ⟨_, _, -, front, -⟩ := removalAt?_eq_some_iff.1 hd
    rw [(List.cons.inj front).1, eq] at hc
    simp at hc

/-- A constructor with a key parameter stands at the front, and the text goes on to the nearest
braced base call after it. -/
def IsPromotion (s : Text) (e : Edit) : Prop :=
  ∃ before param filler closing rest, opening.Accepts before ∧ parameter.Accepts param ∧
    bracedBaseCall.Accepts closing ∧
    Free (StandsIn bracedBaseCall) filler (closing ++ rest) ∧
    e = { before, removed := param, inserted := "super.key".toList,
          after := ',' :: (filler ++ closing) } ∧
    s = e.source ++ rest

theorem promotionAt?_eq_some_iff {s : Text} {e : Edit} :
    promotionAt? s = some e ↔ IsPromotion s e := by
  constructor
  · intro h
    obtain ⟨⟨before, s₁⟩, hbefore, h⟩ := Option.bind_eq_some_iff.1 h
    obtain ⟨⟨param, s₂⟩, hparam, h⟩ := Option.bind_eq_some_iff.1 h
    obtain ⟨s₃, hcomma, h⟩ := Option.bind_eq_some_iff.1 h
    obtain ⟨⟨tail, rest⟩, htail, h⟩ := Option.bind_eq_some_iff.1 h
    cases h
    obtain ⟨rfl, acceptedBefore⟩ := split?_eq_some hbefore
    obtain ⟨rfl, acceptedParam⟩ := split?_eq_some hparam
    obtain rfl := isPrefixOf?_eq_some_iff.1 hcomma
    obtain ⟨filler, closing, rfl, accepted, rfl, free⟩ :=
      (splitThrough?_eq_some_iff delimited_bracedBaseCall).1 htail
    exact ⟨before, param, filler, closing, rest, acceptedBefore, acceptedParam, accepted, free, rfl,
      by simp [Edit.source]⟩
  · rintro ⟨before, param, filler, closing, rest, acceptedBefore, acceptedParam, accepted, free,
      rfl, rfl⟩
    have first : opening.split? (before ++ (param ++ ',' :: (filler ++ (closing ++ rest)))) =
        some (before, param ++ ',' :: (filler ++ (closing ++ rest))) := by
      refine split?_append ?_ acceptedBefore
      obtain ⟨blanks, rfl, -⟩ := exists_of_parameter_accepts acceptedParam
      exact delimited_opening
    have second : parameter.split? (param ++ ',' :: (filler ++ (closing ++ rest))) =
        some (param, ',' :: (filler ++ (closing ++ rest))) :=
      split?_append (delimited_parameter _) acceptedParam
    have comma : [','].isPrefixOf? (',' :: (filler ++ (closing ++ rest))) =
        some (filler ++ (closing ++ rest)) := isPrefixOf?_eq_some_iff.2 rfl
    have through : bracedBaseCall.splitThrough? (filler ++ (closing ++ rest)) =
        some (filler ++ closing, rest) :=
      (splitThrough?_eq_some_iff delimited_bracedBaseCall).2
        ⟨filler, closing, rfl, accepted, by simp, free⟩
    simp [promotionAt?, Edit.source, first, second, comma, through]

/-- Letters and blanks need not be those of plain English. -/
example : (promotionAt?
      "const\u00a0Été( \x7b Key?  key, this.b \x7d ) : super(key: key);".toList).map Edit.result =
    some "const\u00a0Été( \x7b super.key, this.b \x7d ) : super(key: key)".toList := by
  decide +kernel

end SuperKey

end FlutterMend
