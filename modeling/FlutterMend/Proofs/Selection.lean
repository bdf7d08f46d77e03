import FlutterMend.Proofs.Passes.Promotions

/-!
# Which heads are promoted

A promotion begins at the head of a constructor and takes everything up to the nearest braced base
call along, whichever constructor this belongs to. So a braced base call closes all heads before it,
and the first head that it closes is promoted for it. The heads after the last braced base call stay
as they are.
-/

namespace FlutterMend

namespace SuperKey

/-- The opening of a constructor with its key parameter and the comma after it, at a position. -/
@[ext]
structure Head where
  start : Nat
  before : Text
  param : Text
  deriving DecidableEq, Repr

/-- A braced base call at a position. -/
@[ext]
structure Closing where
  start : Nat
  text : Text
  deriving DecidableEq, Repr

def Closing.stop (q : Closing) : Nat := q.start + q.text.length

structure Closing.StandsIn (q : Closing) (t : Text) : Prop where
  accepted : bracedBaseCall.Accepts q.text
  here : q.text <+: t.drop q.start

namespace Head

def text (h : Head) : Text := h.before ++ h.param ++ [',']

def stop (h : Head) : Nat := h.start + h.text.length

structure StandsIn (h : Head) (t : Text) : Prop where
  opens : opening.Accepts h.before
  accepted : parameter.Accepts h.param
  here : h.text <+: t.drop h.start

/-- The replacement of the key parameter. -/
def promotion (h : Head) : Splice where
  start := h.start + h.before.length
  removed := h.param
  inserted := promotedParameter

/-- The head lies between a braced base call and the one before it. -/
def LeadsTo (h : Head) (q : Closing) (t : Text) : Prop :=
  h.stop ≤ q.start ∧ ∀ q' : Closing, q'.StandsIn t → q'.start < q.start → q'.stop ≤ h.start

/-- The head is the first one between a braced base call and the one before it. -/
def IsFirstFor (h : Head) (q : Closing) (t : Text) : Prop :=
  h.LeadsTo q t ∧ ∀ h' : Head, h'.StandsIn t → h'.LeadsTo q t → h.start ≤ h'.start

/-- Every head before this one has been closed in between. -/
def IsFree (h : Head) (t : Text) : Prop :=
  ∀ h' : Head, h'.StandsIn t → h'.start < h.start →
    ∃ q : Closing, q.StandsIn t ∧ h'.stop ≤ q.start ∧ q.stop ≤ h.start

theorem start_lt_stop (h : Head) : h.start < h.stop := by
  simp only [stop, text, List.length_append, List.length_singleton]
  omega

theorem standsIn_iff {h : Head} {t : Text} :
    h.StandsIn t ↔ opening.split? (t.drop h.start) = some (h.before, t.drop h.promotion.start) ∧
      parameter.split? (t.drop h.promotion.start) = some (h.param, t.drop h.promotion.stop) ∧
      [','] <+: t.drop h.promotion.stop := by
  have after (s : Text) (eq : t.drop h.start = h.before ++ s) : t.drop h.promotion.start = s := by
    rw [promotion, ← List.drop_drop, eq, List.drop_left]
  have later (s : Text) (eq : t.drop h.promotion.start = h.param ++ s) :
      t.drop h.promotion.stop = s := by
    rw [Splice.stop, ← List.drop_drop, eq]
    exact List.drop_left
  constructor
  · rintro ⟨opens, accepted, rest, eq⟩
    rw [text, List.append_assoc, List.append_assoc] at eq
    have after := after _ eq.symm
    rw [later _ after, after, ← eq]
    refine ⟨Pattern.split?_append ?_ opens, Pattern.split?_append (delimited_parameter _) accepted,
      rest, rfl⟩
    obtain ⟨blanks, param, -⟩ := exists_of_parameter_accepts accepted
    rw [param]
    exact delimited_opening
  · rintro ⟨first, second, rest, comma⟩
    obtain ⟨eq, opens⟩ := Pattern.split?_eq_some first
    obtain ⟨eq', accepted⟩ := Pattern.split?_eq_some second
    exact ⟨opens, accepted, rest, by rw [eq, eq', ← comma]; simp [text]⟩

instance (h : Head) (t : Text) : Decidable (h.StandsIn t) := decidable_of_iff _ standsIn_iff.symm

end Head

theorem Closing.StandsIn.start_lt_stop {q : Closing} {t : Text} (h : q.StandsIn t) :
    q.start < q.stop := by
  obtain ⟨blanks, clause, eq, -⟩ := bracedBaseCall_accepts_iff.1 h.accepted
  simp only [stop, eq, List.length_cons]
  omega

theorem Closing.standsIn_iff {q : Closing} {t : Text} :
    q.StandsIn t ↔ bracedBaseCall.split? (t.drop q.start) = some (q.text, t.drop q.stop) := by
  rw [Pattern.split?_eq_some_iff delimited_bracedBaseCall, stop, ← List.drop_drop]
  constructor
  · rintro ⟨accepted, rest, eq⟩
    exact ⟨by rw [← eq, List.drop_left], accepted⟩
  · rintro ⟨eq, accepted⟩
    exact ⟨accepted, _, eq.symm⟩

instance (q : Closing) (t : Text) : Decidable (q.StandsIn t) :=
  decidable_of_iff _ Closing.standsIn_iff.symm

theorem Closing.StandsIn.stop_le {q : Closing} {t : Text} (h : q.StandsIn t) :
    q.stop ≤ t.length := by
  have filled := h.start_lt_stop
  have le := h.here.length_le
  rw [List.length_drop] at le
  rw [stop] at filled ⊢
  omega

end SuperKey

open SuperKey

namespace Lexeme

variable {x y : Lexeme} {ls ls' done done' rest rest' : List Lexeme} {s : Text}
  {h h' : Head} {q q' : Closing}

/-! ## Heads and braced base calls stand at lexemes -/

/-- A head that can be promoted. -/
def IsKeyed (x : Lexeme) : Prop := ∃ before param, x = head before param ∧ param ≠ promotedParameter

/-- The head stands at the lexeme after the given ones. -/
structure HeadAt (ls done rest : List Lexeme) (h : Head) : Prop where
  split : ls = done ++ head h.before h.param :: rest
  ne : h.param ≠ promotedParameter
  start : h.start = (render done).length

/-- The braced base call stands at the lexeme after the given ones. -/
structure ClosingAt (ls done : List Lexeme) (x : Lexeme) (rest : List Lexeme) (q : Closing) :
    Prop where
  split : ls = done ++ x :: rest
  forwards : x.forwards = true
  start : q.start = (render done).length
  text : q.text = tailOf (x :: rest)

/-- A head stands at the front. -/
def OpensHead (s : Text) : Prop :=
  ∃ before param after, opening.Accepts before ∧ parameter.Accepts param ∧
    s = before ++ param ++ ',' :: after

theorem begins_of_opensHead {s : Text} (h : OpensHead s) : Begins s := by
  obtain ⟨before, param, after, opens, accepted, rfl⟩ := h
  exact .head opens (.inl accepted)

theorem first_of_opensHead {c : Char} {s : Text} (h : OpensHead (c :: s)) : c = 'c' := by
  obtain ⟨before, param, after, opens, -, eq⟩ := h
  obtain ⟨_, _, _, _, rfl, -⟩ := exists_of_opening_accepts opens
  exact (List.cons.inj eq).1

theorem headAt_iff (lexed : Lexed ls) :
    h.StandsIn (render ls) ↔ ∃ done rest, HeadAt ls done rest h := by
  constructor
  · rintro ⟨opens, accepted, after, eq⟩
    have front : (render ls).drop h.start = h.before ++ h.param ++ ',' :: after := by
      simp [← eq, Head.text]
    obtain ⟨done, x, rest, rfl, start, -⟩ := exists_append_of_drop (d := 'c') (by decide)
      (fun _ => begins_of_opensHead) (fun _ _ => first_of_opensHead) lexed
      ⟨h.before, h.param, after, opens, accepted, front⟩
    rw [start, render_append, List.drop_left] at front
    obtain ⟨rfl, -⟩ := eq_head_of_accepts lexed.of_append opens accepted front
    exact ⟨done, rest, rfl, ne_promotedParameter accepted, start⟩
  · rintro ⟨done, rest, rfl, ne, start⟩
    have fits := lexed.of_append.1
    refine ⟨fits.1, fits.2.resolve_right ne, render rest, ?_⟩
    rw [start, render_append, List.drop_left]
    rfl

/-- The braced base call of a forwarding closing. -/
theorem tailOf_of_forwards (fits : x.Fits s) (forwards : x.forwards = true)
    (rest : List Lexeme) :
    bracedBaseCall.Accepts (tailOf (x :: rest)) ∧ tailOf (x :: rest) <+: x.text := by
  obtain ⟨c, lead, u, clauses, rfl⟩ := exists_of_forwards forwards
  obtain eq | ⟨blanks, eq, all⟩ := fits.1
  · cases eq
  · cases eq
    exact ⟨bracedBaseCall_accepts_iff.2 ⟨lead, u, rfl, all, fits.2.1 u List.mem_cons_self⟩,
      clauses.flatten, by simp [tailOf, text]⟩

theorem closingAt_iff (lexed : Lexed ls) :
    q.StandsIn (render ls) ↔ ∃ done x rest, ClosingAt ls done x rest q := by
  constructor
  · rintro ⟨accepted, after, eq⟩
    obtain ⟨done, x, rest, rfl, start, stands⟩ := exists_append_of_drop (d := '}') (by decide)
      (fun _ => begins_of_standsIn) (fun _ _ => first_of_standsIn) lexed
      ⟨q.text, after, accepted, eq.symm⟩
    have fits := lexed.of_append.1
    have forwards := (standsIn_iff fits).1 stands
    obtain ⟨accepted', after', split⟩ := tailOf_of_forwards fits forwards rest
    rw [start, render_append, List.drop_left, render_cons, ← split, List.append_assoc] at eq
    exact ⟨done, x, rest, rfl, forwards, start,
      (Pattern.accepts_unique delimited_bracedBaseCall accepted accepted' eq).1⟩
  · rintro ⟨done, x, rest, rfl, forwards, start, eq⟩
    obtain ⟨accepted, here⟩ := tailOf_of_forwards lexed.of_append.1 forwards rest
    refine ⟨eq ▸ accepted, ?_⟩
    rw [start, render_append, List.drop_left, render_cons, eq]
    exact here.trans (List.prefix_append _ _)

/-! ## What stands at lexemes is apart -/

/-- A member of a list that is cut in two is in one of the parts. -/
theorem cut_cases (eq : ls ++ ls' = done ++ x :: rest) :
    (∃ between, done = ls ++ between ∧ ls' = between ++ x :: rest) ∨
      ∃ between, ls = done ++ x :: between ∧ rest = between ++ ls' := by
  obtain ⟨between, rfl, rfl⟩ | ⟨between, rfl, eq'⟩ := List.append_eq_append_iff.1 eq
  · exact .inl ⟨between, rfl, rfl⟩
  · cases between with
    | nil => exact .inl ⟨[], by simp, eq'.symm⟩
    | cons y between =>
      obtain ⟨rfl, rfl⟩ := List.cons.inj eq'
      exact .inr ⟨between, rfl, rfl⟩

/-- Two places in one list are the same, or one of them comes first. -/
theorem split_cases (eq : done ++ x :: rest = done' ++ y :: rest') :
    (done = done' ∧ x = y ∧ rest = rest') ∨
      (∃ between, done' = done ++ x :: between ∧ rest = between ++ y :: rest') ∨
      ∃ between, done = done' ++ y :: between ∧ rest' = between ++ x :: rest := by
  obtain ⟨between, rfl, eq'⟩ | before := cut_cases eq
  · cases between with
    | nil =>
      obtain ⟨rfl, rfl⟩ := List.cons.inj eq'
      exact .inl ⟨(List.append_nil _).symm, rfl, rfl⟩
    | cons z between =>
      obtain ⟨rfl, rfl⟩ := List.cons.inj eq'
      exact .inr (.inl ⟨between, rfl, rfl⟩)
  · exact .inr (.inr before)

theorem apart_of_eq (eq : done ++ x :: rest = done' ++ y :: rest') :
    (done = done' ∧ x = y ∧ rest = rest') ∨
      (render done).length + x.text.length ≤ (render done').length ∨
      (render done').length + y.text.length ≤ (render done).length := by
  obtain same | ⟨between, rfl, -⟩ | ⟨between, rfl, -⟩ := split_cases eq
  · exact .inl same
  · exact .inr (.inl (by simp))
  · exact .inr (.inr (by simp))

theorem HeadAt.stop_eq (place : HeadAt ls done rest h) :
    h.stop = (render done).length + (head h.before h.param).text.length := by
  rw [Head.stop, place.start]
  rfl

theorem ClosingAt.stop_le (lexed : Lexed ls) (place : ClosingAt ls done x rest q) :
    q.stop ≤ (render done).length + x.text.length := by
  obtain ⟨rfl, forwards, start, text⟩ := place
  rw [Closing.stop, start, text]
  exact Nat.add_le_add_left (tailOf_of_forwards lexed.of_append.1 forwards rest).2.length_le _

end Lexeme

open Lexeme

namespace SuperKey

variable {t : Text} {h h' : Head} {q q' : Closing}

theorem Head.StandsIn.eq_or_apart (stands : h.StandsIn t) (stands' : h'.StandsIn t) :
    h = h' ∨ h.stop ≤ h'.start ∨ h'.stop ≤ h.start := by
  obtain ⟨ls, lexed, rfl⟩ := exists_lexed t
  obtain ⟨done, rest, place⟩ := (headAt_iff lexed).1 stands
  obtain ⟨done', rest', place'⟩ := (headAt_iff lexed).1 stands'
  obtain ⟨rfl, same, -⟩ | apart := apart_of_eq (place.split.symm.trans place'.split)
  · obtain ⟨before, param⟩ := Lexeme.head.inj same
    exact .inl (Head.ext (place.start.trans place'.start.symm) before param)
  · rw [place.stop_eq, place'.stop_eq, place.start, place'.start]
    exact .inr apart

theorem Closing.StandsIn.eq_or_apart (stands : q.StandsIn t) (stands' : q'.StandsIn t) :
    q = q' ∨ q.stop ≤ q'.start ∨ q'.stop ≤ q.start := by
  obtain ⟨ls, lexed, rfl⟩ := exists_lexed t
  obtain ⟨done, x, rest, place⟩ := (closingAt_iff lexed).1 stands
  obtain ⟨done', x', rest', place'⟩ := (closingAt_iff lexed).1 stands'
  have stop := place.stop_le lexed
  have stop' := place'.stop_le lexed
  obtain ⟨rfl, rfl, rfl⟩ | apart := apart_of_eq (place.split.symm.trans place'.split)
  · have start := place.start.trans place'.start.symm
    exact .inl (Closing.ext start (place.text.trans place'.text.symm))
  · rw [place.start, place'.start]
    omega

theorem Head.StandsIn.apart (stands : h.StandsIn t) (stands' : q.StandsIn t) :
    h.stop ≤ q.start ∨ q.stop ≤ h.start := by
  obtain ⟨ls, lexed, rfl⟩ := exists_lexed t
  obtain ⟨done, rest, place⟩ := (headAt_iff lexed).1 stands
  obtain ⟨done', x, rest', place'⟩ := (closingAt_iff lexed).1 stands'
  have stop := place'.stop_le lexed
  obtain ⟨-, rfl, -⟩ | apart := apart_of_eq (place.split.symm.trans place'.split)
  · cases place'.forwards
  · rw [place.stop_eq, place.start, place'.start]
    omega

end SuperKey

/-! ## The script of the promoting pass -/

namespace Lexeme

/-- The forwarding closings of a stretch are where braced base calls stand. -/
theorem any_forwards_iff {mid : List Lexeme} (lexed : Lexed ls) (eq : ls = done ++ mid ++ rest) :
    mid.any forwards = true ↔ ∃ q : Closing, q.StandsIn (render ls) ∧
      (render done).length ≤ q.start ∧ q.stop ≤ (render (done ++ mid)).length := by
  constructor
  · intro any
    obtain ⟨x, mem, forwards⟩ := List.any_eq_true.1 any
    obtain ⟨before, after, rfl⟩ := List.append_of_mem mem
    let q : Closing := { start := (render (done ++ before)).length
                         text := tailOf (x :: (after ++ rest)) }
    have place : ClosingAt ls (done ++ before) x (after ++ rest) q :=
      ⟨by simp [eq], forwards, rfl, rfl⟩
    refine ⟨q, (closingAt_iff lexed).2 ⟨_, _, _, place⟩, by simp [q], ?_⟩
    have := place.stop_le lexed
    simp only [render_append, render_cons, List.length_append] at this ⊢
    omega
  · rintro ⟨q, stands, le, stop_le⟩
    obtain ⟨before, x, after, place⟩ := (closingAt_iff lexed).1 stands
    have filled := stands.start_lt_stop
    have stop := place.stop_le lexed
    obtain ⟨split, forwards, start, -⟩ := place
    obtain ⟨a, rfl, -⟩ | ⟨a, inside, -⟩ := cut_cases (eq.symm.trans split)
    · rw [render_append, List.length_append] at start
      omega
    · obtain ⟨b, rfl, rfl⟩ | ⟨b, rfl, -⟩ := cut_cases inside
      · simp [forwards]
      · simp only [render_append, render_cons, List.length_append] at le
        omega

/-- Every head with a key parameter has a forwarding closing behind it. -/
def Closed (ls : List Lexeme) : Prop :=
  ∀ before x after, ls = before ++ x :: after → x.IsKeyed → after.any forwards = true

theorem closed_nil : Closed [] := by
  intro before x after eq
  simp at eq

theorem closed_cons : Closed (x :: ls) ↔ (x.IsKeyed → ls.any forwards = true) ∧ Closed ls := by
  constructor
  · intro closed
    refine ⟨closed [] x ls rfl, fun before y after eq => closed (x :: before) y after ?_⟩
    rw [eq, List.cons_append]
  · rintro ⟨first, closed⟩ before y after eq keyed
    cases before with
    | nil =>
      obtain ⟨rfl, rfl⟩ := List.cons.inj eq
      exact first keyed
    | cons z before => exact closed before y after (List.cons.inj eq).2 keyed

/-- The replacement is made in a head with a forwarding closing to come, when all heads before it
are closed. While not ready, a head before the first lexeme is still to be closed. -/
def Selected (pos : Nat) (ready : Prop) (ls : List Lexeme) (e : Splice) : Prop :=
  ∃ done before param rest, ls = done ++ head before param :: rest ∧ param ≠ promotedParameter ∧
    rest.any forwards = true ∧ (Closed done ∧ (ready ∨ done.any forwards = true)) ∧
    e = { start := pos + (render done).length + before.length, removed := param,
          inserted := promotedParameter }

theorem Selected.any {pos : Nat} {ready : Prop} {e : Splice} (h : Selected pos ready ls e) :
    ls.any forwards = true := by
  obtain ⟨done, before, param, rest, rfl, -, any, -⟩ := h
  simp [any]

theorem selected_cons {pos : Nat} {ready : Prop} {e : Splice} :
    Selected pos ready (x :: ls) e ↔
      (∃ before param, x = head before param ∧ (ready ∧ param ≠ promotedParameter ∧
        ls.any forwards = true) ∧
        e = { start := pos + before.length, removed := param, inserted := promotedParameter }) ∨
      Selected (pos + x.text.length) (¬x.IsKeyed ∧ (ready ∨ x.forwards = true)) ls e := by
  have closed (done : List Lexeme) : (Closed (x :: done) ∧
      (ready ∨ (x :: done).any forwards = true)) ↔ Closed done ∧
        ((¬x.IsKeyed ∧ (ready ∨ x.forwards = true)) ∨ done.any forwards = true) := by
    rw [closed_cons, List.any_cons, Bool.or_eq_true]
    tauto
  constructor
  · rintro ⟨done, before, param, rest, eq, ne, any, state, rfl⟩
    cases done with
    | nil =>
      obtain ⟨rfl, rfl⟩ := List.cons.inj eq
      exact .inl ⟨before, param, rfl, ⟨state.2.resolve_right nofun, ne, any⟩, rfl⟩
    | cons y done =>
      obtain ⟨rfl, rfl⟩ := List.cons.inj eq
      refine .inr ⟨done, before, param, rest, rfl, ne, any, (closed done).1 state, ?_⟩
      simp [Nat.add_assoc]
  · rintro (⟨before, param, rfl, ⟨isReady, ne, any⟩, rfl⟩ |
      ⟨done, before, param, rest, rfl, ne, any, state, rfl⟩)
    · exact ⟨[], before, param, ls, rfl, ne, any, ⟨closed_nil, .inl isReady⟩, rfl⟩
    · refine ⟨x :: done, before, param, rest, rfl, ne, any, (closed done).2 state, ?_⟩
      simp [Nat.add_assoc]

theorem mem_script_promote (pos : Nat) (ready : Bool) (ls : List Lexeme) (e : Splice) :
    e ∈ script pos ls (promote ready ls) ↔ Selected pos (ready = true) ls e := by
  fun_induction promote ready ls generalizing pos with
  | case1 => simp [script, Selected]
  | case2 ready before param ls h ih =>
    have keyed : (head before param).IsKeyed := ⟨before, param, rfl, h.2.1⟩
    rw [script, splices_head pos before h.2.1, List.singleton_append, List.mem_cons, ih,
      selected_cons]
    refine or_congr ⟨fun eq => ⟨before, param, rfl, h, eq⟩, ?_⟩ (by simp [keyed])
    rintro ⟨_, _, same, -, rfl⟩
    cases same
    rfl
  | case3 ready before param ls h ih =>
    rw [script, splices_self, List.nil_append, ih, selected_cons, or_iff_right]
    · by_cases keyed : (head before param).IsKeyed
      · -- Nothing is promoted later, unless a promotion is under way.
        obtain ⟨_, _, same, ne⟩ := id keyed
        cases same
        cases ready with
        | false => simp [keyed]
        | true =>
          have none : ¬ls.any Lexeme.forwards = true := fun any => h ⟨rfl, ne, any⟩
          exact iff_of_false (fun selected => none selected.any) fun selected => none selected.any
      · simp [keyed, forwards]
    · rintro ⟨_, _, same, promotes, -⟩
      cases same
      exact h promotes
  | case4 ready x ls ne ih =>
    have free : ¬x.IsKeyed := by
      rintro ⟨before, param, eq, -⟩
      exact ne before param eq
    rw [script, splices_self, List.nil_append, ih, selected_cons, or_iff_right]
    · simp [free]
    · rintro ⟨before, param, eq, -⟩
      exact ne before param eq

theorem isFree_iff (lexed : Lexed ls) (place : HeadAt ls done rest h) :
    h.IsFree (render ls) ↔ Closed done := by
  obtain ⟨split, ne, start⟩ := id place
  constructor
  · rintro free before x after rfl ⟨b, p, rfl, ne'⟩
    have cut : ls = (before ++ [head b p]) ++ after ++ head h.before h.param :: rest := by
      simp [split]
    have place' : HeadAt ls before (after ++ head h.before h.param :: rest)
      { start := (render before).length, before := b, param := p } := ⟨by simp [split], ne', rfl⟩
    have stands' := (headAt_iff lexed).2 ⟨_, _, place'⟩
    have stop' := place'.stop_eq
    have filled := Head.start_lt_stop { start := (render before).length, before := b, param := p }
    rw [any_forwards_iff lexed cut]
    simp only [render_append, render_cons, render_nil, List.length_append, List.append_nil]
      at start stop' ⊢
    obtain ⟨q, stands, le, le'⟩ := free _ stands' (by omega)
    exact ⟨q, stands, by omega, by omega⟩
  · intro closed h' stands' lt
    obtain ⟨done', rest', place'⟩ := (headAt_iff lexed).1 stands'
    have stop := place.stop_eq
    have stop' := place'.stop_eq
    obtain ⟨split', ne', start'⟩ := place'
    obtain ⟨rfl, -, -⟩ | ⟨between, rfl, -⟩ | ⟨between, rfl, -⟩ :=
      split_cases (split.symm.trans split')
    · omega
    · simp only [render_append, render_cons, List.length_append] at start'
      omega
    · have cut : ls = (done' ++ [head h'.before h'.param]) ++ between ++
          head h.before h.param :: rest := by
        simp [split]
      obtain ⟨q, stands, le, le'⟩ := (any_forwards_iff lexed cut).1
        (closed done' _ between rfl ⟨_, _, rfl, ne'⟩)
      simp only [render_append, render_cons, render_nil, List.length_append, List.append_nil]
        at start le le'
      exact ⟨q, stands, by omega, by omega⟩

theorem exists_closing_iff (lexed : Lexed ls) (place : HeadAt ls done rest h) :
    (∃ q : Closing, q.StandsIn (render ls) ∧ h.stop ≤ q.start) ↔ rest.any forwards = true := by
  have cut : ls = (done ++ [head h.before h.param]) ++ rest ++ [] := by simp [place.split]
  rw [any_forwards_iff lexed cut, place.stop_eq]
  refine exists_congr fun q => and_congr_right fun stands => ?_
  have within := stands.stop_le
  rw [cut, List.append_nil] at within
  rw [and_iff_left within]
  simp

end Lexeme

namespace SuperKey

variable {t : Text} {h h' : Head} {q : Closing}

/-- The replacements of the promoting pass. -/
def promotionScript (t : Text) : List Splice := scriptFrom promotionAt? 0 t

theorem isScriptOf_promotionScript (t : Text) : IsScriptOf (promotionScript t) t := by
  obtain ⟨ls, lexed, rfl⟩ := exists_lexed t
  rw [promotionScript, scriptFrom_promotionAt? lexed]
  exact (rewrites_script (forall₂_revised_promote true ls) lexed 0).isScriptOf

theorem carryOut_promotionScript (t : Text) : carryOut (promotionScript t) t = promote t :=
  (revise_eq_carryOutFrom promotionAt?_sound 0 t).symm

/-- The promoting pass replaces the parameters of the free heads in front of braced base calls. -/
theorem mem_promotionScript_iff (t : Text) (e : Splice) :
    e ∈ promotionScript t ↔ ∃ h : Head, h.StandsIn t ∧ h.IsFree t ∧
      (∃ q : Closing, q.StandsIn t ∧ h.stop ≤ q.start) ∧ e = h.promotion := by
  obtain ⟨ls, lexed, rfl⟩ := exists_lexed t
  rw [promotionScript, scriptFrom_promotionAt? lexed, mem_script_promote]
  constructor
  · rintro ⟨done, before, param, rest, split, ne, any, ⟨closed, -⟩, rfl⟩
    have place : HeadAt ls done rest { start := (render done).length, before, param } :=
      ⟨split, ne, rfl⟩
    refine ⟨_, (headAt_iff lexed).2 ⟨done, rest, place⟩, (isFree_iff lexed place).2 closed,
      (exists_closing_iff lexed place).2 any, ?_⟩
    simp [Head.promotion]
  · rintro ⟨h, stands, free, later, rfl⟩
    obtain ⟨done, rest, place⟩ := (headAt_iff lexed).1 stands
    refine ⟨done, h.before, h.param, rest, place.split, place.ne,
      (exists_closing_iff lexed place).1 later, ⟨(isFree_iff lexed place).1 free, .inl rfl⟩, ?_⟩
    simp [Head.promotion, place.start]

/-- What is replaced in a head lies inside it. -/
theorem Head.promotion_within (h : Head) :
    h.start ≤ h.promotion.start ∧ h.promotion.start < h.stop ∧ h.promotion.stop ≤ h.stop := by
  simp only [promotion, Splice.stop, stop, text, List.length_append, List.length_singleton]
  omega

theorem Head.StandsIn.eq_of_promotion (stands : h.StandsIn t) (stands' : h'.StandsIn t)
    (eq : h.promotion = h'.promotion) : h = h' := by
  have within := h.promotion_within
  have within' := h'.promotion_within
  rw [eq] at within
  obtain same | before | after := stands.eq_or_apart stands'
  · exact same
  · omega
  · omega

theorem Head.StandsIn.promotion_mem_iff (stands : h.StandsIn t) :
    h.promotion ∈ promotionScript t ↔
      h.IsFree t ∧ ∃ q : Closing, q.StandsIn t ∧ h.stop ≤ q.start := by
  rw [mem_promotionScript_iff]
  constructor
  · rintro ⟨h', stands', free, later, eq⟩
    obtain rfl := stands.eq_of_promotion stands' eq
    exact ⟨free, later⟩
  · rintro ⟨free, later⟩
    exact ⟨h, stands, free, later, rfl⟩

/-- The first braced base call after a head. -/
theorem exists_leadsTo (stands : q.StandsIn t) (le : h.stop ≤ q.start) (standsToo : h.StandsIn t) :
    ∃ q : Closing, q.StandsIn t ∧ h.LeadsTo q t := by
  classical
  have found : ∃ n, ∃ q : Closing, q.StandsIn t ∧ h.stop ≤ q.start ∧ q.start = n :=
    ⟨_, q, stands, le, rfl⟩
  obtain ⟨q, stands, le, first⟩ := Nat.find_spec found
  refine ⟨q, stands, le, fun q' stands' lt => ?_⟩
  obtain before | after := standsToo.apart stands'
  · exact absurd ⟨q', stands', before, rfl⟩ (Nat.find_min found (first ▸ lt))
  · exact after

/-- The first heads for braced base calls are the free ones in front of them. -/
theorem exists_isFirstFor_iff (stands : h.StandsIn t) :
    (∃ q : Closing, q.StandsIn t ∧ h.IsFirstFor q t) ↔
      h.IsFree t ∧ ∃ q : Closing, q.StandsIn t ∧ h.stop ≤ q.start := by
  have filled := h.start_lt_stop
  constructor
  · rintro ⟨q, standsClosing, ⟨le, between⟩, first⟩
    refine ⟨fun h' stands' lt => ?_, q, standsClosing, le⟩
    -- The head before is none of those in front of the base call, so one more stands in between.
    have before : h'.stop ≤ h.start := by
      obtain rfl | before | after := stands'.eq_or_apart stands
      · omega
      · exact before
      · omega
    have passed : ¬h'.LeadsTo q t := fun leads => by
      have := first h' stands' leads
      omega
    simp only [Head.LeadsTo, not_and, not_forall] at passed
    obtain ⟨q', standsClosing', lt', beyond⟩ := passed (by omega)
    exact ⟨q', standsClosing', (stands'.apart standsClosing').resolve_right beyond,
      between q' standsClosing' lt'⟩
  · rintro ⟨free, q, standsClosing, le⟩
    obtain ⟨q, standsClosing, leads⟩ := exists_leadsTo standsClosing le stands
    refine ⟨q, standsClosing, leads, fun h' stands' leads' => ?_⟩
    by_contra lt
    obtain ⟨q', standsClosing', le', stop_le⟩ := free h' stands' (by omega)
    have filled' := h'.start_lt_stop
    have filledClosing := standsClosing'.start_lt_stop
    have ahead := leads.1
    have passed := leads'.2 q' standsClosing' (by omega)
    omega

/-- Heads and braced base calls do not overlap. The promoting pass carries out one script, which
replaces the key parameter of the first head between each braced base call and the one before it.
The other heads are not touched. -/
theorem promote_selects (t : Text) :
    (∀ h h' : Head, h.StandsIn t → h'.StandsIn t →
      h = h' ∨ h.stop ≤ h'.start ∨ h'.stop ≤ h.start) ∧
    (∀ q q' : Closing, q.StandsIn t → q'.StandsIn t →
      q = q' ∨ q.stop ≤ q'.start ∨ q'.stop ≤ q.start) ∧
    (∀ (h : Head) (q : Closing), h.StandsIn t → q.StandsIn t →
      h.stop ≤ q.start ∨ q.stop ≤ h.start) ∧
    IsScriptOf (promotionScript t) t ∧ carryOut (promotionScript t) t = promote t ∧
    (∀ e, e ∈ promotionScript t ↔ ∃ (q : Closing) (h : Head), q.StandsIn t ∧ h.StandsIn t ∧
      h.IsFirstFor q t ∧ e = h.promotion) ∧
    ∀ h : Head, h.StandsIn t → (¬∃ q : Closing, q.StandsIn t ∧ h.IsFirstFor q t) →
      ∀ e ∈ promotionScript t, e.stop ≤ h.start ∨ h.stop ≤ e.start := by
  have selects (e : Splice) : e ∈ promotionScript t ↔ ∃ (q : Closing) (h : Head),
      q.StandsIn t ∧ h.StandsIn t ∧ h.IsFirstFor q t ∧ e = h.promotion := by
    rw [mem_promotionScript_iff]
    constructor
    · rintro ⟨h, stands, free, later, rfl⟩
      obtain ⟨q, standsClosing, first⟩ := (exists_isFirstFor_iff stands).2 ⟨free, later⟩
      exact ⟨q, h, standsClosing, stands, first, rfl⟩
    · rintro ⟨q, h, standsClosing, stands, first, rfl⟩
      obtain ⟨free, later⟩ := (exists_isFirstFor_iff stands).1 ⟨q, standsClosing, first⟩
      exact ⟨h, stands, free, later, rfl⟩
  refine ⟨fun _ _ stands stands' => stands.eq_or_apart stands',
    fun _ _ stands stands' => stands.eq_or_apart stands',
    fun _ _ stands stands' => stands.apart stands', isScriptOf_promotionScript t,
    carryOut_promotionScript t, selects, fun h stands none e mem => ?_⟩
  obtain ⟨q, h', standsClosing, stands', first, rfl⟩ := (selects e).1 mem
  obtain ⟨le, -, le'⟩ := h'.promotion_within
  obtain rfl | before | after := stands.eq_or_apart stands'
  · exact absurd ⟨q, standsClosing, first⟩ none
  · exact .inr (before.trans le)
  · exact .inl (le'.trans after)

/-- Two constructors in front of one forwarding base call, which belongs to the second. -/
def twoConstructors : Text :=
  "const A(\x7bKey? key, this.x\x7d);\nconst B(\x7bKey? key, this.y\x7d) : super(key: key);".toList

def firstHead : Head :=
  { start := 0, before := "const A(\x7b".toList, param := "Key? key".toList }

def secondHead : Head :=
  { start := 29, before := "const B(\x7b".toList, param := "Key? key".toList }

theorem promotionScript_twoConstructors :
    promotionScript twoConstructors = [firstHead.promotion] := by decide +kernel

theorem promote_selects_first_of_two :
    (∃ q : Closing, q.StandsIn twoConstructors ∧ firstHead.IsFirstFor q twoConstructors) ∧
      (¬∃ q : Closing, q.StandsIn twoConstructors ∧ secondHead.IsFirstFor q twoConstructors) ∧
      ∀ e ∈ promotionScript twoConstructors,
        e.stop ≤ secondHead.start ∨ secondHead.stop ≤ e.start := by
  have stands : firstHead.StandsIn twoConstructors := by decide +kernel
  have stands' : secondHead.StandsIn twoConstructors := by decide +kernel
  obtain ⟨-, -, -, -, -, selects, others⟩ := promote_selects twoConstructors
  have none : ¬∃ q : Closing, q.StandsIn twoConstructors ∧
      secondHead.IsFirstFor q twoConstructors := by
    rintro ⟨q, standsClosing, first⟩
    have mem := (selects _).2 ⟨q, secondHead, standsClosing, stands', first, rfl⟩
    rw [promotionScript_twoConstructors] at mem
    revert mem
    decide
  refine ⟨?_, none, others secondHead stands' none⟩
  obtain ⟨q, h, standsClosing, standsToo, first, eq⟩ := (selects firstHead.promotion).1
    (promotionScript_twoConstructors ▸ List.mem_singleton_self _)
  obtain rfl := stands.eq_of_promotion standsToo eq
  exact ⟨q, standsClosing, first⟩

end SuperKey

end FlutterMend
