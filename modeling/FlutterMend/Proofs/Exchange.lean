import FlutterMend.Proofs.Lexeme

/-!
# Exchanging lexemes

What the passes of the rules do to a text is told here on its lexemes. A deprecated call becomes a
current one, a promotable head gets its new parameter, and a closing loses the first, third, fifth
and so on of its base calls. Each exchange is a script of replacements in the text of the lexeme,
and the exchanges of different passes do not meet.
-/

namespace FlutterMend

open Opacity SuperKey

/-- The second, fourth, sixth and so on of a list of clauses. -/
def everySecond : List Text → List Text
  | _ :: w :: clauses => w :: everySecond clauses
  | _ => []

theorem everySecond_sublist (clauses : List Text) : (everySecond clauses).Sublist clauses := by
  fun_induction everySecond clauses with
  | case1 u w clauses ih => exact (ih.cons_cons w).cons u
  | case2 clauses => exact List.nil_sublist _

theorem length_everySecond (clauses : List Text) :
    (everySecond clauses).length = clauses.length / 2 := by
  fun_induction everySecond clauses with
  | case1 u w clauses ih =>
    simp only [List.length_cons, ih]
    omega
  | case2 clauses h =>
    match clauses with
    | [] => rfl
    | [_] => simp
    | _ :: _ :: _ => exact absurd rfl (h _ _ _)

namespace Lexeme

def modernize : Lexeme → Lexeme
  | call _ => call true
  | x => x

def shorten : Lexeme → Lexeme
  | closing lead clauses => closing lead (everySecond clauses)
  | x => x

@[simp] theorem modernize_head (before param : Text) :
    (head before param).modernize = head before param := rfl

@[simp] theorem modernize_closing (lead : Text) (clauses : List Text) :
    (closing lead clauses).modernize = closing lead clauses := rfl

/-- A braced base call stands in a closing. -/
def forwards : Lexeme → Bool
  | closing (_ :: _) (_ :: _) => true
  | _ => false

theorem exists_of_forwards {x : Lexeme} (h : x.forwards = true) :
    ∃ c lead u clauses, x = closing (c :: lead) (u :: clauses) := by
  cases x with
  | closing lead clauses =>
    cases lead with
    | nil => cases h
    | cons c lead =>
      cases clauses with
      | nil => cases h
      | cons u clauses => exact ⟨c, lead, u, clauses, rfl⟩
  | _ => cases h

/-- Promotes the first head in front of every forwarding closing. While not ready, a closing that a
head before has been promoted for is still to come. -/
def promote : Bool → List Lexeme → List Lexeme
  | _, [] => []
  | ready, head before param :: ls =>
    if ready ∧ param ≠ promotedParameter ∧ ls.any forwards then
      head before promotedParameter :: promote false ls
    else head before param :: promote ready ls
  | ready, x :: ls => x :: promote (ready || x.forwards) ls

/-- The exchanges of the passes. -/
inductive Revised : Lexeme → Lexeme → Prop where
  | same (x : Lexeme) : Revised x x
  | call : Revised (call false) (call true)
  | head (before : Text) {param : Text} : param ≠ promotedParameter →
      Revised (head before param) (head before promotedParameter)
  | closing (lead : Text) {clauses : List Text} : clauses ≠ [] →
      Revised (closing lead clauses) (closing lead (everySecond clauses))

/-- Every other clause is removed, beginning with the first. -/
def clauseSplices : Nat → List Text → List Splice
  | _, [] => []
  | pos, [u] => [{ start := pos, removed := u, inserted := [] }]
  | pos, u :: w :: clauses =>
    { start := pos, removed := u, inserted := [] } ::
      clauseSplices (pos + u.length + w.length) clauses

/-- The replacements that turn a lexeme at a position into the other one. -/
def splices (pos : Nat) (x y : Lexeme) : List Splice :=
  if x = y then []
  else
    match x, y with
    | call a, call b => [{ start := pos, removed := callOpening a, inserted := callOpening b }]
    | head before p, head _ q => [{ start := pos + before.length, removed := p, inserted := q }]
    | closing lead clauses, closing _ _ => clauseSplices (pos + lead.length + 1) clauses
    | _, _ => []

/-- The replacements that turn lexemes into others. -/
def script : Nat → List Lexeme → List Lexeme → List Splice
  | pos, x :: ls, y :: ls' => splices pos x y ++ script (pos + x.text.length) ls ls'
  | _, _, _ => []

section Revised

variable {x y : Lexeme} {s : Text} {ls ls' : List Lexeme}

theorem Revised.similar (h : Revised x y) (fits : x.Fits s) : Similar x y := by
  cases h with
  | same => exact .refl fits
  | call => exact .call _ _
  | head before _ => exact .head before (.inr rfl)
  | closing lead _ =>
    exact .closing lead fun w hw => fits.2.1 w ((everySecond_sublist _).subset hw)

theorem similar_of_revised (h : List.Forall₂ Revised ls ls') (lexed : Lexed ls) :
    List.Forall₂ Similar ls ls' := by
  induction h with
  | nil => exact .nil
  | cons h _ ih => exact .cons (h.similar lexed.1) (ih lexed.2)

theorem revised_modernize (x : Lexeme) : Revised x x.modernize := by
  cases x with
  | call current =>
    cases current
    · exact .call
    · exact .same _
  | _ => exact .same _

theorem revised_shorten (x : Lexeme) : Revised x x.shorten := by
  cases x with
  | closing lead clauses =>
    by_cases h : clauses = []
    · subst h
      exact .same _
    · exact .closing lead h
  | _ => exact .same _

theorem forall₂_revised_map {f : Lexeme → Lexeme} (h : ∀ x, Revised x (f x)) (ls : List Lexeme) :
    List.Forall₂ Revised ls (ls.map f) := by
  induction ls with
  | nil => exact .nil
  | cons x ls ih => exact .cons (h x) ih

theorem lexed_of_revised (h : List.Forall₂ Revised ls ls') (lexed : Lexed ls) : Lexed ls' :=
  lexed_of_similar (similar_of_revised h lexed) lexed

end Revised

/-! ## The passes side by side -/

theorem any_forwards_map_modernize (ls : List Lexeme) :
    (ls.map modernize).any forwards = ls.any forwards := by
  rw [List.any_map]
  congr 1
  funext x
  cases x <;> rfl

theorem promote_map_modernize (ready : Bool) (ls : List Lexeme) :
    promote ready (ls.map modernize) = (promote ready ls).map modernize := by
  fun_induction promote ready ls with
  | case1 => rfl
  | case2 ready before param ls h ih =>
    simp only [List.map_cons, modernize, promote, any_forwards_map_modernize, if_pos h, ih]
  | case3 ready before param ls h ih =>
    simp only [List.map_cons, modernize, promote, any_forwards_map_modernize, if_neg h, ih]
  | case4 ready x ls _ ih => cases x <;> simp_all [modernize, promote, forwards]

theorem shorten_modernize (x : Lexeme) : x.modernize.shorten = x.shorten.modernize := by
  cases x <;> rfl

/-- A promoted lexeme after the other passes. -/
def settle (x : Lexeme) : Lexeme := x.modernize.shorten

theorem revised_settle (x : Lexeme) : Revised x x.settle := by
  cases x with
  | call current => exact revised_modernize _
  | _ => exact revised_shorten _

section Promote

variable {f : Lexeme → Lexeme}

/-- Heads may be promoted along with exchanges that leave heads alone. -/
theorem forall₂_revised_map_promote (revised : ∀ x, Revised x (f x))
    (keeps : ∀ before param, f (head before param) = head before param) (ready : Bool)
    (ls : List Lexeme) : List.Forall₂ Revised ls ((promote ready ls).map f) := by
  fun_induction promote ready ls with
  | case1 => exact .nil
  | case2 ready before param ls h ih =>
    rw [List.map_cons, keeps]
    exact .cons (.head before h.2.1) ih
  | case3 ready before param ls h ih => exact .cons (revised _) ih
  | case4 ready x ls _ ih => exact .cons (revised x) ih

theorem forall₂_revised_promote (ready : Bool) (ls : List Lexeme) :
    List.Forall₂ Revised ls (promote ready ls) := by
  simpa using forall₂_revised_map_promote (f := id) .same (fun _ _ => rfl) ready ls

end Promote

/-! ## The replacements -/

section Script

variable {x y : Lexeme} {s : Text} {ls ls' : List Lexeme}

theorem rewrites_clauseSplices {clauses : List Text} (ne : ∀ w ∈ clauses, w ≠ []) (pos : Nat) :
    Rewrites pos (clauseSplices pos clauses) clauses.flatten (everySecond clauses).flatten := by
  fun_induction clauseSplices pos clauses with
  | case1 pos => exact .nil pos
  | case2 pos u =>
    have first := Rewrites.single pos [] (ne u List.mem_cons_self)
    simpa [everySecond] using first
  | case3 pos u w clauses ih =>
    have rest := ih fun v hv => ne v (List.mem_cons_of_mem _ (List.mem_cons_of_mem _ hv))
    have kept := (Rewrites.refl (pos + u.length) w).append rest
    exact .replace [] (ne u List.mem_cons_self) kept

theorem mem_clauseSplices (pos : Nat) (u : Text) (clauses : List Text) :
    { start := pos, removed := u, inserted := [] } ∈ clauseSplices pos (u :: clauses) := by
  cases clauses with
  | nil => exact List.mem_cons_self
  | cons w clauses => exact List.mem_cons_self

@[simp] theorem splices_self (pos : Nat) (x : Lexeme) : splices pos x x = [] := if_pos rfl

theorem splices_head (pos : Nat) (before : Text) {param : Text} (ne : param ≠ promotedParameter) :
    splices pos (head before param) (head before promotedParameter) =
      [{ start := pos + before.length, removed := param, inserted := promotedParameter }] := by
  have differ : head before param ≠ head before promotedParameter := fun eq =>
    ne (head.inj eq).2
  rw [splices, if_neg differ]

theorem splices_closing (pos : Nat) (lead : Text) (clauses : List Text) :
    splices pos (closing lead clauses) (closing lead (everySecond clauses)) =
      clauseSplices (pos + lead.length + 1) clauses := by
  cases clauses with
  | nil => exact splices_self _ _
  | cons u clauses =>
    have differ : closing lead (u :: clauses) ≠ closing lead (everySecond (u :: clauses)) :=
      fun eq => by
        have same := congrArg List.length (closing.inj eq).2
        rw [length_everySecond, List.length_cons] at same
        omega
    rw [splices, if_neg differ]

theorem rewrites_splices (h : Revised x y) (fits : x.Fits s) (pos : Nat) :
    Rewrites pos (splices pos x y) x.text y.text := by
  cases h with
  | same =>
    rw [splices_self]
    exact .refl _ _
  | call => exact .single pos (callOpening true) (by decide)
  | @head before param ne =>
    have filled : param ≠ [] := by
      obtain ⟨blanks, rfl, -⟩ := exists_of_parameter_accepts (fits.2.resolve_right ne)
      exact List.cons_ne_nil _ _
    have first := (Rewrites.refl pos before).append (.single _ promotedParameter filled)
    rw [splices_head pos before ne]
    simpa [text] using first.append (Rewrites.refl _ [','])
  | @closing lead clauses ne =>
    have filled : ∀ w ∈ clauses, w ≠ [] := fun w hw => by
      obtain ⟨stem, rfl, -⟩ := exists_of_baseCall_accepts (fits.2.1 w hw)
      simp
    have first := Rewrites.refl pos (lead ++ [')'])
    have rest := rewrites_clauseSplices filled (pos + lead.length + 1)
    rw [splices_closing]
    simpa [text] using first.append (by simpa [Nat.add_assoc] using rest)

/-- The script of exchanges turns the text of the lexemes into the text of the others. -/
theorem rewrites_script (h : List.Forall₂ Revised ls ls') (lexed : Lexed ls) (pos : Nat) :
    Rewrites pos (script pos ls ls') (render ls) (render ls') := by
  induction h generalizing pos with
  | nil => exact .nil pos
  | cons h _ ih => exact (rewrites_splices h lexed.1 pos).append (ih lexed.2 _)

/-- The replacements come from the lexemes one by one. -/
theorem mem_script_map_iff {f : Lexeme → Lexeme} {e : Splice} (pos : Nat) (ls : List Lexeme) :
    e ∈ script pos ls (ls.map f) ↔ ∃ done x rest, ls = done ++ x :: rest ∧
      e ∈ splices (pos + (render done).length) x (f x) := by
  induction ls generalizing pos with
  | nil => simp [script]
  | cons y ls ih =>
    rw [List.map_cons, script, List.mem_append, ih]
    constructor
    · rintro (mem | ⟨done, x, rest, rfl, mem⟩)
      · exact ⟨[], y, ls, rfl, mem⟩
      · refine ⟨y :: done, x, rest, rfl, ?_⟩
        rwa [render_cons, List.length_append, ← Nat.add_assoc]
    · rintro ⟨done, x, rest, eq, mem⟩
      cases done with
      | nil =>
        obtain ⟨rfl, rfl⟩ := List.cons.inj eq
        exact .inl mem
      | cons z done =>
        obtain ⟨rfl, rfl⟩ := List.cons.inj eq
        rw [render_cons, List.length_append, ← Nat.add_assoc] at mem
        exact .inr ⟨done, x, rest, rfl, mem⟩

theorem mem_script_map_promote {f : Lexeme → Lexeme} {e : Splice}
    (keeps : ∀ before param, f (head before param) = head before param) (pos : Nat) (ready : Bool)
    (ls : List Lexeme) : e ∈ script pos ls ((promote ready ls).map f) ↔
      e ∈ script pos ls (ls.map f) ∨ e ∈ script pos ls (promote ready ls) := by
  fun_induction promote ready ls generalizing pos with
  | case1 => simp [script]
  | case2 ready before param ls h ih =>
    simp only [List.map_cons, keeps, script, List.mem_append, splices_self, ih]
    tauto
  | case3 ready before param ls h ih =>
    simp only [List.map_cons, keeps, script, List.mem_append, splices_self, ih]
    tauto
  | case4 ready x ls _ ih =>
    simp only [List.map_cons, script, List.mem_append, splices_self, ih]
    tauto

theorem mem_script_map_settle {e : Splice} (pos : Nat) (ls : List Lexeme) :
    e ∈ script pos ls (ls.map settle) ↔
      e ∈ script pos ls (ls.map modernize) ∨ e ∈ script pos ls (ls.map shorten) := by
  induction ls generalizing pos with
  | nil => simp [script]
  | cons x ls ih =>
    simp only [List.map_cons, script, List.mem_append, ih]
    cases x with
    | call current =>
      simp only [settle, modernize, shorten, splices_self, List.not_mem_nil]
      tauto
    | _ =>
      simp only [settle, modernize, shorten, splices_self, List.not_mem_nil]
      tauto

/-- No two passes exchange the same lexeme, so all replacements can be made at once. -/
theorem mem_script_settle_promote {e : Splice} (pos : Nat) (ready : Bool) (ls : List Lexeme) :
    e ∈ script pos ls ((promote ready ls).map settle) ↔
      e ∈ script pos ls (ls.map modernize) ∨ e ∈ script pos ls (promote ready ls) ∨
        e ∈ script pos ls (ls.map shorten) := by
  rw [mem_script_map_promote (fun _ _ => rfl), mem_script_map_settle]
  tauto

end Script

end Lexeme

end FlutterMend
