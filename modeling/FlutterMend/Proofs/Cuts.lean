import FlutterMend.Proofs.RuleList
import FlutterMend.Proofs.Selection

/-!
# Cuts after a completed constructor

What the default rules make of a constructor may depend on text far behind it, since a promotion
goes on to the nearest braced base call. A constructor that ends with its own base call and a
semicolon is a place where nothing goes on. No lexeme reaches over a semicolon, and the base call
before it has closed all heads. So the text up to there and the text behind it are revised
independently of each other.
-/

namespace FlutterMend

open Opacity SuperKey Pattern

/-- The text ends with a braced base call and a semicolon right after it. -/
def CompletesConstructor (a : Text) : Prop :=
  ∃ front closing, bracedBaseCall.Accepts closing ∧ a = front ++ closing ++ [';']

theorem completesConstructor_iff {a : Text} : CompletesConstructor a ↔
    ∃ i < a.length, (bracedBaseCall.split? (a.drop i)).map Prod.snd = some [';'] := by
  constructor
  · rintro ⟨front, closing, accepted, rfl⟩
    refine ⟨front.length, by simp, ?_⟩
    rw [List.append_assoc, List.drop_left, split?_append (delimited_bracedBaseCall _) accepted]
    rfl
  · rintro ⟨i, -, found⟩
    obtain ⟨⟨closing, _⟩, found, rfl⟩ := Option.map_eq_some_iff.1 found
    obtain ⟨eq, accepted⟩ := split?_eq_some found
    exact ⟨a.take i, closing, accepted, by rw [List.append_assoc, ← eq, List.take_append_drop]⟩

instance (a : Text) : Decidable (CompletesConstructor a) :=
  decidable_of_iff _ completesConstructor_iff.symm

/-! ## Semicolons separate lexemes -/

/-- A text has the property by what stands in it before the first semicolon. -/
def ReadsToSemicolon (P : Text → Prop) : Prop :=
  ∀ s, P s → ∃ front rest, s = front ++ rest ∧ ';' ∉ front ∧ ∀ rest', P (front ++ rest')

theorem exists_append_of_not_mem {c : Char} {w s front rest : Text}
    (eq : w ++ c :: s = front ++ rest) (absent : c ∉ front) : ∃ w', w = front ++ w' := by
  obtain ⟨after, rfl, eq'⟩ | ⟨w', rfl, -⟩ := List.append_eq_append_iff.1 eq
  · cases after with
    | nil => exact ⟨[], by simp⟩
    | cons d after =>
      obtain ⟨rfl, -⟩ := List.cons.inj eq'
      simp at absent
  · exact ⟨w', rfl⟩

theorem ReadsToSemicolon.congr {P : Text → Prop} (h : ReadsToSemicolon P) {w s : Text} (s' : Text)
    (holds : P (w ++ ';' :: s)) : P (w ++ ';' :: s') := by
  obtain ⟨front, rest, eq, absent, others⟩ := h _ holds
  obtain ⟨w', rfl⟩ := exists_append_of_not_mem eq absent
  rw [List.append_assoc]
  exact others _

theorem semicolon_not_mem_numeral {numeral : Text} (h : isNumeral numeral = true) :
    ';' ∉ numeral := by
  intro mem
  have := isNumeralChar_of_isNumeral h _ mem
  revert this
  decide

theorem readsToSemicolon_numeralArgument : ReadsToSemicolon NumeralArgument := by
  rintro _ ⟨numeral, rest, isNumeral, rfl⟩
  refine ⟨numeral ++ [')'], rest, by simp, ?_, fun rest' => ⟨numeral, rest', isNumeral, by simp⟩⟩
  simp [semicolon_not_mem_numeral isNumeral]

theorem readsToSemicolon_baseCall : ReadsToSemicolon baseCall.StandsIn := by
  rintro _ ⟨w, rest, accepted, rfl⟩
  exact ⟨w, rest, rfl, semicolon_not_mem_baseCall accepted, fun rest' => ⟨w, rest', accepted, rfl⟩⟩

theorem readsToSemicolon_begins : ReadsToSemicolon Begins := by
  rintro _ (⟨current, argument⟩ | @⟨before, param, s, accepted, isParameter⟩ | @⟨lead, s, isLead⟩)
  · obtain ⟨front, rest, rfl, absent, others⟩ := readsToSemicolon_numeralArgument _ argument
    refine ⟨callOpening current ++ front, rest, by simp, ?_, fun rest' => ?_⟩
    · simp [semicolon_not_mem_callOpening current, absent]
    · rw [List.append_assoc]
      exact .call current (others rest')
  · refine ⟨before ++ param ++ [','], s, by simp, semicolon_not_mem_head accepted isParameter,
      fun rest' => ?_⟩
    rw [List.append_assoc]
    exact .head accepted isParameter
  · refine ⟨lead ++ [')'], s, by simp, by simp [semicolon_not_mem_lead isLead], fun rest' => ?_⟩
    rw [List.append_assoc]
    exact .closing isLead

namespace Lexeme

variable {x : Lexeme} {s w : Text} {ls ls' : List Lexeme}

/-- Which lexeme is the right one depends on nothing behind the next semicolon. -/
theorem fits_of_semicolon (s' : Text) (fits : x.Fits (w ++ ';' :: s)) :
    x.Fits (w ++ ';' :: s') := by
  cases x with
  | letter c =>
    intro begins
    exact fits (readsToSemicolon_begins.congr (w := c :: w) s begins)
  | call current => exact readsToSemicolon_numeralArgument.congr s' fits
  | head before param => exact fits
  | closing lead clauses =>
    refine ⟨fits.1, fits.2.1, fun u rest accepted eq => ?_⟩
    obtain ⟨u', rest', accepted', eq'⟩ :=
      readsToSemicolon_baseCall.congr s ⟨u, rest, accepted, eq⟩
    exact fits.2.2 u' rest' accepted' eq'

theorem exists_of_render_semicolon (lexed : Lexed ls) (h : render ls = w ++ [';']) :
    ∃ init, ls = init ++ [letter ';'] := by
  obtain rfl | ⟨init, x, rfl⟩ := List.eq_nil_or_concat' ls
  · simp at h
  · have fits := lexed.of_append.1
    obtain ⟨t, ht⟩ := exists_text fits
    obtain ⟨front, last, split⟩ := List.eq_nil_or_concat' x.text |>.resolve_left (by simp [ht])
    rw [render_append, render_cons, render_nil, List.append_nil, split, ← List.append_assoc] at h
    cases (List.append_inj' h rfl).2
    exact ⟨init, by rw [eq_letter_of_mem fits (by simp [split])]⟩

/-- Behind a semicolon the cut into lexemes begins anew. -/
theorem lexed_append (lexed : Lexed (ls ++ [letter ';'])) (lexed' : Lexed ls') :
    Lexed (ls ++ letter ';' :: ls') := by
  induction ls with
  | nil =>
    refine ⟨fun begins => ?_, lexed'⟩
    obtain ⟨eq, -⟩ | ⟨eq, -⟩ | eq | eq := begins.cons <;> cases eq
  | cons x ls ih =>
    refine ⟨?_, ih lexed.2⟩
    have fits : x.Fits (render (ls ++ [letter ';'])) := lexed.1
    change x.Fits (render (ls ++ letter ';' :: ls'))
    rw [render_append] at fits ⊢
    exact fits_of_semicolon (render ls') fits

/-! ## Completed constructors close all heads -/

/-- A forwarding closing stands behind all heads. -/
def Completed (ls : List Lexeme) : Prop :=
  ∃ done x rest, ls = done ++ x :: rest ∧ x.forwards = true ∧
    ∀ before param, head before param ∉ rest

theorem completed_of_render (lexed : Lexed ls) (h : CompletesConstructor (render ls)) :
    Completed ls := by
  obtain ⟨front, closing, accepted, eq⟩ := h
  have stands : Closing.StandsIn { start := front.length, text := closing } (render ls) :=
    ⟨accepted, [';'], by simp [eq]⟩
  obtain ⟨done, x, rest, rfl, forwards, start, text⟩ := (closingAt_iff lexed).1 stands
  refine ⟨done, x, rest, rfl, forwards, fun before param mem => ?_⟩
  -- Only the semicolon is left for the lexemes behind the closing.
  obtain ⟨after, more⟩ := (tailOf_of_forwards lexed.of_append.1 forwards rest).2
  rw [render_append, render_cons, ← more, ← text, List.append_assoc, List.append_assoc] at eq
  have behind := List.append_cancel_left (List.append_inj eq start.symm).2
  obtain ⟨a, b, rfl⟩ := List.append_of_mem mem
  obtain ⟨w, first, -⟩ := exists_head_text (lexed.of_append.2.of_append).1.1
    (lexed.of_append.2.of_append).1.2
  have inside : 'c' ∈ [';'] := by
    rw [← behind, render_append, render_cons, Lexeme.text, first]
    simp
  revert inside
  decide

theorem promote_of_headless {rest : List Lexeme}
    (headless : ∀ before param, head before param ∉ rest) (ls' : List Lexeme) :
    promote true (rest ++ ls') = rest ++ promote true ls' := by
  induction rest with
  | nil => rfl
  | cons x rest ih =>
    have later := ih fun before param mem => headless before param (List.mem_cons_of_mem _ mem)
    cases x with
    | head before param => exact absurd List.mem_cons_self (headless before param)
    | _ => simp [promote, later]

/-- Behind a completed constructor, promotions begin anew. -/
theorem promote_append (h : Completed ls) (ready : Bool) (ls' : List Lexeme) :
    promote ready (ls ++ ls') = promote ready ls ++ promote true ls' := by
  obtain ⟨done, x, rest, rfl, forwards, headless⟩ := h
  induction done generalizing ready with
  | nil =>
    obtain ⟨c, lead, u, clauses, rfl⟩ := exists_of_forwards forwards
    have alone := promote_of_headless headless []
    rw [List.append_nil] at alone
    simp [promote, Lexeme.forwards, promote_of_headless headless, alone]
  | cons y done ih =>
    have closed : (done ++ x :: rest).any Lexeme.forwards = true := by simp [forwards]
    have closed' : (done ++ x :: rest ++ ls').any Lexeme.forwards = true := by
      rw [List.any_append, closed, Bool.true_or]
    rw [List.cons_append, List.cons_append]
    cases y with
    | head before param =>
      simp only [promote, closed, closed', ih]
      split <;> rfl
    | _ => simp only [promote, ih, List.cons_append]

theorem applyRule_append (h : Completed ls) (ls' : List Lexeme) :
    applyRule .opacity (applyRule .superKey (ls ++ ls')) =
      applyRule .opacity (applyRule .superKey ls) ++
        applyRule .opacity (applyRule .superKey ls') := by
  simp only [applyRule, promote_append h, List.map_append]

theorem text_defaults_render (lexed : Lexed ls) :
    (Revision.ofRules Rule.defaults (render ls)).text =
      render (applyRule .opacity (applyRule .superKey ls)) := by
  rw [Revision.text_ofRules, ← applyRule_comm,
    ← revise_render .superKey (lexed_applyRule .opacity lexed), ← revise_render .opacity lexed]
  rfl

end Lexeme

open Lexeme

/-- The text before the end of a completed constructor and the text behind it are revised
independently. -/
theorem text_defaults_append {a : Text} (h : CompletesConstructor a) (b : Text) :
    (Revision.ofRules Rule.defaults (a ++ b)).text =
      (Revision.ofRules Rule.defaults a).text ++ (Revision.ofRules Rule.defaults b).text := by
  obtain ⟨ls, lexed, rfl⟩ := exists_lexed a
  obtain ⟨ls', lexed', rfl⟩ := exists_lexed b
  have completed := completed_of_render lexed h
  obtain ⟨front, closing, -, eq⟩ := h
  obtain ⟨init, rfl⟩ := exists_of_render_semicolon lexed eq
  have whole : Lexed (init ++ [letter ';'] ++ ls') := by
    rw [List.append_assoc]
    exact lexed_append lexed lexed'
  rw [← render_append, text_defaults_render whole, text_defaults_render lexed,
    text_defaults_render lexed', applyRule_append completed, render_append]

/-- The default rules distribute over a cut behind a completed constructor, and so over any number
of such cuts. -/
theorem defaults_distribute_over_cuts :
    (∀ a b : Text, CompletesConstructor a →
      (Revision.ofRules Rule.defaults (a ++ b)).text =
        (Revision.ofRules Rule.defaults a).text ++ (Revision.ofRules Rule.defaults b).text) ∧
    ∀ (parts : List Text) (b : Text), (∀ a ∈ parts, CompletesConstructor a) →
      (Revision.ofRules Rule.defaults (parts.flatten ++ b)).text =
        parts.flatMap (fun a => (Revision.ofRules Rule.defaults a).text) ++
          (Revision.ofRules Rule.defaults b).text := by
  refine ⟨fun a b h => text_defaults_append h b, fun parts b h => ?_⟩
  induction parts with
  | nil => rfl
  | cons a parts ih =>
    rw [List.flatten_cons, List.append_assoc, text_defaults_append (h a List.mem_cons_self),
      ih fun d hd => h d (List.mem_cons_of_mem _ hd), List.flatMap_cons, List.append_assoc]

/-- Behind another semicolon a head may still be open for a base call to come. -/
example :
    let a := "const A(\x7bKey? key, this.x\x7d);".toList
    let b := "const B(\x7bthis.y\x7d) : super(key: key);".toList
    (Revision.ofRules Rule.defaults (a ++ b)).text ≠
      (Revision.ofRules Rule.defaults a).text ++ (Revision.ofRules Rule.defaults b).text := by
  decide +kernel

/-- Two texts that end with a completed constructor. In the first one, two heads are open before. -/
def completedTexts : List Text :=
  ["const A(\x7bKey? key, this.x\x7d); const B(\x7bKey? key, this.y\x7d) : super(key: key);".toList,
    "\nC(\x7bKey? key\x7d)\n  : super( key: key );".toList]

theorem defaults_distribute_over_completedTexts :
    (∀ a ∈ completedTexts, CompletesConstructor a) ∧
      (Revision.ofRules Rule.defaults
        (completedTexts.flatten ++ "\nconst D(\x7bKey? key, this.z\x7d);".toList)).text =
      ("const A(\x7bsuper.key, this.x\x7d); const B(\x7bKey? key, this.y\x7d);" ++
        "\nC(\x7bKey? key\x7d);" ++ "\nconst D(\x7bKey? key, this.z\x7d);").toList := by
  have all : ∀ a ∈ completedTexts, CompletesConstructor a := by decide +kernel
  refine ⟨all, ?_⟩
  rw [defaults_distribute_over_cuts.2 completedTexts _ all]
  decide +kernel

end FlutterMend
