import FlutterMend.Proofs.Finder

/-!
# Lexemes

A text is cut at the places the rules look at: the opening of a call with a numeral as its argument,
the head of a constant constructor through its key parameter, and a closing parenthesis with all the
forwarding base calls that follow it. Everything else is cut into single characters.

Every text has such a cut. Its main property is that the cut survives revision: if lexemes are
exchanged for similar ones, the new lexemes are again the cut of the text they make up. No rule can
therefore create a place for another rule, or destroy one.
-/

namespace FlutterMend

open Opacity SuperKey

/-- A numeral and a closing parenthesis stand at the front. -/
def NumeralArgument (s : Text) : Prop :=
  ∃ numeral rest, isNumeral numeral = true ∧ s = numeral ++ ')' :: rest

/-- The key parameter of a constructor after its promotion. -/
def promotedParameter : Text := "super.key".toList

def IsParameter (s : Text) : Prop := parameter.Accepts s ∨ s = promotedParameter

/-- What may stand before the parenthesis of a closing: nothing, or a brace and blanks. -/
def IsLead (s : Text) : Prop :=
  s = [] ∨ ∃ blanks, s = '}' :: blanks ∧ ∀ c ∈ blanks, CharClass.whiteSpace.contains c = true

inductive Lexeme where
  | letter (c : Char)
  | call (current : Bool)
  | head (before parameter : Text)
  | closing (lead : Text) (clauses : List Text)
  deriving DecidableEq, Repr

/-- One of the longer lexemes begins at the front of a text. -/
inductive Begins : Text → Prop where
  | call (current : Bool) {s : Text} : NumeralArgument s → Begins (callOpening current ++ s)
  | head {before param s : Text} : opening.Accepts before → IsParameter param →
      Begins (before ++ param ++ ',' :: s)
  | closing {lead s : Text} : IsLead lead → Begins (lead ++ ')' :: s)

theorem Begins.parenthesis (s : Text) : Begins (')' :: s) := @closing [] s (.inl rfl)

namespace Lexeme

def text : Lexeme → Text
  | letter c => [c]
  | call current => callOpening current
  | head before param => before ++ param ++ [',']
  | closing lead clauses => lead ++ ')' :: clauses.flatten

/-- Whether a lexeme is the right one in front of the given rest of a text. A closing takes all base
calls that there are. -/
def Fits : Lexeme → Text → Prop
  | letter c, s => ¬Begins (c :: s)
  | call _, s => NumeralArgument s
  | head before param, _ => opening.Accepts before ∧ IsParameter param
  | closing lead clauses, s => IsLead lead ∧ (∀ w ∈ clauses, baseCall.Accepts w) ∧
      ∀ w rest, baseCall.Accepts w → s ≠ w ++ rest

/-- The text that lexemes make up. -/
def render (ls : List Lexeme) : Text := ls.flatMap text

@[simp] theorem render_nil : render [] = [] := rfl

@[simp] theorem render_cons (x : Lexeme) (ls : List Lexeme) :
    render (x :: ls) = x.text ++ render ls := rfl

@[simp] theorem render_append (ls ls' : List Lexeme) :
    render (ls ++ ls') = render ls ++ render ls' := List.flatMap_append

end Lexeme

/-- The lexemes are the cut of the text they make up. -/
def Lexed : List Lexeme → Prop
  | [] => True
  | x :: ls => x.Fits (Lexeme.render ls) ∧ Lexed ls

theorem Lexed.of_append {ls ls' : List Lexeme} (h : Lexed (ls ++ ls')) : Lexed ls' := by
  induction ls with
  | nil => exact h
  | cons x ls ih => exact ih h.2

/-! ## Where longer lexemes begin -/

/-- How the longer lexemes begin, told from two characters. -/
def mayBegin (c : Char) (next : Option Char) : Bool :=
  c == '}' || c == ')' || (c == '.' && next == some 'w') || (c == 'c' && next == some 'o')

/-- Whether no two characters of a text can begin a longer lexeme. -/
def quiet : Text → Option Char → Bool
  | [], _ => true
  | c :: w, next => !mayBegin c (w.head?.or next) && quiet w next

theorem callOpening_eq (current : Bool) :
    ∃ name, callOpening current = '.' :: 'w' :: name ∧
      ∀ next, quiet ('w' :: name) next = true := by
  cases current
  · exact ⟨"ithOpacity(".toList, rfl, fun _ => rfl⟩
  · exact ⟨"ithValues(alpha: ".toList, rfl, fun _ => rfl⟩

theorem exists_of_opening_accepts {before : Text} (h : opening.Accepts before) :
    ∃ blanks name more more',
      before = 'c' :: 'o' :: 'n' :: 's' :: 't' ::
        (blanks ++ (name ++ '(' :: (more ++ '{' :: more'))) ∧
      blanks ≠ [] ∧ (∀ c ∈ blanks, CharClass.whiteSpace.contains c = true) ∧
      (∀ c ∈ name, CharClass.word.contains c = true) ∧
      (∀ c ∈ more, CharClass.whiteSpace.contains c = true) ∧
      ∀ c ∈ more', CharClass.whiteSpace.contains c = true := by
  obtain ⟨_, _, rfl, rfl, blanks, _, rfl, ⟨long, hblanks⟩, name, _, rfl, ⟨-, hname⟩, _, _, rfl,
    rfl, more, _, rfl, ⟨-, hmore⟩, _, _, rfl, rfl, more', _, rfl, ⟨-, hmore'⟩, rfl⟩ := h
  refine ⟨blanks, name, more, more', by simp, ?_, hblanks, hname, hmore, hmore'⟩
  rintro rfl
  simp at long

theorem Begins.ne_nil {s : Text} (h : Begins s) : s ≠ [] := by
  cases h with
  | call current _ =>
    obtain ⟨name, eq, -⟩ := callOpening_eq current
    simp [eq]
  | head _ _ => simp
  | closing _ => simp

/-- How a text begins in which a longer lexeme begins. -/
theorem Begins.cons {c : Char} {s : Text} (h : Begins (c :: s)) :
    (c = '.' ∧ ∃ rest, s = 'w' :: rest) ∨
      (c = 'c' ∧ ∃ b rest, CharClass.whiteSpace.contains b = true ∧
        s = 'o' :: 'n' :: 's' :: 't' :: b :: rest) ∨
      c = '}' ∨ c = ')' := by
  generalize ht : c :: s = t at h
  cases h with
  | call current arg =>
    obtain ⟨name, eq, -⟩ := callOpening_eq current
    rw [eq] at ht
    cases ht
    exact .inl ⟨rfl, _, rfl⟩
  | head accepted isParameter =>
    obtain ⟨blanks, name, more, more', rfl, ne, all, -⟩ := exists_of_opening_accepts accepted
    obtain ⟨b, blanks, rfl⟩ := List.exists_cons_of_ne_nil ne
    cases ht
    exact .inr (.inl ⟨rfl, b, _, all b List.mem_cons_self, rfl⟩)
  | closing isLead =>
    obtain rfl | ⟨blanks, rfl, -⟩ := isLead
    · cases ht; exact .inr (.inr (.inr rfl))
    · cases ht; exact .inr (.inr (.inl rfl))

theorem mayBegin_of_begins {c : Char} {s : Text} (h : Begins (c :: s)) :
    mayBegin c s.head? = true := by
  obtain ⟨rfl, rest, rfl⟩ | ⟨rfl, b, rest, -, rfl⟩ | rfl | rfl := h.cons <;> rfl

theorem free_of_quiet {w rest : Text} (h : quiet w rest.head? = true) : Free Begins w rest := by
  induction w with
  | nil => trivial
  | cons c w ih =>
    rw [quiet, Bool.and_eq_true] at h
    refine ⟨fun begins => ?_, ih h.2⟩
    have := mayBegin_of_begins begins
    rw [List.head?_append] at this
    simp [this] at h

/-- No longer lexeme begins with a character other than these four. -/
theorem free_of_forall_ne {w rest : Text}
    (h : ∀ c ∈ w, c ≠ '}' ∧ c ≠ ')' ∧ c ≠ '.' ∧ c ≠ 'c') : Free Begins w rest := by
  refine .of_forall_mem fun c hc s begins => ?_
  obtain ⟨rfl, -⟩ | ⟨rfl, -⟩ | rfl | rfl := begins.cons <;> simpa using h _ hc

theorem free_of_whiteSpace {w rest : Text}
    (h : ∀ c ∈ w, CharClass.whiteSpace.contains c = true) : Free Begins w rest := by
  refine free_of_forall_ne fun c hc => ?_
  have := h c hc
  refine ⟨?_, ?_, ?_, ?_⟩ <;> rintro rfl <;> revert this <;> decide

/-- The beginning of a head inside a name finds no blank to go on with. -/
theorem free_of_word {w rest : Text} (h : ∀ c ∈ w, CharClass.word.contains c = true) :
    Free Begins w ('(' :: rest) := by
  induction w with
  | nil => trivial
  | cons c w ih =>
    refine ⟨fun begins => ?_, ih fun d hd => h d (List.mem_cons_of_mem _ hd)⟩
    have isWord := h c List.mem_cons_self
    obtain ⟨rfl, -⟩ | ⟨rfl, b, tail, isBlank, eq⟩ | rfl | rfl := begins.cons
    · revert isWord; decide
    · -- The word ends at the parenthesis on one side and at the blank on the other.
      have noWord := CharClass.not_contains_of_disjoint CharClass.disjoint_whiteSpace_word isBlank
      have left : (w ++ '(' :: rest).dropWhile CharClass.word.contains = '(' :: rest :=
        (Pattern.takeWhile_append_eq (fun d hd => h d (List.mem_cons_of_mem _ hd))
          (by simp; decide)).2
      have right : (['o', 'n', 's', 't'] ++ b :: tail).dropWhile CharClass.word.contains =
          b :: tail :=
        (Pattern.takeWhile_append_eq (List.all_eq_true.1 (by decide)) (by simpa using noWord)).2
      rw [eq] at left
      cases left.symm.trans right
      revert isBlank; decide
    · revert isWord; decide
    · revert isWord; decide

theorem free_of_numeral {w rest : Text} (h : ∀ c ∈ w, isNumeralChar c = true) :
    Free Begins w (')' :: rest) := by
  induction w with
  | nil => trivial
  | cons c w ih =>
    refine ⟨fun begins => ?_, ih fun d hd => h d (List.mem_cons_of_mem _ hd)⟩
    have isNumeral := h c List.mem_cons_self
    obtain ⟨rfl, tail, eq⟩ | ⟨rfl, -⟩ | rfl | rfl := begins.cons
    · cases w with
      | nil => cases eq
      | cons d w =>
        cases eq
        have := h 'w' (List.mem_cons_of_mem _ List.mem_cons_self)
        revert this; decide
    · revert isNumeral; decide
    · revert isNumeral; decide
    · revert isNumeral; decide

theorem exists_of_baseCall_accepts {w : Text} (h : baseCall.Accepts w) :
    ∃ stem, w = stem ++ [')'] ∧ ∀ c ∈ stem, c ≠ '}' ∧ c ≠ ')' ∧ c ≠ '.' ∧ c ≠ 'c' := by
  obtain ⟨stem, close, rfl, accepted, hclose⟩ :=
    (Pattern.accepts_append (p := baseCall.dropLast) (q := [.literal [')']])).1 h
  rw [Pattern.accepts_literal] at hclose
  have avoided {c : Char} (hc : Pattern.avoids baseCall.dropLast c = true) : c ∉ stem :=
    Pattern.not_mem_of_avoids hc accepted
  refine ⟨stem, by rw [hclose], fun c hc => ⟨?_, ?_, ?_, ?_⟩⟩ <;> rintro rfl
  · exact avoided (by decide +kernel) hc
  · exact avoided (by decide +kernel) hc
  · exact avoided (by decide +kernel) hc
  · exact avoided (by decide +kernel) hc

theorem IsParameter.free {param rest : Text} (h : IsParameter param) :
    Free Begins param (',' :: rest) := by
  obtain h | rfl := h
  · obtain ⟨blanks, rfl, all⟩ := exists_of_parameter_accepts h
    refine .append (v := ['K', 'e', 'y', '?']) (free_of_forall_ne (by simp)) ?_
    exact (free_of_whiteSpace all).append (free_of_forall_ne (by simp))
  · exact free_of_quiet rfl

/-- Nothing longer begins inside a head. -/
theorem exists_head_text {before param : Text} (accepted : opening.Accepts before)
    (isParameter : IsParameter param) :
    ∃ w, before ++ param = 'c' :: w ∧ ∀ rest, Free Begins w (',' :: rest) := by
  obtain ⟨blanks, name, more, more', rfl, -, hblanks, hname, hmore, hmore'⟩ :=
    exists_of_opening_accepts accepted
  refine ⟨_, rfl, fun rest => ?_⟩
  refine .append (v := 'o' :: 'n' :: 's' :: 't' :: _) ?_ isParameter.free
  refine .append (v := ['o', 'n', 's', 't']) (free_of_forall_ne (by simp)) ?_
  refine (free_of_whiteSpace hblanks).append ((free_of_word hname).append ?_)
  refine .append (v := ['(']) (free_of_forall_ne (by simp)) ((free_of_whiteSpace hmore).append ?_)
  exact .append (v := ['{']) (free_of_forall_ne (by simp)) (free_of_whiteSpace hmore')

/-! ## Exchanging lexemes for similar ones -/

namespace Lexeme

/-- Lexemes that begin alike and may stand for each other. -/
inductive Similar : Lexeme → Lexeme → Prop where
  | letter (c : Char) : Similar (letter c) (letter c)
  | call (a b : Bool) : Similar (call a) (call b)
  | head (before : Text) {p q : Text} : IsParameter q → Similar (head before p) (head before q)
  | closing (lead : Text) {cs ds : List Text} : (∀ w ∈ ds, baseCall.Accepts w) →
      Similar (closing lead cs) (closing lead ds)

theorem Similar.symm {x y : Lexeme} {s : Text} (h : Similar x y) (fits : x.Fits s) :
    Similar y x := by
  cases h with
  | letter c => exact .letter c
  | call a b => exact .call b a
  | head before _ => exact .head before fits.2
  | closing lead _ => exact .closing lead fits.2.1

/-- The character with which a lexeme begins. -/
def first : Lexeme → Char
  | letter c => c
  | call _ => '.'
  | head _ _ => 'c'
  | closing lead _ => (lead.head?).getD ')'

theorem Similar.exists_text {x y : Lexeme} {s : Text} (h : Similar x y) (fits : x.Fits s) :
    ∃ t, y.text = x.first :: t := by
  cases h with
  | letter c => exact ⟨[], rfl⟩
  | call a b =>
    obtain ⟨name, eq, -⟩ := callOpening_eq b
    exact ⟨_, eq⟩
  | head before isParameter =>
    obtain ⟨w, eq, -⟩ := exists_head_text fits.1 isParameter
    exact ⟨w ++ [','], by rw [text, eq]; rfl⟩
  | closing lead all =>
    cases lead with
    | nil => exact ⟨_, rfl⟩
    | cons c lead => exact ⟨_, rfl⟩

theorem Similar.refl {x : Lexeme} {s : Text} (fits : x.Fits s) : Similar x x := by
  cases x with
  | letter c => exact .letter c
  | call a => exact .call a a
  | head before param => exact .head before fits.2
  | closing lead clauses => exact .closing lead fits.2.1

theorem exists_text {x : Lexeme} {s : Text} (fits : x.Fits s) : ∃ t, x.text = x.first :: t :=
  (Similar.refl fits).exists_text fits

theorem head?_render {ls ls' : List Lexeme} (h : List.Forall₂ Similar ls ls') (lexed : Lexed ls) :
    (render ls').head? = (render ls).head? := by
  cases h with
  | nil => rfl
  | cons hxy _ =>
    obtain ⟨t, ht⟩ := exists_text lexed.1
    obtain ⟨t', ht'⟩ := hxy.exists_text lexed.1
    rw [render_cons, render_cons, ht, ht']
    rfl

/-- A lexeme that is not a single character is where a longer lexeme begins. -/
theorem begins_of_fits {x : Lexeme} {s : Text} (fits : x.Fits s) (ne : ∀ c, x ≠ letter c) :
    Begins (x.text ++ s) := by
  cases x with
  | letter c => exact absurd rfl (ne c)
  | call current => exact .call current fits
  | head before param =>
    rw [text, List.append_assoc]
    exact .head fits.1 fits.2
  | closing lead clauses =>
    rw [text, List.append_assoc]
    exact .closing fits.1

theorem similar_symm {ls ls' : List Lexeme} (h : List.Forall₂ Similar ls ls') (lexed : Lexed ls) :
    List.Forall₂ Similar ls' ls := by
  induction h with
  | nil => exact .nil
  | cons h _ ih => exact .cons (h.symm lexed.1) (ih lexed.2)

theorem clause_chars {clauses : List Text} (h : ∀ w ∈ clauses, baseCall.Accepts w) :
    ∀ c ∈ clauses.flatten, c ≠ '}' ∧ c ≠ '.' ∧ c ≠ 'c' := by
  intro c hc
  obtain ⟨w, hw, mem⟩ := List.mem_flatten.1 hc
  obtain ⟨stem, rfl, all⟩ := exists_of_baseCall_accepts (h w hw)
  rcases List.mem_append.1 mem with mem | mem
  · exact ⟨(all c mem).1, (all c mem).2.2⟩
  · obtain rfl := List.mem_singleton.1 mem
    decide

theorem blank_chars {blanks : Text} (h : ∀ c ∈ blanks, CharClass.whiteSpace.contains c = true) :
    ∀ c ∈ blanks, c ≠ '}' ∧ c ≠ '.' ∧ c ≠ 'c' := by
  intro c hc
  have := h c hc
  refine ⟨?_, ?_, ?_⟩ <;> rintro rfl <;> revert this <;> decide

/-- Nothing longer begins inside a lexeme other than a closing. -/
theorem free_begins_tail {x : Lexeme} {s : Text} (fits : x.Fits s)
    (ne : ∀ lead clauses, x ≠ closing lead clauses) :
    ∃ w, x.text = x.first :: w ∧ Free Begins w s := by
  cases x with
  | letter c => exact ⟨[], rfl, trivial⟩
  | call current =>
    obtain ⟨name, eq, isQuiet⟩ := callOpening_eq current
    exact ⟨_, eq, free_of_quiet (isQuiet _)⟩
  | head before param =>
    obtain ⟨w, eq, free⟩ := exists_head_text fits.1 fits.2
    refine ⟨w ++ [','], by rw [text, eq]; rfl, Free.append (free s) ?_⟩
    exact free_of_forall_ne (by simp)
  | closing lead clauses => exact absurd rfl (ne lead clauses)

/-- Closing parentheses stand in closings only. -/
theorem forall_ne_of_ne_closing {x : Lexeme} {s : Text} (fits : x.Fits s)
    (ne : ∀ lead clauses, x ≠ closing lead clauses) : ∀ c ∈ x.text, c ≠ ')' := by
  rintro _ mem rfl
  obtain ⟨w, hw, free⟩ := free_begins_tail fits ne
  rw [hw] at mem
  rcases List.mem_cons.1 mem with eq | mem
  · cases x with
    | letter c =>
      refine fits ?_
      rw [← show ')' = c from eq]
      exact .parenthesis s
    | call _ => cases eq
    | head _ _ => cases eq
    | closing lead clauses => exact ne lead clauses rfl
  · obtain ⟨a, b, rfl⟩ := List.append_of_mem mem
    refine free.not_drop (i := a.length) (by simp) ?_
    rw [List.append_assoc, List.drop_left]
    exact .parenthesis _

theorem forall_ne_of_isLead {lead : Text} (h : IsLead lead) : ∀ c ∈ lead, c ≠ ')' := by
  rintro _ mem rfl
  obtain rfl | ⟨blanks, rfl, all⟩ := h
  · cases mem
  · rcases List.mem_cons.1 mem with eq | mem
    · cases eq
    · have := all _ mem
      revert this; decide

theorem exists_closing_text {lead : Text} {clauses : List Text} {s : Text}
    (fits : (closing lead clauses).Fits s) :
    ∃ w, (closing lead clauses).text = (closing lead clauses).first :: w ∧
      ∀ c ∈ w, c ≠ '}' ∧ c ≠ '.' ∧ c ≠ 'c' := by
  have flat := clause_chars fits.2.1
  obtain rfl | ⟨blanks, rfl, all⟩ := fits.1
  · exact ⟨_, rfl, flat⟩
  · refine ⟨blanks ++ ')' :: clauses.flatten, rfl, fun c hc => ?_⟩
    rcases List.mem_append.1 hc with mem | mem
    · exact blank_chars all c mem
    · rcases List.mem_cons.1 mem with rfl | mem
      · decide
      · exact flat c mem

/-- After its first character, a lexeme contains no place of a kind that begins a longer lexeme
with one of these characters. -/
theorem free_tail {P : Text → Prop} {d : Char} (hd : d = '}' ∨ d = '.' ∨ d = 'c')
    (begins : ∀ s, P s → Begins s) (starts : ∀ c s, P (c :: s) → c = d) {x : Lexeme} {s : Text}
    (fits : x.Fits s) : ∃ w, x.text = x.first :: w ∧ Free P w s := by
  by_cases h : ∃ lead clauses, x = closing lead clauses
  · obtain ⟨lead, clauses, rfl⟩ := h
    obtain ⟨w, hw, chars⟩ := exists_closing_text fits
    refine ⟨w, hw, .of_forall_mem fun c hc s isP => ?_⟩
    obtain rfl := starts c s isP
    have := chars c hc
    tauto
  · obtain ⟨w, hw, free⟩ := free_begins_tail fits fun lead clauses eq => h ⟨lead, clauses, eq⟩
    exact ⟨w, hw, free.mono begins⟩

/-- A place of such a kind is where a lexeme begins. -/
theorem exists_append_of_drop {P : Text → Prop} {d : Char} (hd : d = '}' ∨ d = '.' ∨ d = 'c')
    (begins : ∀ s, P s → Begins s) (starts : ∀ c s, P (c :: s) → c = d) {ls : List Lexeme}
    (lexed : Lexed ls) {i : Nat} (h : P ((render ls).drop i)) :
    ∃ done x rest, ls = done ++ x :: rest ∧ i = (render done).length ∧ P (render (x :: rest)) := by
  induction ls generalizing i with
  | nil => exact absurd List.drop_nil (begins _ h).ne_nil
  | cons x ls ih =>
    obtain ⟨w, hw, free⟩ := free_tail hd begins starts lexed.1
    by_cases beyond : x.text.length ≤ i
    · obtain ⟨j, rfl⟩ := Nat.exists_eq_add_of_le beyond
      rw [render_cons, List.drop_length_add_append] at h
      obtain ⟨done, y, rest, rfl, rfl, here⟩ := ih lexed.2 h
      exact ⟨x :: done, y, rest, rfl, by simp, here⟩
    · cases i with
      | zero => exact ⟨[], x, ls, rfl, rfl, h⟩
      | succ i =>
        rw [render_cons, hw, List.cons_append, List.drop_succ_cons] at h
        rw [hw, List.length_cons] at beyond
        exact absurd h (free.not_drop (by omega))

/-- Similar lexemes agree on a stretch of single characters and on the character after it. -/
theorem exists_render_eq {ls ls' : List Lexeme} (h : List.Forall₂ Similar ls ls')
    (lexed : Lexed ls) {w rest : Text} {c : Char} (free : Free Begins w (c :: rest))
    (eq : render ls = w ++ c :: rest) : ∃ rest', render ls' = w ++ c :: rest' := by
  induction w generalizing ls ls' with
  | nil =>
    cases h with
    | nil => cases eq
    | @cons x y ls ls' hxy h =>
      obtain ⟨t, ht⟩ := exists_text lexed.1
      obtain ⟨t', ht'⟩ := hxy.exists_text lexed.1
      rw [render_cons, ht] at eq
      rw [render_cons, ht']
      cases eq
      exact ⟨t' ++ render ls', rfl⟩
  | cons d w ih =>
    cases h with
    | nil => cases eq
    | @cons x y ls ls' hxy h =>
      cases hxy with
      | letter d =>
        rw [render_cons, text, List.cons_append, List.nil_append, List.cons_append,
          List.cons.injEq] at eq
        obtain ⟨rfl, eq⟩ := eq
        obtain ⟨rest', eq'⟩ := ih h lexed.2 free.2 eq
        exact ⟨rest', by rw [render_cons, eq']; rfl⟩
      | _ =>
        have begins := begins_of_fits lexed.1 nofun
        rw [← render_cons, eq] at begins
        exact absurd begins free.1

/-- A longer lexeme does not begin at a character in front of similar lexemes unless it did so in
front of the lexemes of a text. -/
theorem begins_of_similar {ls ls' : List Lexeme} (h : List.Forall₂ Similar ls ls')
    (lexed : Lexed ls) {c : Char} (begins : Begins (c :: render ls)) :
    Begins (c :: render ls') := by
  generalize ht : c :: render ls = t at begins
  cases begins with
  | call current arg =>
    obtain ⟨numeral, rest, isNumeral, rfl⟩ := arg
    obtain ⟨name, opening, isQuiet⟩ := callOpening_eq current
    rw [opening, List.cons_append, List.cons.injEq] at ht
    obtain ⟨rfl, eq⟩ := ht
    rw [← List.append_assoc] at eq
    obtain ⟨rest', eq'⟩ := exists_render_eq h lexed
      ((free_of_quiet (isQuiet _)).append
        (free_of_numeral (isNumeralChar_of_isNumeral isNumeral))) eq
    rw [eq', List.append_assoc, ← List.cons_append, ← opening]
    exact .call current ⟨numeral, rest', isNumeral, rfl⟩
  | head accepted isParameter =>
    obtain ⟨w, front, free⟩ := exists_head_text accepted isParameter
    rw [front, List.cons_append, List.cons.injEq] at ht
    obtain ⟨rfl, eq⟩ := ht
    obtain ⟨rest', eq'⟩ := exists_render_eq h lexed (free _) eq
    rw [eq', ← List.cons_append, ← front]
    exact .head accepted isParameter
  | closing isLead =>
    obtain rfl | ⟨blanks, rfl, all⟩ := isLead
    · cases ht
      exact .parenthesis _
    · rw [List.cons_append, List.cons.injEq] at ht
      obtain ⟨rfl, eq⟩ := ht
      obtain ⟨rest', eq'⟩ := exists_render_eq h lexed (free_of_whiteSpace all) eq
      rw [eq', ← List.cons_append]
      exact .closing (.inr ⟨blanks, rfl, all⟩)

/-- Lexemes similar to those of a text are the lexemes of the text they make up. -/
theorem lexed_of_similar {ls ls' : List Lexeme} (h : List.Forall₂ Similar ls ls')
    (lexed : Lexed ls) : Lexed ls' := by
  induction h with
  | nil => trivial
  | @cons x y ls ls' hxy h ih =>
    have lexed' := ih lexed.2
    have h' := similar_symm h lexed.2
    refine ⟨?_, lexed'⟩
    cases hxy with
    | letter c => exact fun begins => lexed.1 (begins_of_similar h' lexed' begins)
    | call a b =>
      obtain ⟨numeral, rest, isNumeral, eq⟩ := lexed.1
      obtain ⟨rest', eq'⟩ := exists_render_eq h lexed.2
        (free_of_numeral (isNumeralChar_of_isNumeral isNumeral)) eq
      exact ⟨numeral, rest', isNumeral, eq'⟩
    | head before isParameter => exact ⟨lexed.1.1, isParameter⟩
    | closing lead all =>
      refine ⟨lexed.1.1, all, fun w rest accepted eq => ?_⟩
      obtain ⟨stem, rfl, hstem⟩ := exists_of_baseCall_accepts accepted
      rw [List.append_assoc] at eq
      obtain ⟨rest', eq'⟩ := exists_render_eq h' lexed' (free_of_forall_ne hstem) eq
      exact lexed.1.2.2 _ rest' accepted (by rw [eq', List.append_assoc]; rfl)

end Lexeme

/-! ## Semicolons -/

theorem semicolon_not_mem_callOpening (current : Bool) : ';' ∉ callOpening current := by
  cases current <;> decide

theorem semicolon_not_mem_head {before param : Text} (accepted : opening.Accepts before)
    (isParameter : IsParameter param) : ';' ∉ before ++ param ++ [','] := by
  have first : ';' ∉ before := Pattern.not_mem_of_avoids (by decide +kernel) accepted
  have second : ';' ∉ param := by
    obtain h | rfl := isParameter
    · exact Pattern.not_mem_of_avoids (by decide +kernel) h
    · decide
  simp [first, second]

theorem semicolon_not_mem_lead {lead : Text} (h : IsLead lead) : ';' ∉ lead := by
  obtain rfl | ⟨blanks, rfl, all⟩ := h
  · simp
  · rw [List.mem_cons, not_or]
    refine ⟨by decide, fun mem => ?_⟩
    have := all _ mem
    revert this
    decide

theorem semicolon_not_mem_baseCall {w : Text} (h : baseCall.Accepts w) : ';' ∉ w :=
  Pattern.not_mem_of_avoids (by decide +kernel) h

/-- A semicolon is a lexeme of its own. -/
theorem Lexeme.eq_letter_of_mem {x : Lexeme} {s : Text} (fits : x.Fits s) (mem : ';' ∈ x.text) :
    x = letter ';' := by
  cases x with
  | letter c => rw [List.mem_singleton.1 mem]
  | call current => exact absurd mem (semicolon_not_mem_callOpening current)
  | head before param => exact absurd mem (semicolon_not_mem_head fits.1 fits.2)
  | closing lead clauses =>
    refine absurd mem ?_
    rw [text, List.mem_append, List.mem_cons, List.mem_flatten, not_or, not_or]
    refine ⟨semicolon_not_mem_lead fits.1, by decide, ?_⟩
    rintro ⟨u, hu, mem⟩
    exact semicolon_not_mem_baseCall (fits.2.1 u hu) mem

/-! ## The lexemes of a text -/

/-- The base calls at the front of a text, as many as there are. -/
theorem exists_clauses (s : Text) : ∃ (clauses : List Text) (rest : Text),
    s = clauses.flatten ++ rest ∧
    (∀ w ∈ clauses, baseCall.Accepts w) ∧ ∀ w rest', baseCall.Accepts w → rest ≠ w ++ rest' := by
  by_cases h : ∃ w rest, baseCall.Accepts w ∧ s = w ++ rest
  · obtain ⟨w, rest, accepted, hs⟩ := h
    have shorter : rest.length < s.length := by
      obtain ⟨stem, rfl, -⟩ := exists_of_baseCall_accepts accepted
      simp [hs]
      omega
    obtain ⟨clauses, rest', rfl, all, last⟩ := exists_clauses rest
    refine ⟨w :: clauses, rest', by simp [hs], ?_, last⟩
    exact List.forall_mem_cons.2 ⟨accepted, all⟩
  · exact ⟨[], s, rfl, by simp, fun w rest accepted hs => h ⟨w, rest, accepted, hs⟩⟩
  termination_by s.length

theorem exists_lexeme (c : Char) (s : Text) : ∃ (x : Lexeme) (rest : Text),
    c :: s = x.text ++ rest ∧ x.Fits rest := by
  by_cases begins : Begins (c :: s)
  · generalize c :: s = t at begins
    cases begins with
    | call current arg => exact ⟨.call current, _, rfl, arg⟩
    | @head before param rest accepted isParameter =>
      exact ⟨.head before param, rest, by simp [Lexeme.text], accepted, isParameter⟩
    | @closing lead rest isLead =>
      obtain ⟨clauses, rest', rfl, all, last⟩ := exists_clauses rest
      exact ⟨.closing lead clauses, rest', by simp [Lexeme.text], isLead, all, last⟩
  · exact ⟨.letter c, s, rfl, begins⟩

/-- Every text has lexemes. -/
theorem exists_lexed (s : Text) : ∃ ls, Lexed ls ∧ Lexeme.render ls = s :=
  match s with
  | [] => ⟨[], trivial, rfl⟩
  | c :: s => by
    obtain ⟨x, rest, eq, fits⟩ := exists_lexeme c s
    have shorter : rest.length < s.length + 1 := by
      obtain ⟨t, ht⟩ := Lexeme.exists_text fits
      rw [← List.length_cons, eq, ht, List.length_append, List.length_cons]
      omega
    obtain ⟨ls, lexed, rfl⟩ := exists_lexed rest
    exact ⟨x :: ls, ⟨fits, lexed⟩, eq.symm⟩
  termination_by s.length

end FlutterMend
