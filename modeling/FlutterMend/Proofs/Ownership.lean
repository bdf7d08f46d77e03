import FlutterMend.Proofs.Passes.Removals
import FlutterMend.Proofs.Selection
import FlutterMend.Rule

/-!
# Constructors and their own base calls

A promotion goes from the head of a constructor to the nearest braced base call, past the end of the
parameter list if need be. A constructor is therefore promoted for any base call after it, its own
or not, unless a head before it is still open. The base call of a constructor is removed even if the
constructor is not promoted.
-/

namespace FlutterMend

namespace SuperKey

/-- A constructor whose parameter list begins with the key. The rest of the list is followed by a
brace, blanks and a parenthesis. -/
structure Constructor extends Head where
  tail : Text
  blanks : Text
  deriving DecidableEq, Repr

namespace Constructor

/-- The position of the brace that closes the parameter list. -/
def brace (c : Constructor) : Nat := c.stop + c.tail.length

/-- The position after the parameter list. -/
def listStop (c : Constructor) : Nat := c.brace + c.blanks.length + 2

structure StandsIn (c : Constructor) (t : Text) : Prop where
  head : c.toHead.StandsIn t
  list : c.tail ++ '}' :: (c.blanks ++ [')']) <+: t.drop c.stop
  noBrace : '}' ∉ c.tail
  blank : ∀ b ∈ c.blanks, CharClass.whiteSpace.contains b = true

/-- The key is forwarded right after the parameter list. -/
def Forwards (c : Constructor) (t : Text) : Prop :=
  ∃ clause, baseCall.Accepts clause ∧ clause <+: t.drop c.listStop

/-- A braced base call stands after the parameter list. -/
def IsFollowed (c : Constructor) (t : Text) : Prop :=
  ∃ q : Closing, q.StandsIn t ∧ c.listStop ≤ q.start

instance (c : Constructor) (t : Text) : Decidable (c.StandsIn t) :=
  decidable_of_iff (c.toHead.StandsIn t ∧ c.tail ++ '}' :: (c.blanks ++ [')']) <+: t.drop c.stop ∧
      '}' ∉ c.tail ∧ c.blanks.all CharClass.whiteSpace.contains = true)
    ⟨fun ⟨head, list, noBrace, blank⟩ => ⟨head, list, noBrace, List.all_eq_true.1 blank⟩,
      fun ⟨head, list, noBrace, blank⟩ => ⟨head, list, noBrace, List.all_eq_true.2 blank⟩⟩

theorem isSome_iff_forwards {c : Constructor} {t : Text} :
    (baseCall.split? (t.drop c.listStop)).isSome = true ↔ c.Forwards t := by
  rw [Option.isSome_iff_exists]
  constructor
  · rintro ⟨⟨clause, rest⟩, found⟩
    obtain ⟨eq, accepted⟩ := Pattern.split?_eq_some found
    exact ⟨clause, accepted, rest, eq.symm⟩
  · rintro ⟨clause, accepted, rest, eq⟩
    exact ⟨(clause, rest), eq ▸ Pattern.split?_append (delimited_baseCall _) accepted⟩

instance (c : Constructor) (t : Text) : Decidable (c.Forwards t) :=
  decidable_of_iff _ isSome_iff_forwards

variable {c : Constructor} {q : Closing} {t : Text}

theorem StandsIn.drop_brace (h : c.StandsIn t) :
    t.drop c.brace = '}' :: (c.blanks ++ ')' :: t.drop c.listStop) := by
  obtain ⟨rest, eq⟩ := h.list
  have list : t.drop c.brace = '}' :: (c.blanks ++ [')']) ++ rest := by
    rw [brace, ← List.drop_drop, ← eq, List.append_assoc, List.drop_left]
  have length : ('}' :: (c.blanks ++ [')'])).length = c.blanks.length + 2 := by simp
  rw [listStop, Nat.add_assoc, ← List.drop_drop, list, ← length, List.drop_left]
  simp

/-- No brace stands in a parameter list before the one that closes it, nor in what follows. -/
theorem StandsIn.brace_or_after (h : c.StandsIn t) (closes : q.StandsIn t)
    (le : c.stop ≤ q.start) : q.start = c.brace ∨ c.listStop ≤ q.start := by
  obtain ⟨rest, eq⟩ := h.list
  obtain ⟨i, start⟩ := Nat.exists_eq_add_of_le le
  have found : (c.tail ++ ('}' :: (c.blanks ++ [')']) ++ rest))[i]? = some '}' := by
    obtain ⟨blanks, clause, text, -⟩ := bracedBaseCall_accepts_iff.1 closes.accepted
    obtain ⟨after, split⟩ := closes.here
    rw [← List.append_assoc, eq, List.getElem?_drop, ← start, ← List.head?_drop, ← split, text]
    rfl
  rw [listStop, brace, start]
  by_contra! outside
  obtain inTail | inTail := Nat.lt_or_ge i c.tail.length
  · rw [List.getElem?_append_left inTail] at found
    exact h.noBrace (List.mem_of_getElem? found)
  · obtain ⟨j, rfl⟩ : ∃ j, i = c.tail.length + (j + 1) := ⟨i - c.tail.length - 1, by omega⟩
    rw [List.getElem?_append_right inTail, Nat.add_sub_cancel_left, List.cons_append,
      List.getElem?_cons_succ, List.getElem?_append_left (by simp; omega)] at found
    rcases List.mem_append.1 (List.mem_of_getElem? found) with mem | mem
    · have := h.blank _ mem
      revert this
      decide
    · simp at mem

/-- The base call of a constructor, with the end of the parameter list, is a braced one. -/
theorem StandsIn.closing (h : c.StandsIn t) {clause : Text} (accepted : baseCall.Accepts clause)
    (here : clause <+: t.drop c.listStop) :
    Closing.StandsIn { start := c.brace, text := '}' :: (c.blanks ++ ')' :: clause) } t := by
  obtain ⟨rest, eq⟩ := here
  refine ⟨bracedBaseCall_accepts_iff.2 ⟨c.blanks, clause, rfl, h.blank, accepted⟩, rest, ?_⟩
  rw [h.drop_brace, ← eq]
  simp

theorem StandsIn.forwards_iff (h : c.StandsIn t) :
    c.Forwards t ↔ ∃ q : Closing, q.StandsIn t ∧ q.start = c.brace := by
  constructor
  · rintro ⟨clause, accepted, here⟩
    exact ⟨_, h.closing accepted here, rfl⟩
  · rintro ⟨q, closes, start⟩
    obtain ⟨blanks, clause, text, blank, accepted⟩ := bracedBaseCall_accepts_iff.1 closes.accepted
    obtain ⟨rest, eq⟩ := closes.here
    rw [start, h.drop_brace, text] at eq
    obtain ⟨-, eq⟩ := Lexeme.blanks_unique blank h.blank (by simpa using eq)
    exact ⟨clause, accepted, rest, eq⟩

/-- A constructor is promoted for its own base call or for a later one. -/
theorem StandsIn.promotion_mem_iff (h : c.StandsIn t) :
    c.promotion ∈ promotionScript t ↔ c.IsFree t ∧ (c.Forwards t ∨ c.IsFollowed t) := by
  rw [h.head.promotion_mem_iff, h.forwards_iff]
  refine and_congr_right fun _ => ⟨?_, ?_⟩
  · rintro ⟨q, closes, le⟩
    obtain start | after := h.brace_or_after closes le
    · exact .inl ⟨q, closes, start⟩
    · exact .inr ⟨q, closes, after⟩
  · have : c.stop ≤ c.brace ∧ c.brace ≤ c.listStop := by
      simp only [listStop, brace]
      omega
    rintro (⟨q, closes, start⟩ | ⟨q, closes, after⟩)
    · exact ⟨q, closes, by omega⟩
    · exact ⟨q, closes, by omega⟩

end Constructor

open Lexeme

/-- The replacements of the removing pass. -/
def removalScript (t : Text) : List Splice := scriptFrom removalAt? 0 t

/-- The base call of a braced one is removed. -/
theorem Closing.StandsIn.removal_mem {start : Nat} {blanks clause t : Text}
    (h : Closing.StandsIn { start, text := '}' :: (blanks ++ ')' :: clause) } t)
    (blank : ∀ b ∈ blanks, CharClass.whiteSpace.contains b = true) :
    { start := start + blanks.length + 2, removed := clause, inserted := [] } ∈
      removalScript t := by
  obtain ⟨ls, lexed, rfl⟩ := exists_lexed t
  obtain ⟨done, x, rest, rfl, forwards, rfl, text⟩ := (closingAt_iff lexed).1 h
  obtain ⟨b, lead, u, clauses, rfl⟩ := exists_of_forwards forwards
  obtain eq | ⟨lead', eq, blank'⟩ := lexed.of_append.1.1
  · cases eq
  · cases eq
    obtain ⟨rfl, rfl⟩ := blanks_unique blank blank' (List.cons.inj text).2
    rw [removalScript, scriptFrom_removalAt? lexed]
    refine (mem_script_map_iff 0 _).2 ⟨done, _, rest, rfl, ?_⟩
    rw [shorten, splices_closing]
    convert mem_clauseSplices _ clause clauses using 2
    simp only [List.length_cons]
    omega

/-- Promotions and removals do not meet, so they come to the same as one script. -/
theorem exists_script (t : Text) :
    ∃ script, IsScriptOf script t ∧ carryOut script t = revise t ∧
      ∀ e, e ∈ script ↔ e ∈ promotionScript t ∨ e ∈ removalScript t := by
  obtain ⟨ls, lexed, rfl⟩ := exists_lexed t
  have rewrites := rewrites_script
    (forall₂_revised_map_promote revised_shorten (fun _ _ => rfl) true ls) lexed 0
  refine ⟨_, rewrites.isScriptOf, ?_, fun e => ?_⟩
  · have promoted := lexed_of_revised (forall₂_revised_promote true ls) lexed
    rw [carryOut, rewrites.carryOutFrom_eq, revise, promote_render lexed,
      removeBaseCalls_render promoted]
  · rw [mem_script_map_promote fun _ _ => rfl, promotionScript, removalScript,
      scriptFrom_promotionAt? lexed, scriptFrom_removalAt? lexed, or_comm]

theorem not_mem_removalScript (h : Head) (t : Text) : h.promotion ∉ removalScript t := by
  intro mem
  obtain ⟨s, e, found, -, inserted⟩ := exists_of_mem_scriptFrom removalAt?_sound mem
  obtain ⟨clause, rest, -, -, rfl⟩ := removalAt?_eq_some_iff.1 found
  cases inserted

/-- A revision of forwarded keys promotes a constructor when no head before it is open and its own
base call or a later one follows, and it removes the base call of every constructor. So the
promotion agrees with the constructor's own base call under two conditions only: if it has one, no
head before it is open, and if it has none, a head before it is open or no base call follows. -/
theorem superKey_promotes (t : Text) :
    ∃ script, IsScriptOf script t ∧ carryOut script t = (Rule.superKey.apply t).text ∧
      (∀ e, e ∈ script ↔ e ∈ promotionScript t ∨ e ∈ removalScript t) ∧
      ∀ c : Constructor, c.StandsIn t →
        (c.promotion ∈ script ↔ c.IsFree t ∧ (c.Forwards t ∨ c.IsFollowed t)) ∧
        (∀ clause, baseCall.Accepts clause → clause <+: t.drop c.listStop →
          { start := c.listStop, removed := clause, inserted := [] } ∈ script) ∧
        ((c.promotion ∈ script ↔ c.Forwards t) ↔
          (c.Forwards t → c.IsFree t) ∧ (c.IsFree t → c.IsFollowed t → c.Forwards t)) := by
  obtain ⟨script, isScriptOf, eq, mem_iff⟩ := exists_script t
  refine ⟨script, isScriptOf, eq, mem_iff, fun c stands => ?_⟩
  have promoted : c.promotion ∈ script ↔ c.IsFree t ∧ (c.Forwards t ∨ c.IsFollowed t) := by
    rw [mem_iff, or_iff_left (not_mem_removalScript c.toHead t), stands.promotion_mem_iff]
  refine ⟨promoted, fun clause accepted here => ?_, ?_⟩
  · exact (mem_iff _).2 (.inr ((stands.closing accepted here).removal_mem stands.blank))
  · rw [promoted]
    tauto

def firstConstructor : Constructor :=
  { toHead := firstHead, tail := " this.x".toList, blanks := [] }

def secondConstructor : Constructor :=
  { toHead := secondHead, tail := " this.y".toList, blanks := [] }

theorem firstConstructor_standsIn : firstConstructor.StandsIn twoConstructors ∧
    ¬firstConstructor.Forwards twoConstructors := by decide +kernel

theorem secondConstructor_standsIn : secondConstructor.StandsIn twoConstructors ∧
    secondConstructor.Forwards twoConstructors := by decide +kernel

theorem superKey_promotes_twoConstructors :
    (firstConstructor.IsFree twoConstructors ∧ firstConstructor.IsFollowed twoConstructors) ∧
      ¬secondConstructor.IsFree twoConstructors ∧
      ∃ script, carryOut script twoConstructors = (Rule.superKey.apply twoConstructors).text ∧
        firstConstructor.promotion ∈ script ∧ secondConstructor.promotion ∉ script ∧
        { start := secondConstructor.listStop, removed := " : super(key: key)".toList,
          inserted := [] } ∈ script := by
  obtain ⟨script, -, eq, mem_iff, constructors⟩ := superKey_promotes twoConstructors
  have first := constructors firstConstructor firstConstructor_standsIn.1
  have second := constructors secondConstructor secondConstructor_standsIn.1
  have promoted : firstConstructor.promotion ∈ script := by
    rw [mem_iff, promotionScript_twoConstructors]
    exact .inl List.mem_cons_self
  have kept : secondConstructor.promotion ∉ script := by
    rw [mem_iff, promotionScript_twoConstructors, not_or]
    exact ⟨by decide, not_mem_removalScript _ _⟩
  obtain ⟨free, follows⟩ := first.1.1 promoted
  refine ⟨⟨free, follows.resolve_left firstConstructor_standsIn.2⟩, ?_, script, eq, promoted, kept,
    ?_⟩
  · exact fun free => kept (second.1.2 ⟨free, .inl secondConstructor_standsIn.2⟩)
  · have read : baseCall.split? (twoConstructors.drop secondConstructor.listStop) =
        some (" : super(key: key)".toList, [';']) := by decide +kernel
    obtain ⟨split, accepted⟩ := Pattern.split?_eq_some read
    exact second.2.1 _ accepted ⟨[';'], split.symm⟩

/-- The first constructor is promoted for the base call of the second, which loses it and keeps its
parameter. -/
theorem not_promoted_iff_forwards :
    (Rule.superKey.apply twoConstructors).text =
        "const A(\x7bsuper.key, this.x\x7d);\nconst B(\x7bKey? key, this.y\x7d);".toList ∧
      ¬∀ (t : Text) (c : Constructor), c.StandsIn t →
        (c.promotion ∈ promotionScript t ↔ c.Forwards t) := by
  refine ⟨by decide +kernel, fun owned => ?_⟩
  have promoted : firstConstructor.promotion ∈ promotionScript twoConstructors := by
    rw [promotionScript_twoConstructors]
    exact List.mem_cons_self
  obtain ⟨stands, silent⟩ := firstConstructor_standsIn
  exact silent ((owned twoConstructors firstConstructor stands).1 promoted)

end SuperKey

end FlutterMend
