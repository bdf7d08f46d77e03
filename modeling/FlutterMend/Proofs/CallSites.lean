import FlutterMend.Proofs.Progress

/-!
# Call sites

The numeral in an opacity call is described here by counting: it consists of digits and points, with
at least one digit and at most one point. The calls of a text in this sense do not overlap, so there
is no choice to be made among them, and the revision exchanges them all. What it puts in their place
does not make up a call again, neither by itself nor with the text around it.
-/

namespace FlutterMend

namespace Opacity

/-- A call with its position in a text. -/
@[ext]
structure Call where
  start : Nat
  numeral : Text
  deriving DecidableEq, Repr

namespace Call

def text (c : Call) : Text := ".withOpacity(".toList ++ c.numeral ++ [')']

/-- What the call becomes. -/
def revised (c : Call) : Text := ".withValues(alpha: ".toList ++ c.numeral ++ [')']

def stop (c : Call) : Nat := c.start + c.text.length

def replacement (c : Call) : Splice where
  start := c.start
  removed := c.text
  inserted := c.revised

structure StandsIn (c : Call) (t : Text) : Prop where
  chars : ∀ d ∈ c.numeral, CharClass.digit.contains d = true ∨ d = '.'
  digit : ∃ d ∈ c.numeral, CharClass.digit.contains d = true
  point : c.numeral.count '.' ≤ 1
  here : c.text <+: t.drop c.start

/-- The match that a scan meets at the call. -/
def toMatch (c : Call) : Match where
  start := c.start
  edit := { before := [], removed := callOpening false, inserted := callOpening true,
            after := c.numeral ++ [')'] }

theorem text_eq (c : Call) : c.text = callOpening false ++ (c.numeral ++ [')']) :=
  List.append_assoc ..

theorem revised_eq (c : Call) : c.revised = callOpening true ++ (c.numeral ++ [')']) :=
  List.append_assoc ..

theorem exchange_toMatch (c : Call) : c.toMatch.exchange = c.replacement := by
  simp [toMatch, Match.exchange, replacement, Edit.source, Edit.result, text_eq, revised_eq]

variable {c : Call} {t : Text}

theorem standsIn_iff : c.StandsIn t ↔ IsCallOf false (t.drop c.start) c.toMatch.edit := by
  have counts : isNumeral c.numeral = true ↔
      (∀ d ∈ c.numeral, CharClass.digit.contains d = true ∨ d = '.') ∧
        (∃ d ∈ c.numeral, CharClass.digit.contains d = true) ∧ c.numeral.count '.' ≤ 1 := by
    simp [isNumeral, isNumeralChar, and_assoc]
  have source : c.toMatch.edit.source = c.text := by
    simp [toMatch, Edit.source, text_eq]
  constructor
  · rintro ⟨chars, digit, point, rest, eq⟩
    refine ⟨c.numeral, rest, isNumeral_iff.1 (counts.2 ⟨chars, digit, point⟩), rfl, ?_⟩
    rw [source, eq]
  · rintro ⟨numeral, rest, form, eq, split⟩
    obtain rfl : c.numeral = numeral := List.append_cancel_right (Edit.mk.inj eq).2.2.2
    obtain ⟨chars, digit, point⟩ := counts.1 (isNumeral_iff.2 form)
    exact ⟨chars, digit, point, rest, by rw [split, source]⟩

instance (c : Call) (t : Text) : Decidable (c.StandsIn t) :=
  decidable_of_iff (callOfAt? false (t.drop c.start) = some c.toMatch.edit)
    (callOfAt?_eq_some_iff.trans standsIn_iff.symm)

/-- The matches of a scan are calls. -/
theorem exists_map_toMatch (t : Text) :
    ∃ calls : List Call, calls.map toMatch = matchesFrom (callOfAt? false) 0 t := by
  refine ⟨(matchesFrom (callOfAt? false) 0 t).map fun m =>
    { start := m.start, numeral := m.edit.after.dropLast }, ?_⟩
  rw [List.map_map]
  refine (List.map_congr_left fun m mem => ?_).trans (List.map_id _)
  obtain ⟨i, -, numeral, -, -, edit, -⟩ := mem_matchesFrom_callOfAt?_iff.1 mem
  obtain ⟨start, e⟩ := m
  obtain rfl := edit
  simp [toMatch]

theorem toMatch_injective : Function.Injective toMatch := by
  intro c d eq
  obtain ⟨start, edit⟩ := Match.mk.inj eq
  exact Call.ext start (List.append_cancel_right (Edit.mk.inj edit).2.2.2)

/-- The calls of a text in order, and what it becomes by exchanging them. -/
theorem exists_rewrites (t : Text) :
    ∃ calls : List Call, (∀ c, c ∈ calls ↔ c.StandsIn t) ∧
      Rewrites 0 (calls.map replacement) t (Opacity.revise t) := by
  obtain ⟨calls, eq⟩ := exists_map_toMatch t
  refine ⟨calls, fun c => ?_, ?_⟩
  · rw [← List.mem_map_of_injective toMatch_injective, eq, standsIn_iff]
    refine mem_matchesFrom_callOfAt?_iff.trans ?_
    simp [toMatch]
  · have rewrites := rewrites_matchesFrom (callOfAt?_sound false) 0 t
    rw [← eq, List.map_map] at rewrites
    rwa [List.map_congr_left fun c _ => (exchange_toMatch c).symm]

/-- Two calls do not overlap. -/
theorem StandsIn.apart {d : Call} (hc : c.StandsIn t) (hd : d.StandsIn t) (ne : c ≠ d) :
    c.stop ≤ d.start ∨ d.stop ≤ c.start := by
  obtain ⟨calls, mem_iff, rewrites⟩ := exists_rewrites t
  have ordered : calls.Pairwise fun c d => c.stop ≤ d.start :=
    List.pairwise_map.1 rewrites.orderedFrom.pairwise
  have either : calls.Pairwise fun c d => c.stop ≤ d.start ∨ d.stop ≤ c.start :=
    ordered.imp Or.inl
  have : Std.Symm fun c d : Call => c.stop ≤ d.start ∨ d.stop ≤ c.start := ⟨fun _ _ => Or.symm⟩
  exact either.forall ((mem_iff c).2 hc) ((mem_iff d).2 hd) ne

theorem exists_standsIn_iff : (∃ c : Call, c.StandsIn t) ↔ HasCall t := by
  constructor
  · rintro ⟨c, stands⟩
    exact ⟨c.start, _, standsIn_iff.1 stands⟩
  · rintro ⟨i, e, numeral, rest, form, rfl, split⟩
    exact ⟨{ start := i, numeral }, standsIn_iff.2 ⟨numeral, rest, form, rfl, split⟩⟩

theorem growth_map_replacement (calls : List Call) :
    growth (calls.map replacement) = 6 * calls.length := by
  have each (c : Call) :
      (c.replacement.inserted.length : Int) - c.replacement.removed.length = 6 := by
    have deprecated : (callOpening false).length = 13 := rfl
    have current : (callOpening true).length = 19 := rfl
    simp only [replacement, revised_eq, text_eq, List.length_append, deprecated, current]
    omega
  simp [growth, Function.comp_def, each, mul_comm]

end Call

end Opacity

open Opacity

/-- The revision exchanges all opacity calls of a text and nothing else. They do not overlap, none
is left, and the text grows by the same amount for each. -/
theorem opacity_exchanges_every_call (t : Text) :
    (∀ c d : Call, c.StandsIn t → d.StandsIn t → c ≠ d → c.stop ≤ d.start ∨ d.stop ≤ c.start) ∧
      (∃ calls : List Call, calls.Nodup ∧ (∀ c, c ∈ calls ↔ c.StandsIn t) ∧
        IsScriptOf (calls.map Call.replacement) t ∧
        carryOut (calls.map Call.replacement) t = (Rule.opacity.apply t).text ∧
        (Rule.opacity.apply t).text.length = t.length + 6 * calls.length) ∧
      (∀ c : Call, ¬c.StandsIn (Rule.opacity.apply t).text) ∧
      Rule.opacity.apply (Rule.opacity.apply t).text =
        { text := (Rule.opacity.apply t).text, changed := false } ∧
      ((Rule.opacity.apply t).changed = true ↔ ∃ c : Call, c.StandsIn t) := by
  obtain ⟨calls, mem_iff, rewrites⟩ := Call.exists_rewrites t
  obtain ⟨n, longest⟩ := exists_longestChain t
  have unchanged : Opacity.revise t = t ↔ ¬HasCall t := longest.revise_eq_self_iff .opacity
  have none : ¬HasCall (Opacity.revise t) := fun left =>
    nomatch ((hasCall_revise_iff .opacity t).1 left).1
  have nodup : calls.Nodup := rewrites.isScriptOf.nodup.of_map
  refine ⟨fun _ _ hc hd ne => hc.apart hd ne,
    ⟨calls, nodup, mem_iff, rewrites.isScriptOf, rewrites.carryOutFrom_eq, ?_⟩, ?_, ?_, ?_⟩
  · have grown := rewrites.growth_eq
    rw [Call.growth_map_replacement] at grown
    change (Opacity.revise t).length = _
    omega
  · intro c stands
    exact none (Call.exists_standsIn_iff.1 ⟨c, stands⟩)
  · change RevisedText.compare (Opacity.revise t) (Opacity.revise (Opacity.revise t)) = _
    rw [opacity_revise_twice, RevisedText.compare, bne_self_eq_false]
    rfl
  · rw [Call.exists_standsIn_iff, Rule.changed_apply_iff, Rule.revise, Ne, unchanged, not_not]

/-- A truncated call before another one is no call, and only the second is exchanged. Its digit need
not be one of the usual ten. -/
example : Opacity.revise ".withOpacity(1.withOpacity(.५) + b.withOpacity(1.2.3)".toList =
    ".withOpacity(1.withValues(alpha: .५) + b.withOpacity(1.2.3)".toList := by decide +kernel

/-- Two calls, the second right behind the first. -/
def twoCalls : Text := "a.withOpacity(0.1).withOpacity(.5)".toList

def firstCall : Call := { start := 1, numeral := "0.1".toList }

def secondCall : Call := { start := 18, numeral := ".5".toList }

theorem opacity_exchanges_twoCalls :
    firstCall.StandsIn twoCalls ∧ secondCall.StandsIn twoCalls ∧
      (firstCall.stop ≤ secondCall.start ∨ secondCall.stop ≤ firstCall.start) ∧
      (Rule.opacity.apply twoCalls).changed = true ∧
      ∀ c : Call, ¬c.StandsIn (Rule.opacity.apply twoCalls).text := by
  have first : firstCall.StandsIn twoCalls := by decide +kernel
  have second : secondCall.StandsIn twoCalls := by decide +kernel
  obtain ⟨apart, -, none, -, changed⟩ := opacity_exchanges_every_call twoCalls
  exact ⟨first, second, apart _ _ first second (by decide), changed.2 ⟨_, first⟩, none⟩

end FlutterMend
