import FlutterMend.Edit
import Mathlib

/-!
# Scripts of a text

A script lists replacements by their positions in one text. Carrying it out makes them all at once
and copies everything between them.
-/

namespace FlutterMend

/-- The replacement of a part of a text, with the position where the part begins. -/
structure Splice where
  start : Nat
  removed : Text
  inserted : Text
  deriving DecidableEq, Repr

def Splice.stop (e : Splice) : Nat := e.start + e.removed.length

/-- Carries out a script in what is left of a text after the given position. -/
def carryOutFrom : Nat → List Splice → Text → Text
  | _, [], s => s
  | pos, e :: script, s =>
    s.take (e.start - pos) ++ e.inserted ++ carryOutFrom e.stop script (s.drop (e.stop - pos))

/-- The text with all replacements of a script made. -/
def carryOut (script : List Splice) (s : Text) : Text := carryOutFrom 0 script s

/-- The replacements come in order, and the parts to be replaced do not overlap. -/
def OrderedFrom : Nat → List Splice → Prop
  | _, [] => True
  | pos, e :: script => pos ≤ e.start ∧ OrderedFrom e.stop script

/-- The parts to be replaced stand in the text, in order and without overlap. -/
structure IsScriptOf (script : List Splice) (s : Text) : Prop where
  ordered : script.Pairwise fun a b => a.stop ≤ b.start
  present : ∀ e ∈ script, e.removed ≠ [] ∧ e.removed <+: s.drop e.start

namespace IsScriptOf

variable {script script' : List Splice} {s : Text}

theorem pairwise_start_lt (h : IsScriptOf script s) :
    script.Pairwise fun a b => a.start < b.start := by
  refine h.ordered.imp_of_mem fun {a b} ha _ le => ?_
  have filled := List.length_pos_iff.2 (h.present a ha).1
  have stop : a.stop = a.start + a.removed.length := rfl
  omega

theorem nodup (h : IsScriptOf script s) : script.Nodup := by
  refine h.pairwise_start_lt.imp ?_
  rintro a _ lt rfl
  exact Nat.lt_irrefl _ lt

/-- The order of a script is determined by what it replaces. -/
theorem eq_of_mem_iff (h : IsScriptOf script s) (h' : IsScriptOf script' s)
    (same : ∀ e, e ∈ script ↔ e ∈ script') : script = script' := by
  have perm := (List.perm_ext_iff_of_nodup h.nodup h'.nodup).2 same
  exact perm.eq_of_pairwise (fun a b _ _ lt gt => absurd lt (Nat.lt_asymm gt))
    h.pairwise_start_lt h'.pairwise_start_lt

end IsScriptOf

theorem OrderedFrom.mono {pos pos' : Nat} {script : List Splice} (h : OrderedFrom pos script)
    (le : pos' ≤ pos) : OrderedFrom pos' script := by
  cases script with
  | nil => trivial
  | cons e script => exact ⟨Nat.le_trans le h.1, h.2⟩

theorem OrderedFrom.le_start {pos : Nat} {script : List Splice} (h : OrderedFrom pos script) :
    ∀ e ∈ script, pos ≤ e.start := by
  induction script generalizing pos with
  | nil => simp
  | cons d script ih =>
    intro e he
    rcases List.mem_cons.1 he with rfl | he
    · exact h.1
    · have := ih h.2 e he
      have : d.start ≤ d.stop := Nat.le_add_right _ _
      have := h.1
      omega

theorem OrderedFrom.pairwise {pos : Nat} {script : List Splice} (h : OrderedFrom pos script) :
    script.Pairwise fun a b => a.stop ≤ b.start := by
  induction script generalizing pos with
  | nil => exact .nil
  | cons e script ih => exact .cons h.2.le_start (ih h.2)

/-- Text before the first replacement is copied. -/
theorem carryOutFrom_append {w s : Text} {pos : Nat} {script : List Splice}
    (h : OrderedFrom (pos + w.length) script) :
    carryOutFrom pos script (w ++ s) = w ++ carryOutFrom (pos + w.length) script s := by
  cases script with
  | nil => rfl
  | cons e script =>
    have le := h.1
    have stop : e.stop = e.start + e.removed.length := rfl
    rw [carryOutFrom, carryOutFrom, List.take_append, List.drop_append,
      List.take_of_length_le (by omega), List.drop_of_length_le (by omega),
      Nat.sub_sub, Nat.sub_sub]
    simp only [List.nil_append, List.append_assoc]

/-- A replacement at the front is made, and the rest of the script carried out after it. -/
theorem carryOutFrom_cons {removed inserted s : Text} {pos : Nat} {script : List Splice} :
    carryOutFrom pos ({ start := pos, removed, inserted } :: script) (removed ++ s) =
      inserted ++ carryOutFrom (pos + removed.length) script s := by
  simp [carryOutFrom, Splice.stop]

/-- A script that begins at a position turns the text there into another one: characters are copied
and parts replaced, one after the other. -/
inductive Rewrites : Nat → List Splice → Text → Text → Prop where
  | nil (pos : Nat) : Rewrites pos [] [] []
  | copy {pos : Nat} {script : List Splice} {w w' : Text} (c : Char) :
      Rewrites (pos + 1) script w w' → Rewrites pos script (c :: w) (c :: w')
  | replace {pos : Nat} {script : List Splice} {w w' removed : Text} (inserted : Text) :
      removed ≠ [] → Rewrites (pos + removed.length) script w w' →
      Rewrites pos ({ start := pos, removed, inserted } :: script) (removed ++ w) (inserted ++ w')

namespace Rewrites

variable {pos : Nat} {script later : List Splice} {v v' w w' : Text}

theorem refl (pos : Nat) (w : Text) : Rewrites pos [] w w := by
  induction w generalizing pos with
  | nil => exact .nil pos
  | cons c w ih => exact .copy c (ih _)

theorem single (pos : Nat) {removed : Text} (inserted : Text) (ne : removed ≠ []) :
    Rewrites pos [{ start := pos, removed, inserted }] removed inserted := by
  simpa using Rewrites.replace inserted ne (.nil (pos + removed.length))

theorem append (hv : Rewrites pos script v v') (hw : Rewrites (pos + v.length) later w w') :
    Rewrites pos (script ++ later) (v ++ w) (v' ++ w') := by
  induction hv with
  | nil pos => exact hw
  | copy c _ ih =>
    refine .copy c (ih ?_)
    rwa [List.length_cons, Nat.add_comm _ 1, ← Nat.add_assoc] at hw
  | replace inserted ne _ ih =>
    rw [List.append_assoc, List.append_assoc]
    refine .replace inserted ne (ih ?_)
    rwa [List.length_append, ← Nat.add_assoc] at hw

theorem orderedFrom (h : Rewrites pos script w w') : OrderedFrom pos script := by
  induction h with
  | nil => trivial
  | copy c _ ih => exact ih.mono (Nat.le_succ _)
  | replace inserted _ _ ih => exact ⟨Nat.le_refl _, ih⟩

theorem carryOutFrom_eq (h : Rewrites pos script w w') : carryOutFrom pos script w = w' := by
  induction h with
  | nil => rfl
  | @copy pos script w w' c rest ih =>
    have copied : carryOutFrom pos script ([c] ++ w) = [c] ++ carryOutFrom (pos + 1) script w :=
      carryOutFrom_append rest.orderedFrom
    rwa [ih] at copied
  | replace inserted _ _ ih => rw [carryOutFrom_cons, ih]

theorem stop_le (h : Rewrites pos script w w') : ∀ e ∈ script, e.stop ≤ pos + w.length := by
  induction h with
  | nil => simp
  | copy c _ ih =>
    intro e he
    have := ih e he
    rw [List.length_cons]
    omega
  | @replace pos script w w' removed inserted _ _ ih =>
    intro e he
    rw [List.length_append]
    rcases List.mem_cons.1 he with rfl | he
    · simp only [Splice.stop]
      omega
    · have := ih e he
      omega

theorem present (h : Rewrites pos script w w') :
    ∀ e ∈ script, e.removed ≠ [] ∧ e.removed <+: w.drop (e.start - pos) := by
  induction h with
  | nil => simp
  | @copy pos script w w' c rest ih =>
    intro e he
    have := rest.orderedFrom.le_start e he
    rw [show e.start - pos = e.start - (pos + 1) + 1 by omega]
    exact ih e he
  | @replace pos script w w' removed inserted ne rest ih =>
    intro e he
    rcases List.mem_cons.1 he with rfl | he
    · simp [ne]
    · have := rest.orderedFrom.le_start e he
      rw [List.drop_append, List.drop_of_length_le (by omega),
        show e.start - pos - removed.length = e.start - (pos + removed.length) by omega]
      exact ih e he

theorem isScriptOf (h : Rewrites 0 script w w') : IsScriptOf script w where
  ordered := h.orderedFrom.pairwise
  present := h.present

end Rewrites

/-- How much longer a text gets by the replacements of a script. -/
def growth (script : List Splice) : Int :=
  (script.map fun e => (e.inserted.length : Int) - e.removed.length).sum

/-- Where a position of a text comes to stand when the replacements before it are made. -/
def shifted (script : List Splice) (pos : Nat) : Int :=
  pos + growth (script.filter fun e => e.stop ≤ pos)

theorem Rewrites.growth_eq {pos : Nat} {script : List Splice} {w w' : Text}
    (h : Rewrites pos script w w') : growth script = (w'.length : Int) - w.length := by
  induction h with
  | nil => rfl
  | copy c _ ih =>
    rw [ih, List.length_cons, List.length_cons]
    omega
  | @replace pos script w w' removed inserted _ _ ih =>
    have first : growth ({ start := pos, removed, inserted } :: script) =
        (inserted.length : Int) - removed.length + growth script := by
      simp [growth]
    rw [first, ih]
    simp
    omega

/-- The end of what a first script rewrites comes to stand at the end of its result. -/
theorem Rewrites.shifted_eq {script later : List Splice} {v v' w w' : Text}
    (hv : Rewrites 0 script v v') (hw : Rewrites v.length later w w') :
    shifted (script ++ later) v.length = v'.length := by
  have before : script.filter (fun e => e.stop ≤ v.length) = script :=
    List.filter_eq_self.2 fun e he => by simpa using hv.stop_le e he
  have after : later.filter (fun e => e.stop ≤ v.length) = [] :=
    List.filter_eq_nil_iff.2 fun e he => by
      have := hw.orderedFrom.le_start e he
      have := List.length_pos_iff.2 (hw.present e he).1
      have : e.stop = e.start + e.removed.length := rfl
      simp
      omega
  rw [shifted, List.filter_append, before, after, List.append_nil, hv.growth_eq]
  omega

end FlutterMend
