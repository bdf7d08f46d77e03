import FlutterMend.Rule.SuperKey
import Mathlib

/-!
# Reading delimited patterns

In a delimited pattern every run is followed by something that cannot begin with a character of the
run. Such a pattern accepts at most one prefix of a text, and splitting finds it. All patterns of
the rules are delimited, so for them accepting and splitting off are the same.
-/

namespace FlutterMend

theorem Character.exists_range_of_inRanges {code : Nat} {ranges : List (Nat × Nat)}
    (h : inRanges code ranges = true) : ∃ r ∈ ranges, r.1 ≤ code ∧ code ≤ r.2 := by
  induction ranges with
  | nil => cases h
  | cons r ranges ih =>
    obtain ⟨first, last⟩ := r
    simp only [inRanges, Bool.and_eq_true, Bool.or_eq_true, decide_eq_true_eq] at h
    rcases h with ⟨low, high | rest⟩
    · exact ⟨_, List.mem_cons_self, low, high⟩
    · obtain ⟨r, mem, bounds⟩ := ih rest
      exact ⟨r, List.mem_cons_of_mem _ mem, bounds⟩

namespace CharClass

/-- Whether no character belongs to both classes, found out by going through the first one. -/
def disjoint (a b : CharClass) : Bool :=
  a.ranges.all fun r =>
    (List.range' r.1 (r.2 + 1 - r.1)).all fun code => !Character.inRanges code b.ranges

theorem not_contains_of_disjoint {a b : CharClass} (h : a.disjoint b = true) {c : Char}
    (ha : a.contains c = true) : b.contains c = false := by
  obtain ⟨r, mem, low, high⟩ := Character.exists_range_of_inRanges ha
  have outside := List.all_eq_true.1 (List.all_eq_true.1 h r mem) c.toNat
    (List.mem_range'_1.2 ⟨low, by omega⟩)
  simpa [contains] using outside

theorem disjoint_whiteSpace_word : disjoint .whiteSpace .word = true := by decide +kernel

end CharClass

namespace Pattern

/-- Whether no accepted text, with `next` after it, begins with a character of the class. -/
def excludes (cls : CharClass) : Pattern → Option Char → Bool
  | [], next => !next.any cls.contains
  | .literal [] :: p, next => excludes cls p next
  | .literal (c :: _) :: _, _ => !cls.contains c
  | .run other 0 :: p, next => cls.disjoint other && excludes cls p next
  | .run other (_ + 1) :: _, _ => cls.disjoint other

/-- Whether every run ends where something else must begin, with `next` after the whole. -/
def delimited : Pattern → Option Char → Bool
  | [], _ => true
  | .literal _ :: p, next => delimited p next
  | .run cls _ :: p, next => excludes cls p next && delimited p next

theorem contains_head?_of_excludes {cls : CharClass} {p : Pattern} {next : Option Char}
    {w rest : Text} (h : excludes cls p next = true) (hnext : rest.head? = next)
    (accepted : p.Accepts w) : ∀ c ∈ (w ++ rest).head?, cls.contains c = false := by
  intro c hc
  fun_induction excludes cls p next generalizing w with
  | case1 next =>
    obtain rfl : w = [] := accepted
    subst hnext
    simp_all
  | case2 next p ih =>
    obtain ⟨front, back, rfl, rfl, acceptedBack⟩ := accepted
    exact ih h hnext acceptedBack hc
  | case3 next d word p =>
    obtain ⟨front, back, rfl, rfl, -⟩ := accepted
    simp_all
  | case4 next other p ih =>
    obtain ⟨front, back, rfl, ⟨-, all⟩, acceptedBack⟩ := accepted
    rw [Bool.and_eq_true] at h
    cases front with
    | nil => exact ih h.2 hnext acceptedBack hc
    | cons d front =>
      obtain rfl : d = c := by simpa using hc
      exact Bool.eq_false_iff.2 fun hd => by
        simp [CharClass.not_contains_of_disjoint h.1 hd] at all
  | case5 next other least p =>
    obtain ⟨front, back, rfl, ⟨long, all⟩, -⟩ := accepted
    cases front with
    | nil => simp at long
    | cons d front =>
      obtain rfl : d = c := by simpa using hc
      exact Bool.eq_false_iff.2 fun hd => by
        simp [CharClass.not_contains_of_disjoint h hd] at all

theorem takeWhile_append_eq {cls : CharClass} {w rest : Text}
    (all : ∀ c ∈ w, cls.contains c = true) (next : ∀ c ∈ rest.head?, cls.contains c = false) :
    (w ++ rest).takeWhile cls.contains = w ∧ (w ++ rest).dropWhile cls.contains = rest := by
  rw [List.takeWhile_append_of_pos all, List.dropWhile_append_of_pos all]
  cases rest with
  | nil => simp
  | cons c rest =>
    have : cls.contains c = false := next c rfl
    simp [this]

/-- An accepted text is split off whatever follows it. -/
theorem split?_append {p : Pattern} {w rest : Text} (h : delimited p rest.head? = true)
    (accepted : p.Accepts w) : p.split? (w ++ rest) = some (w, rest) := by
  induction p generalizing w with
  | nil =>
    obtain rfl : w = [] := accepted
    rfl
  | cons piece p ih =>
    obtain ⟨front, back, rfl, acceptedFront, acceptedBack⟩ := accepted
    cases piece with
    | literal word =>
      obtain rfl : front = word := acceptedFront
      have first : Piece.split? (.literal front) (front ++ (back ++ rest)) =
          some (front, back ++ rest) := by
        simp only [Piece.split?, isPrefixOf?_eq_some_iff.2 rfl, Option.map_some]
      simp [split?, List.append_assoc, first, ih h acceptedBack]
    | run cls least =>
      obtain ⟨long, all⟩ := acceptedFront
      rw [delimited, Bool.and_eq_true] at h
      obtain ⟨take, drop⟩ :=
        takeWhile_append_eq all (contains_head?_of_excludes h.1 rfl acceptedBack)
      have first : Piece.split? (.run cls least) (front ++ (back ++ rest)) =
          some (front, back ++ rest) := by
        simp only [Piece.split?, take, drop, long, if_true]
      simp [split?, List.append_assoc, first, ih h.2 acceptedBack]

theorem split?_eq_some_iff {p : Pattern} (h : ∀ next, delimited p next = true)
    {s front rest : Text} :
    p.split? s = some (front, rest) ↔ s = front ++ rest ∧ p.Accepts front := by
  refine ⟨split?_eq_some, ?_⟩
  rintro ⟨rfl, accepted⟩
  exact split?_append (h _) accepted

/-- A delimited pattern accepts at most one prefix of a text. -/
theorem accepts_unique {p : Pattern} (h : ∀ next, delimited p next = true)
    {front front' rest rest' : Text} (accepted : p.Accepts front) (accepted' : p.Accepts front')
    (eq : front ++ rest = front' ++ rest') : front = front' ∧ rest = rest' := by
  have first := split?_append (h rest.head?) accepted
  rw [eq, split?_append (h rest'.head?) accepted', Option.some.injEq, Prod.mk.injEq] at first
  exact ⟨first.1.symm, first.2.symm⟩

theorem accepts_append {p q : Pattern} {w : Text} :
    Accepts (p ++ q) w ↔ ∃ a b, w = a ++ b ∧ p.Accepts a ∧ q.Accepts b := by
  induction p generalizing w with
  | nil => exact ⟨fun h => ⟨[], w, rfl, rfl, h⟩, by rintro ⟨_, b, rfl, rfl, h⟩; exact h⟩
  | cons piece p ih =>
    simp only [List.cons_append, Accepts, ih]
    constructor
    · rintro ⟨front, _, rfl, accepted, a, b, rfl, ha, hb⟩
      exact ⟨front ++ a, b, by simp, ⟨front, a, rfl, accepted, ha⟩, hb⟩
    · rintro ⟨_, b, rfl, ⟨front, a, rfl, accepted, ha⟩, hb⟩
      exact ⟨front, a ++ b, by simp, accepted, a, b, rfl, ha, hb⟩

@[simp] theorem accepts_literal {word w : Text} : Accepts [.literal word] w ↔ w = word := by
  simp [Accepts, Piece.Accepts]

/-- Whether a character can stand in no accepted text. -/
def avoids (p : Pattern) (c : Char) : Bool :=
  p.all fun
    | .literal word => !word.contains c
    | .run cls _ => !cls.contains c

theorem not_mem_of_avoids {p : Pattern} {c : Char} (h : p.avoids c = true) {w : Text}
    (accepted : p.Accepts w) : c ∉ w := by
  induction p generalizing w with
  | nil => simp_all [Accepts]
  | cons piece p ih =>
    obtain ⟨front, back, rfl, acceptedFront, acceptedBack⟩ := accepted
    rw [avoids, List.all_cons, Bool.and_eq_true] at h
    rw [List.mem_append, not_or]
    refine ⟨?_, ih h.2 acceptedBack⟩
    cases piece with
    | literal word =>
      obtain rfl : front = word := acceptedFront
      simpa using h.1
    | run cls least =>
      intro mem
      have := acceptedFront.2 c mem
      simp [this] at h

end Pattern

end FlutterMend
