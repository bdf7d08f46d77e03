import FlutterMend.Character.Class
import FlutterMend.Text

/-!
# Patterns

A pattern is a sequence of pieces: fixed words, and runs of characters of one class. A text is
accepted when it is a concatenation of texts accepted by the pieces.

Splitting a pattern off the front of a text reads every run as far as it goes. In a pattern whose
runs are each followed by a piece that cannot begin with a character of the run, no shorter reading
of a run can be continued, so splitting then finds the only accepted prefix there is.
-/

namespace FlutterMend

theorem isPrefixOf?_eq_some_iff {word s rest : Text} :
    word.isPrefixOf? s = some rest ↔ s = word ++ rest := by
  induction word generalizing s with
  | nil => exact Option.some_inj
  | cons c word ih =>
    cases s with
    | nil => exact ⟨nofun, nofun⟩
    | cons d s =>
      change (if c == d then word.isPrefixOf? s else none) = some rest ↔
        d :: s = c :: (word ++ rest)
      by_cases h : c = d
      · simp [h, ih]
      · simp [h, Ne.symm h]

/-- One piece of a pattern. A run holds at least `least` characters of its class. -/
inductive Piece where
  | literal (word : Text)
  | run (cls : CharClass) (least : Nat)
  deriving DecidableEq, Repr

namespace Piece

def Accepts : Piece → Text → Prop
  | literal word, s => s = word
  | run cls least, s => least ≤ s.length ∧ ∀ c ∈ s, cls.contains c = true

/-- The longest accepted prefix and the rest of the text. -/
def split? : Piece → Text → Option (Text × Text)
  | literal word, s => (word.isPrefixOf? s).map fun rest => (word, rest)
  | run cls least, s =>
    let front := s.takeWhile cls.contains
    if least ≤ front.length then some (front, s.dropWhile cls.contains) else none

theorem split?_eq_some {piece : Piece} {s front rest : Text}
    (h : piece.split? s = some (front, rest)) : s = front ++ rest ∧ piece.Accepts front := by
  cases piece with
  | literal word =>
    obtain ⟨rest', hrest, heq⟩ := Option.map_eq_some_iff.1 h
    cases heq
    exact ⟨isPrefixOf?_eq_some_iff.1 hrest, rfl⟩
  | run cls least =>
    simp only [split?] at h
    split at h
    · next long =>
      cases h
      exact ⟨List.takeWhile_append_dropWhile.symm, long,
        List.all_eq_true.1 List.all_takeWhile⟩
    · cases h

end Piece

abbrev Pattern := List Piece

namespace Pattern

def Accepts : Pattern → Text → Prop
  | [], s => s = []
  | piece :: pattern, s =>
    ∃ front rest, s = front ++ rest ∧ piece.Accepts front ∧ Accepts pattern rest

/-- The prefix read by the pieces in turn and the rest of the text. -/
def split? : Pattern → Text → Option (Text × Text)
  | [], s => some ([], s)
  | piece :: pattern, s => do
    let (front, s) ← piece.split? s
    let (back, rest) ← split? pattern s
    return (front ++ back, rest)

/-- The shortest prefix that ends with an occurrence of the pattern, and the rest of the text. -/
def splitThrough? (pattern : Pattern) : Text → Option (Text × Text)
  | [] => pattern.split? []
  | c :: s =>
    match pattern.split? (c :: s) with
    | some found => some found
    | none => (splitThrough? pattern s).map fun (front, rest) => (c :: front, rest)

/-- What is split off a text is a prefix of it that the pattern accepts. -/
theorem split?_eq_some {pattern : Pattern} {s front rest : Text}
    (h : pattern.split? s = some (front, rest)) : s = front ++ rest ∧ pattern.Accepts front := by
  induction pattern generalizing s front rest with
  | nil => cases h; exact ⟨rfl, rfl⟩
  | cons piece pattern ih =>
    obtain ⟨⟨first, s'⟩, hfirst, h⟩ := Option.bind_eq_some_iff.1 h
    obtain ⟨⟨back, rest'⟩, hback, h⟩ := Option.bind_eq_some_iff.1 h
    cases h
    obtain ⟨rfl, accepted⟩ := Piece.split?_eq_some hfirst
    obtain ⟨rfl, acceptedBack⟩ := ih hback
    exact ⟨(List.append_assoc ..).symm, first, back, rfl, accepted, acceptedBack⟩

theorem splitThrough?_eq_some {pattern : Pattern} {s front rest : Text}
    (h : pattern.splitThrough? s = some (front, rest)) :
    s = front ++ rest ∧ ∃ tail, tail <:+ front ∧ pattern.Accepts tail := by
  induction s generalizing front with
  | nil =>
    obtain ⟨eq, accepted⟩ := split?_eq_some h
    exact ⟨eq, front, List.suffix_refl _, accepted⟩
  | cons c s ih =>
    simp only [splitThrough?] at h
    split at h
    · next found hfound =>
      cases h
      obtain ⟨eq, accepted⟩ := split?_eq_some hfound
      exact ⟨eq, front, List.suffix_refl _, accepted⟩
    · obtain ⟨⟨front', rest'⟩, hrest, heq⟩ := Option.map_eq_some_iff.1 h
      cases heq
      obtain ⟨rfl, tail, suffix, accepted⟩ := ih hrest
      exact ⟨rfl, tail, suffix.trans (List.suffix_cons _ _), accepted⟩

end Pattern

end FlutterMend
