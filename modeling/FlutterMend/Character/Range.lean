/-!
# Code point ranges

A character class of the Unicode standard is a list of ranges of code points, both ends included, in
ascending order and without overlap.
-/

namespace FlutterMend.Character

/-- Membership in a list of ascending ranges. The search stops at the first range that begins after
the code point. -/
def inRanges (code : Nat) : List (Nat × Nat) → Bool
  | [] => false
  | (first, last) :: rest => first ≤ code && (code ≤ last || inRanges code rest)

end FlutterMend.Character
