import FlutterMend.Character.DecimalDigit
import FlutterMend.Character.WhiteSpace
import FlutterMend.Character.WordCharacter

/-!
# Character classes

The three classes of characters that source patterns speak of. Each is a table of the Unicode
standard, so an identifier may be written in any script and a no-break space counts as blank.
-/

namespace FlutterMend

inductive CharClass where
  | whiteSpace
  | word
  | digit
  deriving DecidableEq, Repr

namespace CharClass

/-- The ascending code point ranges of a class. -/
def ranges : CharClass → List (Nat × Nat)
  | whiteSpace => Character.whiteSpace
  | word => Character.wordCharacter
  | digit => Character.decimalDigit

def contains (cls : CharClass) (c : Char) : Bool :=
  Character.inRanges c.toNat cls.ranges

end CharClass

end FlutterMend
