import FlutterMend.Edit

/-!
# Opacity calls

A call `.withOpacity(x)` whose argument is a plain numeral becomes `.withValues(alpha: x)`. The
numeral is carried over as it stands. Calls in comments and in string literals count as well.
-/

namespace FlutterMend.Opacity

/-- The opening of a call that is revised. -/
def deprecatedCall : Text := ".withOpacity(".toList

/-- The opening that it gets instead. -/
def currentCall : Text := ".withValues(alpha: ".toList

def isNumeralChar (c : Char) : Bool := CharClass.digit.contains c || c == '.'

/-- Digits with at most one decimal point, which may also come first or last. -/
def isNumeral (s : Text) : Bool :=
  s.all isNumeralChar && s.any CharClass.digit.contains && s.count '.' ≤ 1

/-- The call with a numeral as its argument at the front of a text, if it opens as given. The edit
exchanges the opening and keeps the numeral. -/
def numeralCallAt? (opening replacement s : Text) : Option Edit := do
  let argument ← opening.isPrefixOf? s
  let numeral := argument.takeWhile isNumeralChar
  if isNumeral numeral ∧ (argument.dropWhile isNumeralChar).head? = some ')' then
    some { before := [], removed := opening, inserted := replacement, after := numeral ++ [')'] }
  else none

theorem numeralCallAt?_sound (opening replacement : Text) :
    SoundFinder (numeralCallAt? opening replacement) := by
  intro s e h
  obtain ⟨argument, hargument, h⟩ := Option.bind_eq_some_iff.1 h
  obtain ⟨⟨-, hclose⟩, h⟩ := Option.ite_none_right_eq_some.1 h
  cases h
  obtain ⟨rest, hrest⟩ := List.head?_eq_some_iff.1 hclose
  refine ⟨⟨rest, ?_⟩, by simp [Edit.source]⟩
  have split : argument = argument.takeWhile isNumeralChar ++ ')' :: rest := by
    rw [← hrest, List.takeWhile_append_dropWhile]
  rw [isPrefixOf?_eq_some_iff.1 hargument]
  simp [Edit.source, ← split]

/-- The opacity call at the front of a text. -/
def callAt? : Text → Option Edit := numeralCallAt? deprecatedCall currentCall

def revise (s : Text) : Text := FlutterMend.revise callAt? s

end FlutterMend.Opacity
