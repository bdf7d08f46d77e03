/-!
# Texts

Source texts, paths and settings are handled as sequences of characters.
-/

namespace FlutterMend

abbrev Text := List Char

/-- The texts between the separators of a text, empty ones included. -/
def Text.pieces (separator : Char) : Text → List Text
  | [] => [[]]
  | c :: s =>
    if c = separator then [] :: pieces separator s
    else
      match pieces separator s with
      | [] => [[c]]
      | first :: rest => (c :: first) :: rest

/-- Lines, each with its end. -/
def unlines (lines : List String) : String :=
  lines.foldr (fun line rest => line ++ "\n" ++ rest) ""

theorem toList_unlines (lines : List String) :
    (unlines lines).toList = lines.flatMap fun line => line.toList ++ ['\n'] := by
  induction lines with
  | nil => rfl
  | cons line lines ih =>
    have first : unlines (line :: lines) = line ++ "\n" ++ unlines lines := rfl
    simp [first, ih]

end FlutterMend
