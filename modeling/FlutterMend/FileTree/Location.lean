/-!
# Names and locations

A file is found by the names of the directories above it and its own name. Names are ordered by
their bytes and locations by their names, so that a directory comes before everything below it, and
what is below it comes before the next name beside it: the order in which a tree is walked.
-/

namespace FlutterMend

/-- The text of a directory entry: not empty, neither of the two dot names, no slash and no null
character, and at most 255 bytes long. -/
structure Name where
  text : String
  ne_empty : text ≠ ""
  ne_here : text ≠ "."
  ne_up : text ≠ ".."
  not_mem_slash : '/' ∉ text.toList
  not_mem_null : '\x00' ∉ text.toList
  utf8Size_le : text.utf8ByteSize ≤ 255
  deriving DecidableEq

namespace Name

/-- The name with the given text, if a directory entry may bear it. -/
def ofString? (text : String) : Option Name :=
  if h : text ≠ "" ∧ text ≠ "." ∧ text ≠ ".." ∧ '/' ∉ text.toList ∧ '\x00' ∉ text.toList ∧
      text.utf8ByteSize ≤ 255 then
    some ⟨text, h.1, h.2.1, h.2.2.1, h.2.2.2.1, h.2.2.2.2.1, h.2.2.2.2.2⟩
  else
    none

theorem ext {a b : Name} (h : a.text = b.text) : a = b := by
  cases a; cases b; cases h; rfl

@[simp] theorem ofString?_text (a : Name) : ofString? a.text = some a := by
  simp [ofString?, a.ne_empty, a.ne_here, a.ne_up, a.not_mem_slash, a.not_mem_null, a.utf8Size_le]

instance : Repr Name := ⟨fun a => reprPrec a.text⟩

/-- The bytes by which names are compared. -/
def bytes (a : Name) : List UInt8 := a.text.toUTF8.data.toList

theorem bytes_injective {a b : Name} (h : a.bytes = b.bytes) : a = b := by
  refine ext (String.toByteArray_inj.1 ?_)
  exact ByteArray.ext (Array.ext' h)

instance : LT Name := ⟨fun a b => a.bytes < b.bytes⟩

instance (a b : Name) : Decidable (a < b) := inferInstanceAs (Decidable (a.bytes < b.bytes))

instance : Trans (α := Name) (· < ·) (· < ·) (· < ·) := ⟨fun h₁ h₂ => List.lt_trans h₁ h₂⟩

instance : Std.Irrefl (α := Name) (· < ·) := ⟨fun a => List.lt_irrefl a.bytes⟩

instance : Std.Asymm (α := Name) (· < ·) := ⟨fun _ _ h => List.lt_asymm h⟩

instance : Std.Trichotomous (α := Name) (· < ·) :=
  let bytewise : Std.Trichotomous (α := List UInt8) (· < ·) := inferInstance
  ⟨fun a b h₁ h₂ => bytes_injective (bytewise.trichotomous a.bytes b.bytes h₁ h₂)⟩

end Name

/-- The names on the way from the top of a tree to an entry. -/
abbrev Location := List Name

end FlutterMend
