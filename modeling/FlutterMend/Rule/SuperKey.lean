import FlutterMend.Edit

/-!
# Forwarded keys

A widget constructor that takes `Key? key` only to forward it in `: super(key: key)` can take
`super.key` instead. The revision runs in two passes. Promotion replaces the parameter of a constant
constructor whose parameter list is followed, sooner or later, by a forwarding base call. Removal
then deletes every forwarding base call that is left, whether or not a parameter was promoted.
-/

namespace FlutterMend.SuperKey

/-- `const Name({`, up to the first parameter. -/
def opening : Pattern :=
  [.literal "const".toList, .run .whiteSpace 1, .run .word 1, .literal "(".toList,
    .run .whiteSpace 0, .literal ['{'], .run .whiteSpace 0]

/-- `Key? key`. -/
def parameter : Pattern :=
  [.literal "Key?".toList, .run .whiteSpace 1, .literal "key".toList]

/-- `: super(key: key)`, with blanks before it. -/
def baseCall : Pattern :=
  [.run .whiteSpace 0, .literal ":".toList, .run .whiteSpace 0, .literal "super".toList,
    .run .whiteSpace 0, .literal "(".toList, .run .whiteSpace 0, .literal "key:".toList,
    .run .whiteSpace 0, .literal "key".toList, .run .whiteSpace 0, .literal ")".toList]

/-- `}) : super(key: key)`. -/
def bracedBaseCall : Pattern :=
  [.literal ['}'], .run .whiteSpace 0, .literal ")".toList] ++ baseCall

/-- The promotable constructor at the front of a text, through the nearest `}) : super(key: key)`
after its parameter. -/
def promotionAt? (s : Text) : Option Edit := do
  let (before, s) ← opening.split? s
  let (removed, s) ← parameter.split? s
  let s ← [','].isPrefixOf? s
  let (tail, _) ← bracedBaseCall.splitThrough? s
  return { before, removed, inserted := "super.key".toList, after := ',' :: tail }

/-- The parenthesis and the forwarding base call at the front of a text. -/
def removalAt? (s : Text) : Option Edit := do
  let s ← [')'].isPrefixOf? s
  let (removed, _) ← baseCall.split? s
  return { before := [')'], removed, inserted := [], after := [] }

theorem promotionAt?_sound : SoundFinder promotionAt? := by
  intro s e h
  obtain ⟨⟨before, s₁⟩, hbefore, h⟩ := Option.bind_eq_some_iff.1 h
  obtain ⟨⟨removed, s₂⟩, hremoved, h⟩ := Option.bind_eq_some_iff.1 h
  obtain ⟨s₃, hcomma, h⟩ := Option.bind_eq_some_iff.1 h
  obtain ⟨⟨tail, rest⟩, htail, h⟩ := Option.bind_eq_some_iff.1 h
  cases h
  obtain ⟨rfl, -⟩ := Pattern.split?_eq_some hbefore
  obtain ⟨rfl, -⟩ := Pattern.split?_eq_some hremoved
  obtain rfl := isPrefixOf?_eq_some_iff.1 hcomma
  obtain ⟨rfl, -⟩ := Pattern.splitThrough?_eq_some htail
  exact ⟨⟨rest, by simp [Edit.source]⟩, by simp [Edit.source]⟩

theorem removalAt?_sound : SoundFinder removalAt? := by
  intro s e h
  obtain ⟨s₁, hclose, h⟩ := Option.bind_eq_some_iff.1 h
  obtain ⟨⟨removed, rest⟩, hremoved, h⟩ := Option.bind_eq_some_iff.1 h
  cases h
  obtain rfl := isPrefixOf?_eq_some_iff.1 hclose
  obtain ⟨rfl, -⟩ := Pattern.split?_eq_some hremoved
  exact ⟨⟨rest, by simp [Edit.source]⟩, by simp [Edit.source]⟩

def promote (s : Text) : Text := FlutterMend.revise promotionAt? s

def removeBaseCalls (s : Text) : Text := FlutterMend.revise removalAt? s

def revise (s : Text) : Text := removeBaseCalls (promote s)

end FlutterMend.SuperKey
