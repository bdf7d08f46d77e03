import FlutterMend.Pattern

/-!
# Edits

An edit replaces part of an occurrence found in a text and keeps what stands before and after that
part inside the occurrence. Scanning a text from left to right, and resuming after each occurrence,
cuts it into single kept characters and edits. Their results concatenate to the revised text.
-/

namespace FlutterMend

/-- An occurrence `before ++ removed ++ after` in which `removed` becomes `inserted`. -/
structure Edit where
  before : Text
  removed : Text
  inserted : Text
  after : Text
  deriving DecidableEq, Repr

namespace Edit

def source (e : Edit) : Text := e.before ++ e.removed ++ e.after

def result (e : Edit) : Text := e.before ++ e.inserted ++ e.after

end Edit

inductive Segment where
  | kept (c : Char)
  | edited (e : Edit)
  deriving DecidableEq, Repr

namespace Segment

def result : Segment → Text
  | kept c => [c]
  | edited e => e.result

end Segment

/-- A finder is sound if what it finds stands at the front of the text and is not empty. -/
def SoundFinder (find? : Text → Option Edit) : Prop :=
  ∀ s e, find? s = some e → e.source <+: s ∧ e.source ≠ []

/-- Cuts a text into segments, trying `find?` at every position outside an earlier occurrence. The
number counts the characters of the last occurrence that are still to be passed over. -/
def segmentsFrom (find? : Text → Option Edit) : Nat → Text → List Segment
  | _, [] => []
  | passed + 1, _ :: s => segmentsFrom find? passed s
  | 0, c :: s =>
    match find? (c :: s) with
    | none => .kept c :: segmentsFrom find? 0 s
    | some e => .edited e :: segmentsFrom find? (e.source.length - 1) s

def segments (find? : Text → Option Edit) (s : Text) : List Segment :=
  segmentsFrom find? 0 s

/-- The text with every edit found by the scan carried out. -/
def revise (find? : Text → Option Edit) (s : Text) : Text :=
  (segments find? s).flatMap Segment.result

end FlutterMend
