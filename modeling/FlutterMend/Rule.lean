import FlutterMend.Rule.Opacity
import FlutterMend.Rule.SuperKey

/-!
# Revision rules

A rule revises a whole text and depends on nothing else. A list of rules is applied in order, each
rule to the text the rules before it have left, and the rules that changed something are recorded.
-/

namespace FlutterMend

/-- A revised text, and whether it differs from the text it was made from. -/
structure RevisedText where
  text : Text
  changed : Bool
  deriving DecidableEq, Repr

def RevisedText.compare (input text : Text) : RevisedText := { text, changed := text != input }

inductive Rule where
  | opacity
  | superKey
  deriving DecidableEq, Repr

namespace Rule

/-- The rules of a fix run. -/
def defaults : List Rule := [opacity, superKey]

def name : Rule → String
  | opacity => "opacity"
  | superKey => "super_key"

def revise : Rule → Text → Text
  | opacity => Opacity.revise
  | superKey => SuperKey.revise

def apply (rule : Rule) (s : Text) : RevisedText := RevisedText.compare s (rule.revise s)

end Rule

/-- The text a list of rules leaves, and those of the rules that reported a change, in order. -/
structure Revision where
  text : Text
  applied : List Rule
  deriving DecidableEq, Repr

def Revision.ofRules : List Rule → Text → Revision
  | [], s => { text := s, applied := [] }
  | rule :: rules, s =>
    let revised := rule.apply s
    if revised.changed then
      let later := ofRules rules revised.text
      { later with applied := rule :: later.applied }
    else
      ofRules rules s

end FlutterMend
