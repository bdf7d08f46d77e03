import FlutterMend.Log.Event

/-!
# Log filters

A filter selects events by directives. A directive names the detail wanted, either for all targets
or for those that begin with a given text. The directive with the longest such text decides, and of
two directives with the same text the later one. What no directive speaks of is not selected.
-/

namespace FlutterMend

/-- The detail wanted for a group of targets. No detail at all selects nothing. -/
structure Directive where
  target : Option Text
  detail : Nat
  deriving DecidableEq, Repr

abbrev Filter := List Directive

namespace Directive

def isBlank (c : Char) : Bool := CharClass.whiteSpace.contains c

/-- The number written in decimal digits. -/
def number? (s : Text) : Option Nat :=
  if s ≠ [] ∧ s.all Char.isDigit then
    some (s.foldl (fun n c => 10 * n + (c.toNat - '0'.toNat)) 0)
  else none

/-- The detail that a level name or number stands for. -/
def detail? (s : Text) : Option Nat :=
  match number? s with
  | some n => if n ≤ Level.trace.detail then some n else none
  | none =>
    let name := String.ofList (s.map Char.toLower)
    if name = "off" then some 0
    else
      ([.error, .warn, .info, .debug, .trace].find? fun level : Level =>
        String.ofList (level.label.toList.map Char.toLower) = name).map Level.detail

/-- Reads one directive: a level, a target, or a target and a level with an equals sign between
them. A target without a level is wanted in full detail. -/
def parse? (s : Text) : Option Directive := do
  let first ← (s.dropWhile isBlank).head?
  guard (CharClass.word.contains first || first == '-' || first == ':')
  match s.span (· != '=') with
  | (target, '=' :: level) =>
    guard (!(s.head?.any isBlank))
    if level = [] then return { target := some target, detail := Level.trace.detail }
    return { target := some target, detail := ← detail? level }
  | _ =>
    match detail? s with
    | some detail => return { target := none, detail }
    | none => return { target := some s, detail := Level.trace.detail }

/-- The length of the text that a target has to begin with, if it does. -/
def specificity? (d : Directive) (target : Text) : Option Nat :=
  match d.target with
  | none => some 0
  | some start => if start.isPrefixOf target then some (start.length + 1) else none

end Directive

namespace Filter

/-- The filter that holds when none is given, or one that cannot be read. -/
def default : Filter := [{ target := none, detail := Level.warn.detail }]

/-- Reads directives between commas. -/
def parse? (s : Text) : Option Filter :=
  ((Text.pieces ',' s).filter (· != [])).mapM Directive.parse?

/-- The filter asked for by a setting. An empty setting asks for errors only. -/
def ofSetting : Option String → Filter
  | none => default
  | some setting =>
    match parse? setting.toList with
    | none => default
    | some [] => [{ target := none, detail := Level.error.detail }]
    | some filter => filter

/-- The detail wanted of a target. -/
def detailOf (f : Filter) (target : String) : Nat :=
  let best := f.foldl (fun best d =>
    match d.specificity? target.toList with
    | none => best
    | some n => if best.1 ≤ n then (n, d.detail) else best) (0, 0)
  best.2

def selects (f : Filter) (level : Level) (target : String) : Bool :=
  level.detail ≤ f.detailOf target

/-- The lines of the selected events of a run. They show the settings of the run if the run as a
whole is selected, which counts as information. -/
def render (f : Filter) (c : Config) (events : List Event) : List String :=
  let line := if f.selects .info Event.runTarget then Event.lineWithin c else Event.line
  (events.filter fun e => f.selects e.level e.target).map line

end Filter

end FlutterMend
