import FlutterMend.Config
import FlutterMend.Rule

/-!
# Events

What a run has to tell about its work besides its report. Every event has a level and a target, by
which it can be selected, and a one-line rendering.
-/

namespace FlutterMend

/-- The levels of events, from the most to the least important. -/
inductive Level where
  | error
  | warn
  | info
  | debug
  | trace
  deriving DecidableEq, Repr

namespace Level

/-- How much detail has to be asked for to see events of a level. -/
def detail : Level → Nat
  | error => 1
  | warn => 2
  | info => 3
  | debug => 4
  | trace => 5

def label : Level → String
  | error => "ERROR"
  | warn => "WARN"
  | info => "INFO"
  | debug => "DEBUG"
  | trace => "TRACE"

end Level

inductive Event where
  | rootMissing (root : String)
  | skipped (path : String)
  | unchanged (path : String)
  | revised (path : String) (rules : List Rule) (written : Bool)
  | complete (scanned modified : Nat)
  deriving DecidableEq, Repr

namespace Event

def level : Event → Level
  | rootMissing _ => .warn
  | skipped _ => .trace
  | unchanged _ | revised .. => .debug
  | complete .. => .info

/-- The target of the events of a walk. -/
def walkTarget : String := "migrator::io::walker"

/-- The target of all other events, and of the run as a whole. -/
def runTarget : String := "migrator::fix"

def target : Event → String
  | rootMissing _ | skipped _ => walkTarget
  | unchanged _ | revised .. | complete .. => runTarget

def message : Event → String
  | rootMissing root => "root directory not found, nothing to scan root=" ++ root
  | skipped path => "skipping non-file entry path=" ++ path
  | unchanged path => "unchanged path=" ++ path
  | revised path rules written =>
    let names := rules.map fun rule => "\"" ++ rule.name ++ "\""
    "rewrote file path=" ++ path ++ " rules=[" ++ ", ".intercalate names ++ "] written=" ++
      toString written
  | complete scanned modified =>
    "fix run complete scanned=" ++ toString scanned ++ " modified=" ++ toString modified

/-- The line of an event outside every run. -/
def line (e : Event) : String := e.level.label ++ " " ++ e.target ++ ": " ++ e.message

/-- The line of an event inside a run that is itself of interest, with the settings of the run. -/
def lineWithin (c : Config) (e : Event) : String :=
  e.level.label ++ " run_fix: " ++ e.target ++ ": " ++ e.message ++ " root=" ++ c.root ++
    " extension=" ++ c.extension ++ " dry_run=" ++ toString c.dryRun

end Event

end FlutterMend
