/-!
# Reports

What a finished run has to say: how many files it read and which of them it changed, or would have
changed in a dry run, in the order in which it came to them.
-/

namespace FlutterMend

structure Report where
  modified : List String := []
  scanned : Nat := 0
  dryRun : Bool := false
  deriving DecidableEq, Repr

namespace Report

/-- The report after one more file. -/
def add (r : Report) (path : String) (changed : Bool) : Report :=
  { r with
    modified := if changed then r.modified ++ [path] else r.modified
    scanned := r.scanned + 1 }

/-- The last line of every report. -/
def doneLine : String := "Done!"

def lines (r : Report) : List String :=
  r.modified.map (fun path => (if r.dryRun then "Would fix: " else "Fixed: ") ++ path) ++ [doneLine]

end Report

end FlutterMend
