import FlutterMend.Log.Event
import FlutterMend.Report
import FlutterMend.SourceFile
import FlutterMend.Walk

/-!
# Fix runs

A run walks through a tree and revises every file it finds before it goes on to the next one. The
first fault ends the run; files already written stay written.
-/

namespace FlutterMend

/-- What comes of working on a tree: a result, the tree afterwards, and the events on the way. -/
structure Outcome (α : Type) where
  result : Except Fault α
  tree : FileTree
  events : List Event := []

/-- Revises one file. The result tells whether a rule changed its text. -/
def fixFile (rules : List Rule) (dryRun : Bool) (t : FileTree) (path : String) : Outcome Bool :=
  match SourceFile.load t path with
  | .error fault => { result := .error fault, tree := t }
  | .ok file =>
    match file.apply rules with
    | (_, []) => { result := .ok false, tree := t, events := [.unchanged path] }
    | (file, applied) =>
      match if dryRun then .ok (t, false) else file.persist t with
      | .error fault => { result := .error fault, tree := t }
      | .ok (t, written) =>
        { result := .ok true, tree := t, events := [.revised path applied written] }

namespace Run

/-- Ends a run with its report. -/
def finish (t : FileTree) (report : Report) : Outcome Report :=
  { result := .ok report, tree := t
    events := [.complete report.scanned report.modified.length] }

/-- Goes on with a run for a number of steps of its walk. -/
def advance (rules : List Rule) : Nat → FileTree → Walk → Report → Outcome Report
  | 0, t, _, report => finish t report
  | steps + 1, t, w, report =>
    match w.step t with
    | none => finish t report
    | some (visit, w) =>
      let skipped := visit.skipped.toList.map Event.skipped
      match visit.item with
      | none =>
        let rest := advance rules steps t w report
        { rest with events := skipped ++ rest.events }
      | some (.error fault) => { result := .error fault, tree := t, events := skipped }
      | some (.ok path) =>
        let fixed := fixFile rules report.dryRun t path
        match fixed.result with
        | .error fault =>
          { result := .error fault, tree := fixed.tree, events := skipped ++ fixed.events }
        | .ok changed =>
          let rest := advance rules steps fixed.tree w (report.add path changed)
          { rest with events := skipped ++ fixed.events ++ rest.events }

end Run

/-- Applies the default rules to every eligible file below the root. -/
def runFix (c : Config) (t : FileTree) : Outcome Report :=
  match c.validate with
  | .error fault => { result := .error fault, tree := t }
  | .ok () =>
    let walk := Walk.start c t
    let missing := if walk.pending = [] then [Event.rootMissing c.root] else []
    let run := Run.advance Rule.defaults (walk.budget t) t walk { dryRun := c.dryRun }
    { run with events := missing ++ run.events }

end FlutterMend
