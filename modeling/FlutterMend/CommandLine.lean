import FlutterMend.CommandLine.Arguments
import FlutterMend.CommandLine.Help
import FlutterMend.Log.Filter
import FlutterMend.Run

/-!
# The command line program

A call of the program takes its arguments, a log setting and the file tree to an exit code, the
texts on the two output streams, and the tree afterwards.
-/

namespace FlutterMend

structure Execution where
  code : Nat
  stdout : String
  stderr : String
  tree : FileTree

namespace CommandLine

/-- The exit code of a run that has ended well, whether or not it changed a file. -/
def exitOk : Nat := 0

/-- The exit code of a run that was given up. -/
def exitInvalid : Nat := 1

/-- The exit code of arguments that are not understood. -/
def exitUsage : Nat := 2

def run (setting : Option String) (t : FileTree) (c : Config) : Execution :=
  let outcome := runFix c t
  let log := unlines ((Filter.ofSetting setting).render c outcome.events)
  match outcome.result with
  | .ok report =>
    { code := exitOk, stdout := unlines report.lines, stderr := log, tree := outcome.tree }
  | .error fault =>
    { code := exitInvalid, stdout := "", stderr := log ++ unlines [fault.message],
      tree := outcome.tree }

def execute (arguments : List String) (setting : Option String) (t : FileTree) : Execution :=
  match Arguments.parse arguments with
  | .ok (.run c) => run setting t c
  | .ok .help => { code := exitOk, stdout := helpText, stderr := "", tree := t }
  | .ok .version => { code := exitOk, stdout := versionText, stderr := "", tree := t }
  | .error e =>
    { code := exitUsage, stdout := "", stderr := unlines ["error: " ++ e.message], tree := t }

end CommandLine

end FlutterMend
