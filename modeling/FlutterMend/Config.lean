import FlutterMend.Character.Class
import FlutterMend.Fault
import FlutterMend.FileTree.Path

/-!
# Settings of a run

The directory to walk, the extension of the files to revise, and whether to leave them as they are.
-/

namespace FlutterMend

structure Config where
  root : String := "lib"
  extension : String := "dart"
  dryRun : Bool := false
  deriving DecidableEq, Repr

namespace Config

/-- Settings for an extension that may be given with dots in front of it. -/
def ofExtension (root extension : String) (dryRun : Bool) : Config :=
  { root, extension := String.ofList (extension.toList.dropWhile (· == '.')), dryRun }

def validate (c : Config) : Except Fault Unit :=
  if c.extension.toList.all CharClass.whiteSpace.contains then .error .emptyExtension
  else if '/' ∈ c.extension.toList ∨ '\\' ∈ c.extension.toList then
    .error (.separatorInExtension c.extension)
  else .ok ()

/-- The ending that makes a file name eligible. -/
def suffix (c : Config) : String := "." ++ c.extension

def accepts (c : Config) (name : String) : Bool :=
  c.suffix.toList.isSuffixOf name.toList

/-- Whether the settings are the default ones. Roots count as equal if they have the same
components. -/
def isDefault (c : Config) : Bool :=
  let default : Config := {}
  Path.components c.root == Path.components default.root && c.extension == default.extension &&
    c.dryRun == default.dryRun

end Config

end FlutterMend
