import FlutterMend.FileTree.FileError

/-!
# Faults

Why a run, or one step of it, failed. The message names what was tried and then the cause.
-/

namespace FlutterMend

inductive Fault where
  | emptyExtension
  | separatorInExtension (extension : String)
  | create (path : String) (cause : FileError)
  | read (path : String) (cause : FileError)
  | write (path : String) (cause : FileError)
  | walk (root dir : String) (cause : FileError)
  deriving DecidableEq, Repr

def Fault.message : Fault → String
  | emptyExtension => "extension must be non-empty"
  | separatorInExtension extension =>
    "extension must not contain a path separator: " ++ extension
  | create path cause => "create " ++ path ++ ": " ++ cause.message
  | read path cause => "read " ++ path ++ ": " ++ cause.message
  | write path cause => "write " ++ path ++ ": " ++ cause.message
  | walk root dir cause =>
    "walk " ++ root ++ ": IO error for operation on " ++ dir ++ ": " ++ cause.message ++ ": " ++
      cause.message

end FlutterMend
