import FlutterMend.Config

/-!
# Command line arguments

The arguments are an optional root, the option `--ext` with a value, and the flags `--dry-run`,
`--help` and `--version`, in any order. After `--` every argument is a root.

Arguments are read from left to right, and the first error is the one reported. A root and the value
of an option are accepted only when the next argument has been recognised, so an argument that is
not recognised is reported before a fault in the value before it.
-/

namespace FlutterMend

inductive UsageError where
  | unexpectedArgument (argument : String)
  | unexpectedValue (value option : String)
  | repeatedOption (option : String)
  | missingValue (option : String)
  deriving DecidableEq, Repr

def UsageError.message : UsageError → String
  | unexpectedArgument argument => "unexpected argument '" ++ argument ++ "' found"
  | unexpectedValue value option =>
    "unexpected value '" ++ value ++ "' for '" ++ option ++ "' found; no more were expected"
  | repeatedOption option => "the argument '" ++ option ++ "' cannot be used multiple times"
  | missingValue option => "a value is required for '" ++ option ++ "' but none was supplied"

/-- What the arguments ask for. -/
inductive Request where
  | run (config : Config)
  | help
  | version
  deriving DecidableEq, Repr

namespace Arguments

/-- The shapes of an argument. Of a group of short flags only the first one matters, since every
flag that is known ends the reading. -/
inductive Token where
  | escape
  | long (name : String) (value : Option String)
  | short (flag : Char)
  | plain (text : String)
  deriving DecidableEq, Repr

def Token.ofArgument (argument : String) : Token :=
  match argument.toList with
  | ['-', '-'] => .escape
  | '-' :: '-' :: rest =>
    match rest.span (· != '=') with
    | (name, _ :: value) => .long (String.ofList name) (some (String.ofList value))
    | (name, []) => .long (String.ofList name) none
  | '-' :: flag :: _ => .short flag
  | _ => .plain argument

/-- What the last argument has left open. -/
inductive Awaiting where
  | nothing
  | extensionValue
  | extensionEnd (value : String)
  | rootEnd (value : String)
  deriving DecidableEq, Repr

structure State where
  root : Option String := none
  extension : Option String := none
  dryRun : Bool := false
  rootSeen : Bool := false
  awaiting : Awaiting := .nothing
  deriving DecidableEq, Repr

def extensionOption : String := "--ext <EXTENSION>"

def rootOption : String := "[ROOT]"

namespace State

def setExtension (s : State) (value : String) : Except UsageError State :=
  match s.extension with
  | some _ => .error (.repeatedOption extensionOption)
  | none => .ok { s with extension := some value }

/-- Accepts what the last argument has left open. -/
def settle (s : State) : Except UsageError State :=
  let settled := { s with awaiting := .nothing }
  match s.awaiting with
  | .nothing => .ok settled
  | .extensionValue => .error (.missingValue extensionOption)
  | .extensionEnd value => settled.setExtension value
  | .rootEnd value =>
    if value = "" then .error (.missingValue rootOption)
    else .ok { settled with root := some value }

def setDryRun (s : State) : Except UsageError State :=
  if s.dryRun then .error (.repeatedOption "--dry-run") else .ok { s with dryRun := true }

/-- Takes an argument as the root. -/
def takeRoot (s : State) (argument : String) : Except UsageError State :=
  if s.rootSeen then .error (.unexpectedArgument argument)
  else s.settle.map fun s => { s with rootSeen := true, awaiting := .rootEnd argument }

/-- Ends the reading. -/
def finish (s : State) : Except UsageError Request :=
  s.settle.map fun s =>
    let default : Config := {}
    .run (.ofExtension (s.root.getD default.root) (s.extension.getD default.extension) s.dryRun)

end State

/-- Reads the arguments after `--`. -/
def readRoots : State → List String → Except UsageError Request
  | s, [] => s.finish
  | s, argument :: rest => do readRoots (← s.takeRoot argument) rest

def readFrom : State → List String → Except UsageError Request
  | s, [] => s.finish
  | s, argument :: rest =>
    match Token.ofArgument argument with
    | .escape => readRoots s rest
    | .long "ext" (some value) => do readFrom (← (← s.settle).setExtension value) rest
    | .long "ext" none => do readFrom { ← s.settle with awaiting := .extensionValue } rest
    | .long "dry-run" none => do readFrom (← (← s.settle).setDryRun) rest
    | .long "help" none | .short 'h' => s.settle.map fun _ => .help
    | .long "version" none | .short 'V' => s.settle.map fun _ => .version
    | .long name value =>
      match value with
      | some value =>
        if name = "dry-run" ∨ name = "help" ∨ name = "version" then
          .error (.unexpectedValue value ("--" ++ name))
        else .error (.unexpectedArgument ("--" ++ name))
      | none => .error (.unexpectedArgument ("--" ++ name))
    | .short flag => .error (.unexpectedArgument (String.ofList ['-', flag]))
    | .plain text =>
      if s.awaiting = .extensionValue then readFrom { s with awaiting := .extensionEnd text } rest
      else do readFrom (← s.takeRoot text) rest

/-- What a list of arguments asks for. -/
def parse (arguments : List String) : Except UsageError Request := readFrom {} arguments

end Arguments

end FlutterMend
