import TypedWorkflow.CommandLine.Run

/-!
# The command line

Reads the files that a command names, runs it, prints what it gives and exits with its code.
-/

namespace TypedWorkflow

/-- Why a file cannot be read, with the number that the system gives to the reason. -/
def readFailure : IO.Error → String
  | .noFileOrDirectory .. => "No such file or directory (os error 2)"
  | .permissionDenied .. => "Permission denied (os error 13)"
  | .inappropriateType _ 21 _ => "Is a directory (os error 21)"
  | .inappropriateType .. => "Not a directory (os error 20)"
  | e => toString e

/-- The content of a file, or why it cannot be read. -/
def readContent (name : String) : IO FileContent := do
  try
    let bytes ← IO.FS.readBinFile name
    match String.fromUTF8? bytes with
    | some text => return .ok text
    | none => return .error "stream did not contain valid UTF-8"
  catch e => return .error (readFailure e)

/-- Prints an outcome. -/
def printOutcome (o : Outcome) : IO UInt32 := do
  IO.print o.stdout
  IO.eprint o.stderr
  return UInt32.ofNat o.code

end TypedWorkflow

open TypedWorkflow in
/-- Runs the command of a command line. -/
def main (arguments : List String) : IO UInt32 :=
  match Command.ofArguments arguments with
  | none => printOutcome .usage
  | some command => do
    let contents ← command.files.mapM fun name => return (name, ← readContent name)
    printOutcome (command.run contents)
