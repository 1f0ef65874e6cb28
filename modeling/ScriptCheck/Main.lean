import ScriptCheck.CommandLine

/-!
# The program

Reads the files that the arguments name, runs the command and prints what it leaves behind.
-/

namespace ScriptCheck.CommandLine

/-- The reason why a file that does not exist cannot be read. -/
def noSuchFile : String := "No such file or directory (os error 2)"

/-- The content of a file, or the reason why it cannot be read. -/
def readText (path : String) : IO (Except String String) := do
  try
    return .ok (← IO.FS.readFile path)
  catch
    | .noFileOrDirectory .. => return .error noSuchFile
    | .permissionDenied .. => return .error "Permission denied (os error 13)"
    | e => return .error (toString e)

/-- Prints the outcome of a run. -/
def printOutcome (outcome : Outcome) : IO UInt32 := do
  (← IO.getStdout).putStr outcome.stdout
  (← IO.getStderr).putStr outcome.stderr
  return outcome.code.toUInt32

/-- How the program is called. -/
def usage : String :=
  "usage: check --registry FILE MODULE [--source FILE] [--json] [--no-color]\n" ++
    "       types --registry FILE [MODULE]\n"

/-- Runs a command on the files of the file system. -/
def execute (command : Command) : IO UInt32 := do
  let contents ← command.files.mapM fun path => do return (path, ← readText path)
  printOutcome (run (fun path => (contents.lookup path).getD (.error noSuchFile)) command)

end ScriptCheck.CommandLine

/-- Runs the command that the arguments stand for. -/
def main (args : List String) : IO UInt32 := do
  match ScriptCheck.CommandLine.parse args with
  | some command => ScriptCheck.CommandLine.execute command
  | none =>
    (← IO.getStderr).putStr ScriptCheck.CommandLine.usage
    return 2
