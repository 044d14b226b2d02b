import Scenario.CommandLine
import Std.Time.DateTime.Timestamp

/-!
# The program
-/

namespace Scenario

/-- Why a file cannot be read. -/
def readFault : IO.Error → String
  | .noFileOrDirectory _ code _ => "No such file or directory (os error " ++ toString code ++ ")"
  | .inappropriateType _ _ _ => "Is a directory (os error 21)"
  | .permissionDenied _ code _ => "Permission denied (os error " ++ toString code ++ ")"
  | e => toString e

/-- The text of a file, or why it cannot be read. -/
def readText (path : String) : IO (Except String String) := do
  try
    return .ok (← IO.FS.readFile path)
  catch e =>
    return .error (readFault e)

/-- Reads the file that the arguments name, and runs. -/
def runMain (args : List String) : IO UInt32 := do
  let now := (← Std.Time.Timestamp.now).toSecondsSinceUnixEpoch.val
  let content ← match (CommandLine.job? args).bind CommandLine.Job.file? with
    | some path => readText path
    | none => pure (.ok "")
  let outcome := CommandLine.run (fun _ => content) now args
  (← IO.getStdout).putStr outcome.out
  (← IO.getStderr).putStr outcome.err
  return outcome.code.toUInt32

end Scenario

/-- The program. -/
def main (args : List String) : IO UInt32 :=
  Scenario.runMain args
