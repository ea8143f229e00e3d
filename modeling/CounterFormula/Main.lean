import CounterFormula.CommandLine
import CounterFormula.CommandLine.Directory

/-!
# Main

The command: arguments in, text out, files read from the disk.
-/

open CounterFormula CounterFormula.CommandLine

/-- Why a file cannot be read, in the words of the operating system. -/
def reasonOf : IO.Error → String
  | .noFileOrDirectory .. => PathFault.missing.message
  | .permissionDenied .. => "Permission denied (os error 13)"
  | .inappropriateType .. => PathFault.isADirectory.message
  | error => toString error

/-- The text of a file on disk. -/
def fileOnDisk (path : Text) : IO (Except String Text) := do
  try
    return .ok (← IO.FS.readFile (String.ofList path)).toList
  catch error =>
    return .error (reasonOf error)

def main (arguments : List String) : IO UInt32 := do
  match ← runWith fileOnDisk (arguments.map String.toList) with
  | .done response =>
    (← IO.getStdout).putStr response.output
    return response.code.toUInt32
  | .refused refusal format =>
    if let some format := format then
      (← IO.getStderr).putStr (refusal.tell format)
    return refusal.code.toUInt32
