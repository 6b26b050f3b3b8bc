/-
The program: reads a statement, writes its tree or the report of an error.
-/
import SqlSelect.CommandLine

open SqlSelect SqlSelect.CommandLine

/-- Why a file could not be read. A failed read gives the number of its
error, a failed look at the path gives it negated. -/
def readFault : IO.Error → ReadFault
  | .noFileOrDirectory .. => .missing
  | .permissionDenied .. => .denied
  | .inappropriateType _ number _ =>
    if number = 21 ∨ number = -21 then .directory else .notDirectory
  | error@(.invalidArgument _ number _) =>
    if number = 36 ∨ number = -36 then .nameTooLong else .other (toString error)
  | error => .other (toString error)

/-- Reads a place to its end. -/
def readPlace : Place → IO (Except ReadFault ByteArray)
  | .stdin => do return .ok (← (← IO.getStdin).readBinToEnd)
  | .file path => do
    try
      return .ok (← IO.FS.readBinFile path)
    catch error =>
      return .error (readFault error)

/-- Writes an answer and yields the exit code. -/
def writeAnswer (answer : Answer) : IO UInt32 := do
  (← IO.getStderr).putStr answer.stderr
  (← IO.getStdout).putStr answer.stdout
  return answer.code

/-- Runs the program on its arguments. -/
def main (arguments : List String) : IO UInt32 := do
  match request arguments (← IO.getEnv "PGSELECT_FORMAT") with
  | .error usage =>
    (← IO.getStderr).putStr ("error: " ++ usage.message ++ "\n")
    return 2
  | .ok .version => writeAnswer versionAnswer
  | .ok (.parse job) => writeAnswer (job.answer (← job.input.text readPlace))
