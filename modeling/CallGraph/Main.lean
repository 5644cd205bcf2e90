import CallGraph.Command.Run
import CallGraph.Command.Usage
import Std.Time.DateTime.Timestamp

/-!
# The command line

Requests are run on the files of the machine.
-/

namespace CallGraph

/-- What a path of the machine leads to. -/
def lookAt (path : String) : IO Entry := do
  try
    return .file (← IO.FS.readBinFile path).toList
  catch e =>
    match e with
    | .noFileOrDirectory .. => return .missing
    | .inappropriateType _ code _ => return if code = 20 then .missing else .directory
    | _ => return .directory

/-- Whether an action succeeds. -/
def succeeds (action : IO Unit) : IO Bool := do
  try
    action
    return true
  catch _ => return false

/-- Writes a file beside its final place and moves it there when it is complete. -/
def replaceFile (path : String) (content : List UInt8) : IO Unit := do
  let directory := "/".intercalate ((Path.pieces path.toList).dropLast.map String.ofList)
  unless directory.isEmpty do
    IO.FS.createDirAll directory
  let draft := path ++ ".tmp"
  IO.FS.writeBinFile draft content.toByteArray
  IO.FS.rename draft path

instance : FileSystem IO where
  look := lookAt
  write path content := succeeds (IO.FS.writeBinFile path content.toByteArray)
  replace path content := succeeds (replaceFile path content)
  now := do
    let seconds := (← Std.Time.Timestamp.now).toSecondsSinceUnixEpoch.val
    return { days := seconds / 86400, second := (seconds % 86400).toNat, nanosecond := 0 }

end CallGraph

open CallGraph in
/-- Runs the tool on the words of the command line; the result is the exit code. -/
def main (words : List String) : IO UInt32 := do
  match Usage.read (← IO.getEnv Usage.settingsVariable) words with
  | .help =>
      IO.print Usage.explanation
      return 0
  | .version =>
      IO.println (Usage.tool ++ " " ++ Usage.version)
      return 0
  | .nothing =>
      IO.eprint Usage.explanation
      return 2
  | .wrong error =>
      IO.eprintln ("error: " ++ error.message)
      return 2
  | .request request =>
      let outcome ← (request.run : IO Outcome)
      IO.print outcome.text
      match outcome.failure with
      | some failure => IO.eprintln ("Error: " ++ failure.message)
      | none => pure ()
      return UInt32.ofNat outcome.exitCode
