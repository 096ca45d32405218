import ChipScript.Shell

/-!
# The executable

Looks at the environment and at the program file, and hands both to `Shell.run`. What it comes to is
written without control sequences, unless it goes to a terminal.
-/

namespace ChipScript.Shell

/-- What a path leads to. -/
def lookAt (path : String) : IO FileState := do
  try
    return .file (← IO.FS.readBinFile path).toList
  catch e =>
    match e with
    | .noFileOrDirectory .. => return .missing
    | .inappropriateType .. => return .directory
    | .permissionDenied .. => return .unreadable
    | _ => return .missing

/-- Runs the command in the environment of the process. -/
def runInProcess (args : List String) : IO UInt32 := do
  let names := ["YOLOL_VM_LINE_LIMIT", "YOLOL_VM_MAX_ERRORS", "YOLOL_VM_LOG_LEVEL"]
  let environment ← names.mapM fun name => return (name, ← IO.getEnv name)
  let state ← match programPath? args with
    | some path => lookAt path
    | none => pure .missing
  let output := run args (fun name => (environment.lookup name).join) fun _ => state
  let plain := Text.withoutSequences
  for line in output.toOut plain (← (← IO.getStdout).isTty) do IO.println line
  for line in output.toErr plain (← (← IO.getStderr).isTty) do IO.eprintln line
  return output.exitCode.toUInt32

end ChipScript.Shell

def main (args : List String) : IO UInt32 :=
  ChipScript.Shell.runInProcess args
