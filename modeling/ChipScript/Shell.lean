import ChipScript.Shell.ControlSequence
import ChipScript.Shell.Options

/-!
# The command line

`Shell.run` reads the arguments and carries out what they ask for. If they are refused, it shows
how they are used, and the exit code is 2.
-/

namespace ChipScript.Shell

open CommandLine

/-- The lines about usage that come before a usage error. -/
def usage : List String :=
  ["Usage: yololvm [OPTIONS] PROGRAM_FILE", "Try 'yololvm --help' for help.", ""]

def helpText : List String :=
  ["Usage: yololvm [OPTIONS] PROGRAM_FILE", "", "  Run a parsed YOLOL program.", "", "Options:"] ++
    Flag.all.map fun flag =>
      let short := flag.letter?.toList.map fun c => String.ofList ['-', c]
      "  " ++ ", ".intercalate (short ++ [flag.longName])

def versionText : String := "yololvm, version 1.0.0"

/-- What is said about a text that is not JSON. -/
def describe (_ : String) : String := "the text cannot be read"

/-- The command, as a function of its arguments, the environment and the files it can see. -/
def run (args : List String) (environment : String → Option String)
    (look : String → FileState) : Output :=
  match scan args >>= (·.interpret look) with
  | .error e =>
    let output := (Trouble.argument e.message).output []
    { output with complaint := usage ++ output.complaint }
  | .ok .version => { out := [versionText] }
  | .ok .help => { out := helpText }
  | .ok (.run inv) => invoke describe environment inv

/-- The path of the program file, if the arguments have one. -/
def programPath? (args : List String) : Option String :=
  match scan args with
  | .ok args => args.others.head?
  | .error _ => none

end ChipScript.Shell
