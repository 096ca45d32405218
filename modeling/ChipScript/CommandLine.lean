import ChipScript.Chip
import ChipScript.CommandLine.Assignment
import ChipScript.Members
import ChipScript.Program.Decode
import ChipScript.Program.Outline
import ChipScript.Text.Utf8

/-!
# The command

`CommandLine.invoke` is the command as a function of what it is asked to do (`Invocation`) and of
the environment. It loads a program, runs it for a number of steps on a chip in a world of its own,
and shows the state that it comes to.

The exit code is 1 if records were made or the program was refused, and 3 for anything that should
not have happened.

How arguments become an invocation is not decided here. Two things are left open as functions: how a
text is described that is not JSON, and how a text is made fit for what is not a terminal.
`Output.toOut` and `Output.toErr` apply the latter to what the command says about the state and
about trouble, and write the log as it is.
-/

namespace ChipScript.CommandLine

/-- A run of a program, as it is asked for. -/
structure Invocation where
  path : String
  /-- What the file at the path holds. -/
  bytes : List UInt8
  steps : Option Nat := none
  fields : List (String × Value) := []
  locals : List (String × Value) := []
  device : String := "chip"
  ast : Bool := false
  logLevel : Option Level := none
  verbose : Bool := false
deriving DecidableEq

/-- What the command has to say, line by line, and its exit code. -/
structure Output where
  exitCode : Nat := 0
  /-- The lines about the program and the state. -/
  out : List String := []
  log : List String := []
  /-- The lines about trouble, which come after the log. -/
  complaint : List String := []

namespace Output

/-- Lines as they are written to a terminal, or to something else by way of `plain`. -/
def written (plain : String → String) (toTerminal : Bool) (lines : List String) : List String :=
  if toTerminal then lines else lines.map plain

/-- What is written to the output. -/
def toOut (output : Output) (plain : String → String) (toTerminal : Bool) : List String :=
  written plain toTerminal output.out

def toErr (output : Output) (plain : String → String) (toTerminal : Bool) : List String :=
  output.log ++ written plain toTerminal output.complaint

end Output

/-- What ends the command early. -/
inductive Trouble where
  /-- The program or the world is at fault. -/
  | program (message : String)
  /-- An argument or a file is at fault. -/
  | argument (message : String)
  /-- Something else happened. -/
  | internal (message : String)
deriving DecidableEq, Repr

namespace Trouble

def exitCode : Trouble → Nat
  | program _ => 1
  | argument _ => 2
  | internal _ => 3

def text : Trouble → String
  | program message => "Error: " ++ message
  | argument message => "Error: " ++ message
  | internal message => "Internal error: " ++ message

/-- The output of a command that was ended by trouble, after some lines of log. -/
def output (trouble : Trouble) (log : List String) : Output :=
  { exitCode := trouble.exitCode, log, complaint := [trouble.text] }

end Trouble

/-- A path without empty steps and steps that stay where they are. -/
def plainPath (path : String) : String :=
  let steps := (path.splitOn "/").filter fun s => !s.isEmpty && s ≠ "."
  let root := if path.startsWith "/" then
      if path.startsWith "//" && !path.startsWith "///" then "//" else "/"
    else ""
  let plain := root ++ "/".intercalate steps
  if plain.isEmpty then "." else plain

/-- The lines that show the state of a chip and its world. -/
def stateLines (site : Site) : List String :=
  let locals := site.chip.locals.toList.map fun (name, v) => s!"  {name} = " ++ v.shown
  let fields := (site.world.map World.devices).getD [] |>.flatMap fun d =>
    d.fields.toList.map fun (name, v) => s!"  {d.name}:{name} = " ++ v.shown
  [s!"Line: {site.chip.line}", "Variables:"] ++ locals ++ ["Fields:"] ++ fields

/-- The lines that show the records of a chip, none if it has none. -/
def errorLines (log : ErrorLog) : List String :=
  if log.count = 0 then [] else ["Errors:", log.report]

def troubleOf (e : Program.LoadError) : Trouble :=
  match e.toFormatError? with
  | some f => .program f.message
  | none => .internal e.message

def load (describe : String → String) (inv : Invocation) : Except Trouble Program × Trace :=
  let start := Event.loadingFile (plainPath inv.path)
  match Text.decodeUtf8 inv.bytes with
  | .error fault => (.error (.internal fault.message), [start])
  | .ok text =>
    let (outcome, trace) := Program.ofText describe text
    (outcome.mapError troubleOf, start :: trace)

/-- The world of a command: one device with the fields that were given. -/
def worldOf (inv : Invocation) : World × Trace :=
  World.empty.register
    (Device.new inv.device (Members.ofPairs inv.fields) Device.defaultNetwork)

/-- Gives names values before a run, one after another. -/
def seed (site : Site) (locals : List (String × Value)) : Site × Trace :=
  locals.foldl (fun (site, trace) (name, value) =>
    let r := Site.set ⟨name⟩ value site
    (r.state, trace ++ r.trace)) (site, [])

def runProgram (settings : Settings) (inv : Invocation) (program : Program) :
    Except Trouble Output × Trace :=
  let (world, added) := worldOf inv
  match Chip.new (some inv.device) program settings with
  | .error e => (.error (.program e.message), added)
  | .ok chip =>
    let (site, seeded) := seed ⟨chip, some world⟩ inv.locals
    let steps := inv.steps.getD program.length
    let announced := if inv.verbose then
        [s!"Running {plainPath inv.path} ({program.length} lines) for {steps} steps"]
      else []
    match site.steps steps with
    | .error e => (.error (.internal e.message), added ++ seeded)
    | .ok (site, trace) =>
      let errors := errorLines site.chip.errors
      (.ok { exitCode := if errors.isEmpty then 0 else 1,
             out := announced ++ stateLines site ++ errors }, added ++ seeded ++ trace)

def invoke (describe : String → String) (environment : String → Option String)
    (inv : Invocation) : Output :=
  let (settings, warnings) := Settings.ofEnvironment environment
  let level := inv.logLevel.getD settings.logLevel
  let early := warnings.map Event.message
  let logged (trace : Trace) := early ++ (trace.atLeast level).map Event.logText
  match load describe inv with
  | (.error trouble, trace) => trouble.output (logged trace)
  | (.ok program, trace) =>
    if inv.ast then { out := [program.outline], log := logged trace }
    else match runProgram settings inv program with
      | (.error trouble, trace') => trouble.output (logged (trace ++ trace'))
      | (.ok output, trace') => { output with log := logged (trace ++ trace') }

end ChipScript.CommandLine
