import ChipScript.ErrorLog
import ChipScript.Execute
import ChipScript.Settings

/-!
# Chips

A chip is bound to a device and a program and runs one line in each step:

1. the records of the line are discarded;
2. a line with syntax errors is skipped, with a warning the first time; any other line is executed,
   and the mistakes that it reports are recorded for it, even if a goto has moved the counter. A
   line that fails gets a record that does not say why;
3. the counter goes on to the next line, from the last to the first.

A chip owns its locals, its records and its counter. What it shares with other chips is the world: a
`Site` is a chip in a world, and a `Fleet` is several chips in one.
-/

namespace ChipScript

structure Chip where
  device : Option String
  program : Program
  settings : Settings
  errors : ErrorLog
  locals : Locals := ∅
  line : Int := 1
  /-- The lines that were skipped with a warning. -/
  skipped : List Int := []

/-- A chip in a world, or in none. -/
structure Site where
  chip : Chip
  world : Option World

namespace Chip

/-- A chip at the start of a program, which may not have more lines than the limit. -/
def new (device : Option String) (program : Program) (settings : Settings) :
    Except FormatError Chip :=
  if settings.lineLimit < program.length then
    .error { detail := s!"program has {program.length} lines, the limit is {settings.lineLimit}" }
  else
    .ok { device, program, settings, errors := { maxPerLine := settings.maxErrorsPerLine } }

/-- Moves the counter to a line of the program. -/
def setLine (chip : Chip) (line : Int) : Except LineError Chip :=
  if 1 ≤ line ∧ line ≤ max chip.program.length 1 then .ok { chip with line }
  else .error (.outOfRange line chip.program.length)

/-- The chip as it was when it was new. -/
def reset (chip : Chip) : Chip :=
  { chip with line := 1, locals := ∅, errors := chip.errors.clear, skipped := [] }

def describe (chip : Chip) : String :=
  let device := (chip.device.map Text.quoted).getD "None"
  s!"YololVM(device={device}, line={chip.line}, lines={chip.program.length})"

end Chip

/-- The message of the record for a line that failed. -/
def criticalMessage : String := "CRITICAL VM ERROR"

def Record.ofFailure : Record where
  severity := .error
  message := criticalMessage

namespace Site

def memory (site : Site) : Memory :=
  ⟨site.chip.locals, site.world⟩

def withMemory (site : Site) (m : Memory) : Site :=
  ⟨{ site.chip with locals := m.locals }, m.world⟩

def onMemory {α : Type} (x : Action Memory α) : Action Site α :=
  x.within memory withMemory

/-- The value of a name, or nothing where devices disagree. -/
def get (name : Name) : Action Site (Option Value) := fun site =>
  onMemory (Memory.get site.chip.device name) site

def set (name : Name) (value : Value) : Action Site Unit := fun site =>
  onMemory (Memory.write site.chip.device name value) site

def execution (site : Site) (statements : List Stmt) : Run Machine Unit :=
  executeBlock site.chip.device site.chip.settings.lineLimit statements
    ⟨site.memory, site.chip.line⟩

def withMachine (site : Site) (m : Machine) : Site :=
  let moved := site.withMemory m.memory
  { moved with chip.line := m.line }

/-- Records that a line failed, if it did. -/
def noteFailure (log : ErrorLog) (number : Int) : Ending Unit → ErrorLog × Trace
  | .failed why => (log.push number .ofFailure,
      .lineFailed number why :: log.pushTrace number .ofFailure)
  | _ => (log, [])

/-- What the run of a line leaves: its memory and its counter, and on record for the line what it
reported and whether it failed. -/
def settle (site : Site) (number : Int) (run : Run Machine Unit) : Site × Trace :=
  let heard := site.chip.errors.hear number run.trace
  let noted := noteFailure heard.1 number run.ending
  let moved := site.withMachine run.state
  ({ moved with chip.errors := noted.1 }, heard.2 ++ noted.2)

def runLine (site : Site) (number : Int) (statements : List Stmt) : Site × Trace :=
  let settled := site.settle number (site.execution statements)
  (settled.1, .executing number :: settled.2)

def skipLine (site : Site) (number : Int) (errorCount : Nat) : Site × Trace :=
  if number ∈ site.chip.skipped then (site, [])
  else
    ({ site with chip.skipped := site.chip.skipped ++ [number] }, [.lineSkipped number errorCount])

/-- Discards the records of a line and takes it: skips it if it has syntax errors, runs it if not.
-/
def takeLine (site : Site) (number : Int) (l : Line) : Site × Trace :=
  let fresh : Site := { site with chip.errors := site.chip.errors.reset number }
  if l.isFaulty then fresh.skipLine number l.syntaxFaults.length
  else fresh.runLine number l.statements

/-- Takes the current line and goes on to the next. -/
def step (site : Site) : Except LineError (Site × Trace) :=
  if site.chip.program.length = 0 then .ok (site, [.emptyProgram])
  else do
    let l ← site.chip.program.line site.chip.line
    let taken := site.takeLine site.chip.line l
    let line ← nextLine taken.1.chip.line site.chip.program.length
    return ({ taken.1 with chip.line := line }, taken.2)

def steps : Nat → Site → Except LineError (Site × Trace)
  | 0, site => .ok (site, [])
  | n + 1, site => do
    let first ← site.step
    let rest ← steps n first.1
    return (rest.1, first.2 ++ rest.2)

end Site

/-- Chips that share a world. -/
structure Fleet where
  chips : List Chip
  world : Option World

namespace Fleet

/-- The chip with a given index, in the world. -/
def site? (fleet : Fleet) (index : Nat) : Option Site :=
  fleet.chips[index]?.map (⟨·, fleet.world⟩)

def put (fleet : Fleet) (index : Nat) (site : Site) : Fleet :=
  ⟨fleet.chips.set index site.chip, site.world⟩

end Fleet

end ChipScript
