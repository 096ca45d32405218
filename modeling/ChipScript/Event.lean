import ChipScript.Fault

/-!
# Events

What happens besides computing is told as events. An event has a level, names the part of the
program that saw it, and reads as a message; a `Trace` is the events of some activity in order.
-/

namespace ChipScript

/-- How much an event matters. -/
inductive Level where
  | debug | info | warning | error | critical
deriving DecidableEq, Repr

namespace Level

def all : List Level :=
  [debug, info, warning, error, critical]

def name : Level → String
  | debug => "DEBUG"
  | info => "INFO"
  | warning => "WARNING"
  | error => "ERROR"
  | critical => "CRITICAL"

def ofName? (s : String) : Option Level :=
  all.find? (·.name = s)

def rank : Level → Nat
  | debug => 0
  | info => 1
  | warning => 2
  | error => 3
  | critical => 4

end Level

/-- Something worth telling. -/
inductive Event where
  /-- A field was read although the chip is in no world. -/
  | readWithoutWorld (name : String)
  /-- A field was written although the chip is in no world. -/
  | writeWithoutWorld (name : String)
  | deviceAdded (device network : String) (fieldCount : Nat)
  | fieldConflict (field : String) (valueCount : Nat) (network : String)
  | halting (why : ScriptError)
  /-- A goto leads to a line, whose number is written as `text`. -/
  | jump (line : Int) (text : String)
  | recordDropped (line : Int) (message : String)
  | emptyProgram
  | executing (line : Int)
  | lineSkipped (line : Int) (errorCount : Nat)
  | lineFailed (line : Int) (why : Fault)
  /-- An entry of a statement list that is no statement, as it is shown. -/
  | entrySkipped (line : Int) (shown : String)
  | programLoaded (lineCount : Nat)
  | loadingFile (path : String)
  | settingIgnored (setting value : String)
deriving DecidableEq, Repr

namespace Event

def level : Event → Level
  | recordDropped .. | lineSkipped .. | settingIgnored .. => .warning
  | lineFailed .. => .error
  | _ => .debug

/-- The part of the program that an event comes from. -/
def source : Event → String
  | readWithoutWorld _ | writeWithoutWorld _ => "yolol_vm.variables"
  | deviceAdded .. | fieldConflict .. => "yolol_vm.fields"
  | halting _ => "yolol_vm.evaluator"
  | jump .. => "yolol_vm.executor"
  | recordDropped .. => "yolol_vm.diagnostics"
  | emptyProgram | executing _ | lineSkipped .. | lineFailed .. => "yolol_vm.vm"
  | entrySkipped .. | programLoaded _ | loadingFile _ => "yolol_vm.loader"
  | settingIgnored .. => "yolol_vm.config"

def message : Event → String
  | readWithoutWorld name => s!"No field accessor bound, '{name}' reads as 0"
  | writeWithoutWorld name => s!"No field accessor bound, write to '{name}' dropped"
  | deviceAdded device network fieldCount =>
    s!"Added device '{device}' on network '{network}' with {fieldCount} fields"
  | fieldConflict field valueCount network =>
    s!"Field '{field}' has {valueCount} conflicting values on network '{network}'"
  | halting why => "Halting line: " ++ why.message
  | jump _ text => "goto " ++ text
  | recordDropped line message => s!"Line {line}: error limit reached, dropping '{message}'"
  | emptyProgram => "step() on an empty program"
  | executing line => s!"Executing line {line}"
  | lineSkipped line errorCount => s!"Line {line}: skipped, {errorCount} syntax errors"
  | lineFailed line _ => s!"Line {line}: internal failure"
  | entrySkipped line shown => s!"Line {line}: skipping non-statement entry {shown}"
  | programLoaded lineCount => s!"Loaded program with {lineCount} lines"
  | loadingFile path => s!"Loading program from {path}"
  | settingIgnored setting value => s!"Ignoring invalid {setting}=" ++ Text.quoted value

/-- The mistake of the script that an event reports. -/
def report? : Event → Option ScriptError
  | halting why => some why
  | _ => none

def fault? : Event → Option Fault
  | lineFailed _ why => some why
  | _ => none

/-- An event as it stands in a log: a line, and the fault that it tells of below it. -/
def logText (e : Event) : String :=
  "\n".intercalate
    ((s!"{e.level.name} {e.source}: " ++ e.message) :: e.fault?.toList.map Fault.message)

end Event

/-- Events in the order in which they happened. -/
abbrev Trace := List Event

def Trace.atLeast (level : Level) (trace : Trace) : Trace :=
  trace.filter fun e => level.rank ≤ e.level.rank

end ChipScript
