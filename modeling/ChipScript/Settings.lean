import ChipScript.Event
import ChipScript.Number.Numeral
import ChipScript.Text.LowerCase

/-!
# Settings

The limits of a chip and the level from which events are logged. The environment may change each of
them; a text that is no whole number is ignored with a warning, an unknown level without one.
-/

namespace ChipScript

structure Settings where
  /-- The most lines of a program, and the last line that a goto leads to. -/
  lineLimit : Int := 20
  /-- The most records that are kept for a line. -/
  maxErrorsPerLine : Int := 16
  logLevel : Level := .warning
deriving DecidableEq, Repr

namespace Settings

/-- The text of an environment variable, unless it is empty. -/
def lookup (environment : String → Option String) (name : String) : Option String :=
  (environment name).filter fun s => !s.isEmpty

/-- A whole number from the environment, or the value to keep and a warning. -/
def wholeNumber (environment : String → Option String) (name : String) (default : Int) :
    Int × Trace :=
  match lookup environment name with
  | none => (default, [])
  | some s =>
    match Numeral.whole? s with
    | some n => (n, [])
    | none => (default, [.settingIgnored name s])

/-- The level that a text names in any case. -/
def levelOf? (s : String) : Option Level :=
  Level.ofName? (String.ofList (s.toList.map Text.asciiCapital))

/-- The settings of an environment, and what is told of it. -/
def ofEnvironment (environment : String → Option String) : Settings × Trace :=
  let defaults : Settings := {}
  let (lineLimit, trace) := wholeNumber environment "YOLOL_VM_LINE_LIMIT" defaults.lineLimit
  let (maxErrorsPerLine, trace') :=
    wholeNumber environment "YOLOL_VM_MAX_ERRORS" defaults.maxErrorsPerLine
  let logLevel := ((lookup environment "YOLOL_VM_LOG_LEVEL").bind levelOf?).getD defaults.logLevel
  ({ lineLimit, maxErrorsPerLine, logLevel }, trace ++ trace')

end Settings

end ChipScript
