import Std.Data.ExtTreeMap
import ChipScript.Event

/-!
# The error log

Records are kept line by line. A line holds no more than a fixed number of them, later ones being
dropped, and loses them all when it is reset before it runs again. So the log always describes the
last execution of each line.

A line that was reset stays in the log without records. Readers leave it out or find nothing there.
-/

namespace ChipScript

/-- How serious a record is. -/
inductive Severity where
  | error | warning | info
deriving DecidableEq, Repr

namespace Severity

def word : Severity → String
  | error => "error"
  | warning => "warning"
  | info => "info"

def ofWord? (s : String) : Option Severity :=
  [error, warning, info].find? (·.word = s)

end Severity

/-- A record about a line, with a column if one is known. -/
structure Record where
  severity : Severity
  message : String
  position : Option Int := none
deriving DecidableEq, Repr

def Record.ofMistake (why : ScriptError) : Record where
  severity := .error
  message := why.message

def Record.text (r : Record) : String :=
  match r.position with
  | some n => s!"{n}: {r.severity.word}: {r.message}"
  | none => s!"{r.severity.word}: {r.message}"

/-- Records by line. -/
structure ErrorLog where
  maxPerLine : Int := 16
  lines : Std.ExtTreeMap Int (List Record) := ∅

namespace ErrorLog

def get (log : ErrorLog) (line : Int) : List Record :=
  log.lines.getD line []

def reset (log : ErrorLog) (line : Int) : ErrorLog :=
  { log with lines := log.lines.insert line [] }

/-- A reset empties its line and changes no other. -/
theorem get_reset (log : ErrorLog) (line other : Int) :
    (log.reset line).get other = if line = other then [] else log.get other := by
  by_cases h : line = other <;> simp [reset, get, Std.ExtTreeMap.getD_insert, h]

def isFull (log : ErrorLog) (line : Int) : Bool :=
  log.maxPerLine ≤ (log.get line).length

def push (log : ErrorLog) (line : Int) (r : Record) : ErrorLog :=
  let records := log.get line
  let kept := if log.isFull line then records else records ++ [r]
  { log with lines := log.lines.insert line kept }

/-- Whether a push to a line stores its record. This is what the push answers. -/
def stores (log : ErrorLog) (line : Int) : Bool :=
  !log.isFull line

/-- A push adds the record to its line, unless the line is full, and changes no other line. -/
theorem get_push (log : ErrorLog) (line other : Int) (r : Record) :
    (log.push line r).get other =
      if line = other ∧ log.isFull line = false then log.get line ++ [r] else log.get other := by
  by_cases h : line = other
  · subst h
    cases hfull : log.isFull line <;> simp [push, hfull, get]
  · simp [push, get, h, Std.ExtTreeMap.getD_insert]

/-- What is told of a push: nothing, or that the record was dropped. -/
def pushTrace (log : ErrorLog) (line : Int) (r : Record) : Trace :=
  if log.isFull line then [.recordDropped line r.message] else []

/-- What becomes of a log while a line tells events: each mistake that is reported is pushed as a
record at once, and what is told of the push follows the report. -/
def hear (log : ErrorLog) (line : Int) : Trace → ErrorLog × Trace
  | [] => (log, [])
  | e :: rest =>
    match e.report? with
    | none =>
      let heard := log.hear line rest
      (heard.1, e :: heard.2)
    | some why =>
      let r := Record.ofMistake why
      let heard := (log.push line r).hear line rest
      (heard.1, e :: log.pushTrace line r ++ heard.2)

def clear (log : ErrorLog) : ErrorLog :=
  { log with lines := ∅ }

@[simp] theorem get_clear (log : ErrorLog) (line : Int) : log.clear.get line = [] := by
  simp [clear, get]

/-- The lines that hold records, in increasing order, each with its records. -/
def items (log : ErrorLog) : List (Int × List Record) :=
  log.lines.toList.filter fun item => !item.2.isEmpty

def hasErrors (log : ErrorLog) : Bool :=
  log.lines.toList.any fun item => item.2.any (·.severity = .error)

def count (log : ErrorLog) : Nat :=
  (log.lines.toList.flatMap Prod.snd).length

/-- All records, one to a line of text, and their number. -/
def report (log : ErrorLog) : String :=
  let rows := log.items.flatMap fun item => item.2.map fun r => s!"line {item.1}: " ++ r.text
  let gap := if rows.isEmpty then [] else [""]
  let total := s!"{log.count} " ++ (if log.count = 1 then "error" else "errors")
  "\n".intercalate (rows ++ gap ++ [total])

end ErrorLog

end ChipScript
