import ChipScript.Text.Quoted

/-!
# What can go wrong

Three kinds of trouble are kept apart.

* A `ScriptError` is a mistake of the script's author. It halts the line and is recorded for it.
* A `Fault` means that the chip was handed something it cannot execute, was wired to a device that
  does not exist, or asked its arithmetic for what has no result (`ArithmeticError`). It ends the
  line too, with one record that says no more than that.
* A `FormatError` refuses a program before it runs.

Each has a `message`, the only place where its wording stands.
-/

namespace ChipScript

/-- A mistake of the script's author. -/
inductive ScriptError where
  | divisionByZero
  | moduloByZero
  | textArithmetic
  | mixedComparison
  | ambiguousField (key : String)
  | invalidGoto
deriving DecidableEq, Repr

def ScriptError.message : ScriptError → String
  | divisionByZero => "Attempted division by zero."
  | moduloByZero => "Attempted modulo by zero."
  | textArithmetic => "Attempted arithmetic on a string value."
  | mixedComparison => "Attempted to compare a number with a string."
  | ambiguousField key => s!"Found multiple different values for the name data field '{key}'"
  | invalidGoto => "attempt to goto a invalid line, it was not a number."

/-- A node of the program that the chip does not know how to execute. -/
inductive InternalError where
  | badLiteral (text : String)
  | operatorOutsideGroup (operator group : String)
  | unknownOperator (operator : String)
  | unknownKeyword (keyword : String)
  | unknownIncrement (operator : String)
  | unsupportedAssignment (operator : String)
  | notAnExpression (kind : String)
  | notAStatement (kind : String)
deriving DecidableEq, Repr

/-- The wording of an internal error, without the words that announce it as one. -/
def InternalError.detail : InternalError → String
  | badLiteral text => "invalid number literal " ++ Text.quoted text
  | operatorOutsideGroup operator group =>
    s!"invalid operator {operator} from {group} type for binary math handling in eval"
  | unknownOperator operator => s!"invalid operator {operator} for binary math handling in eval"
  | unknownKeyword keyword =>
    s!"invalid keyword {keyword} for keyword handling in eval, expected a valid keyword"
  | unknownIncrement operator =>
    s!"invalid operator {operator} for unary_add handling in eval, expected a valid operator"
  | unsupportedAssignment operator => s!"assign operator {operator} is not supported yet."
  | notAnExpression kind => s!"invalid expression type {kind}, expected a valid expression"
  | notAStatement kind => s!"unknown ast type for statement {kind}"

def InternalError.announce (detail : String) : String :=
  "internal VM error: " ++ detail

/-- A device that the world does not know, or another complaint about a device. -/
structure DeviceError where
  device : String
  detail : String := ""
deriving DecidableEq, Repr

def DeviceError.message (e : DeviceError) : String :=
  if e.detail.isEmpty then s!"unknown device '{e.device}'" else e.detail

/-- An operation of arithmetic that has no result. Division and its remainder are refused in other
words for two integers than for doubles. -/
inductive ArithmeticError where
  | integerTooLarge
  | quotientTooLarge
  | quotientByZero (ofIntegers : Bool)
  | remainderByZero (ofIntegers : Bool)
  | floorOfInfinity
  | floorOfNaN
  /-- An integer with more than `limit` digits was to be written. -/
  | tooManyDigits (limit : Nat)
deriving DecidableEq, Repr

def ArithmeticError.message : ArithmeticError → String
  | integerTooLarge => "int too large to convert to float"
  | quotientTooLarge => "integer division result too large for a float"
  | quotientByZero ofIntegers => if ofIntegers then "division by zero" else "float division by zero"
  | remainderByZero ofIntegers => if ofIntegers then "integer modulo by zero" else "float modulo"
  | floorOfInfinity => "cannot convert float infinity to integer"
  | floorOfNaN => "cannot convert float NaN to integer"
  | tooManyDigits limit =>
    s!"Exceeds the limit ({limit} digits) for integer string conversion; " ++
      "use sys.set_int_max_str_digits() to increase the limit"

/-- Trouble that ends a line without being the script's mistake. -/
inductive Fault where
  | internal (e : InternalError)
  | device (e : DeviceError)
  | arithmetic (e : ArithmeticError)
deriving DecidableEq, Repr

def Fault.message : Fault → String
  | internal e => InternalError.announce e.detail
  | device e => e.message
  | arithmetic e => e.message

/-- A line number that a program does not have. -/
inductive LineError where
  /-- The number lies outside a program of `count` lines. -/
  | outOfRange (line : Int) (count : Nat)
  /-- The program has no lines to go on to. -/
  | noLines
deriving DecidableEq, Repr

def LineError.message : LineError → String
  | outOfRange line count => s!"line {line} out of range 1..{count}"
  | noLines => (ArithmeticError.remainderByZero true).message

/-- A malformed program, with the line and the place inside the line where it is known. -/
structure FormatError where
  detail : String
  line : Option Int := none
  path : Option String := none
deriving DecidableEq, Repr

/-- The place and the wording of a format error. -/
def FormatError.message (e : FormatError) : String :=
  let line := e.line.toList.map fun n => s!"line {n}"
  let path := e.path.toList.filter fun p => !p.isEmpty
  ": ".intercalate (line ++ path ++ [s!"error: {e.detail}"])

end ChipScript
