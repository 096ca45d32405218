import ChipScript.Run
import ChipScript.Number.Arithmetic
import ChipScript.Number.Numeral
import ChipScript.Number.Decimal

/-!
# Values

A value is a number or a text. Texts that hold a numeral count as numbers in arithmetic
(`Value.toNumber?`), numbers become texts when they are joined to one (`Value.write`), and equality
coerces neither way (`Value.equal`).

A text is a row of characters. One half of a surrogate pair is no character: a text that is given
with such a half in it is not among the texts here, and whatever is said of all texts is said of
texts without them.
-/

namespace ChipScript

/-- What variables and fields hold. -/
inductive Value where
  | num (a : Number)
  | text (s : String)
deriving DecidableEq, Repr

namespace Value

def int (n : Int) : Value :=
  num (.int n)

/-- One for true, zero for false. -/
def ofBool (b : Bool) : Value :=
  int (if b then 1 else 0)

def isText : Value → Bool
  | num _ => false
  | text _ => true

/-- The number that a value stands for in arithmetic. -/
def toNumber? : Value → Option Number
  | num a => some a.normalize
  | text s => Number.ofText? s

/-- The number that a value stands for, which it must. -/
def number (v : Value) : Ending Number :=
  match v.toNumber? with
  | some a => .done a
  | none => .halted .textArithmetic

/-- Writes a value when it is joined to another. -/
def write : Value → Except ArithmeticError String
  | num a => a.write
  | text s => .ok s

/-- The text that `Value.write` gives. -/
def toText : Value → String
  | num a => a.toText
  | text s => s

/-- Equality without coercion: a number never equals a text. -/
def equal : Value → Value → Bool
  | num a, num b => a.equal b
  | text s, text t => s = t
  | _, _ => false

/-- The value counts as false in a condition. -/
def isFalse (v : Value) : Bool :=
  v.equal (int 0)

/-- The value within quotation marks if it is a text; the form in which states are shown. -/
def shown : Value → String
  | num a => a.toText
  | text s => "\"" ++ s ++ "\""

end Value

end ChipScript
