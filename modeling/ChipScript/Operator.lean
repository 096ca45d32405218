import ChipScript.Run
import ChipScript.Value

/-!
# Binary operators

The twelve operators on values. A sum with a text joins texts; equality and its negation compare
without coercion; the four orderings compare two numbers by value or two texts by their characters
and refuse a mixed pair; all other arithmetic takes texts that hold numerals as numbers. The only
mistakes are a mixed comparison, a text that is no number, and a zero divisor, in this order.

Arithmetic may fail besides, where the operation on numbers has no result.
-/

namespace ChipScript

inductive Operator where
  | power | times | divide | modulo | plus | minus
  | equal | unequal | greater | atLeast | less | atMost
deriving DecidableEq, Repr

namespace Operator

def table : List (String × Operator) :=
  [("^", power), ("*", times), ("/", divide), ("%", modulo), ("+", plus), ("-", minus),
    ("==", equal), ("!=", unequal), (">", greater), (">=", atLeast), ("<", less), ("<=", atMost)]

def ofSymbol? (symbol : String) : Option Operator :=
  table.lookup symbol

/-- The operator that a compound assignment applies. -/
def ofCompound? (symbol : String) : Option Operator :=
  [("+=", plus), ("-=", minus), ("*=", times), ("/=", divide), ("%=", modulo)].lookup symbol

/-- How two values of the same kind compare; a NaN compares with nothing. -/
def order : Value → Value → Ending (Option Ordering)
  | .num a, .num b => .done (a.compare? b)
  | .text s, .text t => .done (some (compare s t))
  | _, _ => .halted .mixedComparison

/-- Whether two values stand in one of some orders, as a value. -/
def inOrder (orders : List Ordering) (a b : Value) : Ending Value := do
  return .ofBool ((← order a b).any orders.contains)

def onNumbers (op : Number → Number → Ending Number) (a b : Value) : Ending Value := do
  let x ← a.number
  let y ← b.number
  return .num (← op x y)

/-- An operation that every two numbers are given to. -/
def unguarded (op : Number → Number → Except ArithmeticError Number) (x y : Number) :
    Ending Number :=
  .ofArithmetic (op x y)

/-- An operation that no second operand of zero is given to. -/
def guarded (why : ScriptError) (op : Number → Number → Except ArithmeticError Number)
    (x y : Number) : Ending Number :=
  if y.isZero then .halted why else .ofArithmetic (op x y)

def join (a b : Value) : Ending Value := do
  return .text ((← .ofArithmetic a.write) ++ (← .ofArithmetic b.write))

def apply : Operator → Value → Value → Ending Value
  | power, a, b => onNumbers (unguarded Number.power) a b
  | times, a, b => onNumbers (unguarded Number.mul) a b
  | divide, a, b => onNumbers (guarded .divisionByZero Number.div) a b
  | modulo, a, b => onNumbers (guarded .moduloByZero Number.mod) a b
  | plus, a, b =>
    if a.isText || b.isText then join a b else onNumbers (unguarded Number.add) a b
  | minus, a, b => onNumbers (unguarded Number.sub) a b
  | equal, a, b => .done (.ofBool (a.equal b))
  | unequal, a, b => .done (.ofBool (!a.equal b))
  | greater, a, b => inOrder [.gt] a b
  | atLeast, a, b => inOrder [.gt, .eq] a b
  | less, a, b => inOrder [.lt] a b
  | atMost, a, b => inOrder [.lt, .eq] a b

/-- Applies the operator with a given symbol. A symbol that means nothing is a fault, but operands
that are no numbers are a mistake of the script first. -/
def applySymbol {σ : Type} (symbol : String) (a b : Value) : Action σ Value :=
  match ofSymbol? symbol with
  | some op => .ofEnding (op.apply a b)
  | none => do
    let _ ← .ofEnding a.number
    let _ ← .ofEnding b.number
    .reject (.unknownOperator symbol)

end Operator

end ChipScript
