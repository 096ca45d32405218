import ChipScript.Number.Basic

/-!
# Arithmetic

Sums, differences and products of integers are exact and then normalised; as soon as a double takes
part, both sides are doubles (`Number.combine`). Quotients and powers are always doubles. The
remainder has the sign of the divisor.

All of these fail where they have no result: for a divisor that is zero, and for an integer that
would have to be a double and is too large for one. The mathematical keywords never fail: outside
its domain a function gives NaN, and an integer that no double can hold gives infinity.
-/

namespace ChipScript

namespace Binary64

/-- The remainder of doubles, with the sign of the divisor: the exact remainder of the truncated
quotient, moved up by the divisor if its sign is the other one. -/
def mod (x y : Float) : Float :=
  let towards (u : Int) (r : Float) :=
    if u = 0 then zero (isNegative y) else if decide (u < 0) = isNegative y then r else r + y
  match exact x, exact y with
  | .finite u, .finite v => towards (u.tmod v) (ofUnits (u.tmod v))
  | .finite u, .infinity => towards u x
  | .finite u, .negInfinity => towards u x
  | _, _ => nan

end Binary64

namespace Number

/-- An operation that works on integers in one way, and on doubles in another as soon as a double
takes part. -/
def combine (onIntegers : Int → Int → Except ArithmeticError Number)
    (onDoubles : Float → Float → Except ArithmeticError Number) :
    Number → Number → Except ArithmeticError Number
  | int m, int n => onIntegers m n
  | a, b => do onDoubles (← a.toFloat) (← b.toFloat)

def add : Number → Number → Except ArithmeticError Number :=
  combine (fun m n => .ok (int (m + n)).normalize) fun x y => .ok (float (x + y))

def sub : Number → Number → Except ArithmeticError Number :=
  combine (fun m n => .ok (int (m - n)).normalize) fun x y => .ok (float (x - y))

def mul : Number → Number → Except ArithmeticError Number :=
  combine (fun m n => .ok (int (m * n)).normalize) fun x y => .ok (float (x * y))

/-- Quotient: of two integers the double nearest to the exact one. -/
def div : Number → Number → Except ArithmeticError Number :=
  combine
    (fun m n =>
      if n = 0 then .error (.quotientByZero true)
      else
        let x := Binary64.ofQuotient m n
        if Binary64.magnitude x = Binary64.infinityBits then .error .quotientTooLarge
        else .ok (float x))
    fun x y =>
      if (float y).isZero then .error (.quotientByZero false) else .ok (float (x / y))

/-- Remainder with the sign of the divisor. -/
def mod : Number → Number → Except ArithmeticError Number :=
  combine
    (fun m n => if n = 0 then .error (.remainderByZero true) else .ok (int (m.fmod n)))
    fun x y =>
      if (float y).isZero then .error (.remainderByZero false) else .ok (float (Binary64.mod x y))

/-- Power of doubles. Zero to a negative power is positive infinity. -/
def floatPower (base exponent : Float) : Float :=
  if base == 0 && exponent < 0 then Binary64.infinity false else base.pow exponent

def power (base exponent : Number) : Except ArithmeticError Number := do
  let x ← base.toFloat
  let y ← exponent.toFloat
  return float (floatPower x y)

end Number

inductive MathKeyword where
  | abs | cos | sin | tan | acos | asin | atan | sqrt
deriving DecidableEq, Repr

namespace MathKeyword

def table : List (String × MathKeyword) :=
  [("abs", abs), ("cos", cos), ("sin", sin), ("tan", tan), ("acos", acos), ("asin", asin),
    ("atan", atan), ("sqrt", sqrt)]

def ofName? (name : String) : Option MathKeyword :=
  table.lookup name

/-- The function of doubles that a keyword stands for. -/
def onFloat : MathKeyword → Float → Float
  | abs => Float.abs
  | cos => Float.cos
  | sin => Float.sin
  | tan => Float.tan
  | acos => Float.acos
  | asin => Float.asin
  | atan => Float.atan
  | sqrt => Float.sqrt

/-- Applies a keyword. The absolute value of an integer is an integer. -/
def apply : MathKeyword → Number → Number
  | abs, .int n => .int n.natAbs
  | keyword, a =>
    match a.toFloat with
    | .ok x => .float (keyword.onFloat x)
    | .error _ => .float (Binary64.infinity false)

end MathKeyword

end ChipScript
