import ChipScript.Fault
import ChipScript.Number.Binary64

/-!
# Numbers

A script knows one kind of number. It is carried as an integer where it came from a whole literal
and as a double once a division, a power or a mathematical keyword has produced one; the two never
differ to a script except in how they print.

* `Number.compare?` compares by exact value, whatever the carriers and however large the integer.
* `Number.normalize` carries an integer outside `±2 ^ 53` as the nearest double, so that repeated
  multiplication ends at infinity.
* `Number.toFloat` and `Number.floor` have a result for some numbers only, and fail for the others.
-/

namespace ChipScript

/-- A number: an integer or a double. -/
inductive Number where
  | int (n : Int)
  | float (x : Float)
deriving DecidableEq, Repr

namespace Number

/-- The largest magnitude that an integer keeps before it is carried as a double, `2 ^ 53`. -/
def maxExact : Int := 9007199254740992

def exact : Number → Binary64.Exact
  | int n => .finite (n * Binary64.one)
  | float x => Binary64.exact x

/-- How two numbers compare; a NaN compares with nothing. -/
def compare? (a b : Number) : Option Ordering :=
  a.exact.compare? b.exact

def equal (a b : Number) : Bool :=
  a.compare? b = some .eq

def isZero (a : Number) : Bool :=
  a.equal (int 0)

def isNaN (a : Number) : Bool :=
  a.exact = .nan

def isFinite (a : Number) : Bool :=
  match a.exact with
  | .finite _ => true
  | _ => false

/-- The nearest double; an integer that is beyond them all has none. -/
def toFloat : Number → Except ArithmeticError Float
  | int n =>
    let x := Binary64.ofInt n
    if Binary64.magnitude x = Binary64.infinityBits then .error .integerTooLarge else .ok x
  | float x => .ok x

/-- The largest integer that is not above the number. -/
def floor (a : Number) : Except ArithmeticError Int :=
  match a.exact with
  | .finite u => .ok (u / Binary64.one)
  | .infinity | .negInfinity => .error .floorOfInfinity
  | .nan => .error .floorOfNaN

/-- Carries an integer outside `±maxExact` as the nearest double. -/
def normalize : Number → Number
  | int n => if -maxExact ≤ n ∧ n ≤ maxExact then int n else float (Binary64.ofInt n)
  | float x => float x

end Number

end ChipScript
