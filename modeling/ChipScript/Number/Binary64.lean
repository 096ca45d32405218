/-!
# Binary64 numbers, exactly

The doubles that scripts compute with are read as what they are: multiples of the smallest positive
double, `2 ^ -1074`, called the *unit*. Every finite double is a whole number of units, so that
comparing and printing doubles is arithmetic on integers.

* `units` gives the magnitude of a bit pattern in units, `exact` the value of a double.
* `nearestBits p q` is the bit pattern of the double nearest to `p / q` units, an exact tie going to
  the even pattern and what lies beyond the largest double to infinity. Reading a numeral,
  converting an integer and dividing two integers all round with it, and nothing else does.

The patterns of the positive doubles increase with their values: a carry out of the fraction falls
into the exponent. `nearestBits` relies on that, adding the exponent and the rounded significand.
-/

namespace ChipScript.Binary64

def pow2 (n : Nat) : Nat := Nat.pow 2 n

def pow10 (n : Nat) : Nat := Nat.pow 10 n

/-- The unit is `2 ^ -unitShift`. -/
def unitShift : Nat := 1074

/-- One, in units. -/
def one : Nat := pow2 unitShift

/-- Bits below the exponent: a fraction is less than this. -/
def fractionSize : Nat := pow2 52

/-- The pattern of infinity; the patterns below it belong to the finite doubles. -/
def infinityBits : Nat := 2047 * fractionSize

/-- The place of the sign bit. -/
def signBit : Nat := pow2 63

/-! ### From bits to values -/

/-- The magnitude, in units, of the finite double with pattern `bits`. Without an exponent the
pattern is the value; otherwise a leading one stands before the fraction. -/
def units (bits : Nat) : Nat :=
  if bits < fractionSize then bits
  else (fractionSize + bits % fractionSize) * pow2 (bits / fractionSize - 1)

/-- The pattern of a double without its sign. -/
def magnitude (x : Float) : Nat :=
  x.toBits.toNat % signBit

def isNegative (x : Float) : Bool :=
  signBit ≤ x.toBits.toNat

/-- The value of a number: nothing, an infinity, or a whole number of units. -/
inductive Exact where
  | nan
  | negInfinity
  | finite (units : Int)
  | infinity
deriving DecidableEq, Repr

def exact (x : Float) : Exact :=
  if magnitude x < infinityBits then
    .finite (if isNegative x then -(units (magnitude x) : Int) else units (magnitude x))
  else if magnitude x = infinityBits then
    if isNegative x then .negInfinity else .infinity
  else .nan

/-- How two values compare; a NaN compares with nothing. -/
def Exact.compare? : Exact → Exact → Option Ordering
  | .nan, _ => none
  | _, .nan => none
  | .negInfinity, .negInfinity => some .eq
  | .negInfinity, _ => some .lt
  | _, .negInfinity => some .gt
  | .infinity, .infinity => some .eq
  | .infinity, _ => some .gt
  | _, .infinity => some .lt
  | .finite a, .finite b => some (compare a b)

/-! ### From values to bits -/

/-- The quotient `p / q` rounded to the nearest integer, a tie going to the even one. -/
def roundDiv (p q : Nat) : Nat :=
  if 2 * (p % q) < q ∨ (2 * (p % q) = q ∧ p / q % 2 = 0) then p / q else p / q + 1

/-- The pattern of the double nearest to `p / q` units. -/
def nearestBits (p q : Nat) : Nat :=
  let exponent := (p / q).log2 - 52
  min (exponent * fractionSize + roundDiv p (q * pow2 exponent)) infinityBits

def ofMagnitude (negative : Bool) (bits : Nat) : Float :=
  Float.ofBits (UInt64.ofNat (if negative then signBit + bits else bits))

/-- The double nearest to a whole number of units. -/
def ofUnits (u : Int) : Float :=
  ofMagnitude (u < 0) (nearestBits u.natAbs 1)

/-- The double nearest to an integer; infinite where the largest double is too small. -/
def ofInt (n : Int) : Float :=
  ofUnits (n * one)

/-- The double nearest to the quotient of two integers, whose divisor is not zero. -/
def ofQuotient (m n : Int) : Float :=
  ofMagnitude (decide (m < 0) != decide (n < 0)) (nearestBits (m.natAbs * one) n.natAbs)

def nan : Float := Float.ofBits 0x7ff8000000000000

def infinity (negative : Bool) : Float :=
  ofMagnitude negative infinityBits

def zero (negative : Bool) : Float :=
  ofMagnitude negative 0

/-- The double nearest to `m * 10 ^ e`, with a sign. A power of ten that is far out of range either
way is not computed. -/
def ofDecimal (negative : Bool) (m : Nat) (e : Int) : Float :=
  let size : Int := (Nat.toDigits 10 m).length
  if m = 0 ∨ size + e < -400 then zero negative
  else if 400 < size + e then infinity negative
  else if 0 ≤ e then ofMagnitude negative (nearestBits (m * pow10 e.toNat * one) 1)
  else ofMagnitude negative (nearestBits (m * one) (pow10 (-e).toNat))

end ChipScript.Binary64
