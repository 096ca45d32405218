import ChipScript.Number.Numeral

/-!
# Numbers in decimal

A positive double is `u` units for some `u`, so its decimal digits come from whole numbers alone.

* `roundedDigits n u` — the value rounded to `n` significant digits, ties to even;
* `shortestDigits u` — the fewest digits that read back as the same double, and of those the
  nearest.

Both give a row of digits with the power of ten of the first one (`Digits`). A `Layout` says how
such a row is written: where positional notation ends and whether a whole number keeps its point.
-/

namespace ChipScript

/-- A row of significant digits, as a number, and the power of ten of the first of them. -/
structure Digits where
  digits : Nat
  exponent : Int

namespace Decimal

def size (n : Nat) : Nat := (Nat.toDigits 10 n).length

/-- The exponent `e` with `10 ^ e ≤ p / q < 10 ^ (e + 1)`, for positive `p` and `q`. -/
def leadingExponent (p q : Nat) : Int :=
  if q ≤ p then (size (p / q) : Int) - 1 else -(size ((q - 1) / p) : Int)

/-- `p / q` times `10 ^ e` as a quotient of whole numbers. -/
def scale (p q : Nat) (e : Int) : Nat × Nat :=
  if 0 ≤ e then (p * Binary64.pow10 e.toNat, q) else (p, q * Binary64.pow10 (-e).toNat)

/-- A value of `u` units rounded to `n` significant digits. -/
def roundedDigits (n u : Nat) : Digits :=
  let e := leadingExponent u Binary64.one
  let (p, q) := scale u Binary64.one (n - 1 - e)
  let d := Binary64.roundDiv p q
  if d = Binary64.pow10 n then ⟨Binary64.pow10 (n - 1), e + 1⟩ else ⟨d, e⟩

/-- The pattern of the double nearest to `d * 10 ^ e`. -/
def readBack (d : Nat) (e : Int) : Nat :=
  let (p, q) := scale (d * Binary64.one) 1 e
  Binary64.nearestBits p q

/-- The row of `n` digits that reads back as the double of pattern `bits`, if there is one: of the
two rows around the value the nearer one is tried first. -/
def exactDigits? (n bits : Nat) : Option Digits :=
  let u := Binary64.units bits
  let e := leadingExponent u Binary64.one
  let (p, q) := scale u Binary64.one (n - 1 - e)
  let near := Binary64.roundDiv p q
  let far := if near = p / q then p / q + 1 else p / q
  ([near, far].find? fun d => readBack d (e - (n - 1)) = bits).map fun d =>
    if d = Binary64.pow10 n then ⟨Binary64.pow10 (n - 1), e + 1⟩ else ⟨d, e⟩

/-- The fewest digits that read back as the double of pattern `bits`; seventeen always do. -/
def shortestDigits (bits : Nat) : Digits :=
  ((List.range' 1 16).findSome? (exactDigits? · bits)).getD (roundedDigits 17 (Binary64.units bits))

/-! ### Writing -/

/-- How a row of digits is written. Positional notation is used for exponents from -4 up to but not
including `positionalEnd`; with `keepPoint` a whole number written so ends in `.0`. -/
structure Layout where
  positionalEnd : Int
  keepPoint : Bool

/-- Drops the zeros at the end of a row of digits. -/
def dropTrailingZeros (ds : List Char) : List Char :=
  (ds.reverse.dropWhile (· = '0')).reverse

/-- A row of digits with a point before it, nothing for the empty row. -/
def pointed (ds : List Char) : List Char :=
  if ds.isEmpty then [] else '.' :: ds

/-- The exponent with its sign and at least two digits. -/
def exponentPart (e : Int) : List Char :=
  let ds := Nat.toDigits 10 e.natAbs
  'e' :: (if e < 0 then '-' else '+') :: (if ds.length < 2 then '0' :: ds else ds)

/-- Writes a row of digits, without trailing zeros. -/
def Layout.write (layout : Layout) (row : Digits) : List Char :=
  let ds := dropTrailingZeros (Nat.toDigits 10 row.digits)
  if -4 ≤ row.exponent ∧ row.exponent < layout.positionalEnd then
    if row.exponent < 0 then
      '0' :: '.' :: List.replicate (-row.exponent - 1).toNat '0' ++ ds
    else
      let n := row.exponent.toNat + 1
      let fraction := ds.drop n
      ds.take n ++ List.replicate (n - ds.length) '0' ++
        (if fraction.isEmpty && layout.keepPoint then ['.', '0'] else pointed fraction)
  else
    ds.take 1 ++ pointed (ds.drop 1) ++ exponentPart row.exponent

def signed (negative : Bool) (cs : List Char) : List Char :=
  if negative then '-' :: cs else cs

/-- Writes a double, given how the digits of a positive finite one are chosen and laid out. -/
def write (finite : Nat → List Char) (x : Float) : String :=
  let bits := Binary64.magnitude x
  if Binary64.infinityBits < bits then "nan"
  else String.ofList <| signed (Binary64.isNegative x) <|
    if bits = Binary64.infinityBits then "inf".toList else finite bits

/-- The text of a double that reads back as the same double: the fewest digits, positional below
`10 ^ 16`. -/
def shortest : Float → String :=
  write fun bits =>
    if bits = 0 then "0.0".toList else Layout.write ⟨16, true⟩ (shortestDigits bits)

example : shortest (Float.ofBits 0x3fb999999999999a) = "0.1" := by decide +kernel
example : shortest (Float.ofBits 0x4341c37937e08000) = "1e+16" := by decide +kernel
example : shortest (Float.ofBits 0x4330000000000000) = "4503599627370496.0" := by decide +kernel
example : shortest (Float.ofBits 1) = "5e-324" := by decide +kernel
example : shortest (Float.ofBits 0x8000000000000000) = "-0.0" := by decide +kernel

end Decimal

namespace Number

/-- The text of a double inside a script: a whole one has all its digits and `.0`, any other up to
fourteen significant digits. -/
def floatText : Float → String :=
  Decimal.write fun bits =>
    let u := Binary64.units bits
    if u % Binary64.one = 0 then Nat.toDigits 10 (u / Binary64.one) ++ ['.', '0']
    else Decimal.Layout.write ⟨14, false⟩ (Decimal.roundedDigits 14 u)

/-- Writes a number inside a script, an integer plainly. -/
def write (a : Number) : Except ArithmeticError String :=
  match a.normalize with
  | int n => Numeral.write n
  | float x => .ok (floatText x)

/-- The text that `Number.write` gives. No integer that is left after normalising is too long for
it. -/
def toText (a : Number) : String :=
  match a.normalize with
  | int n => toString n
  | float x => floatText x

example : (int 42).toText = "42" := by decide +kernel
example : (float (Binary64.ofInt (-3))).toText = "-3.0" := by decide +kernel
example : (float (Float.ofBits 0x3fd5555555555555)).toText = "0.33333333333333" := by decide +kernel
example : (float (Float.ofBits 0x3eb0c6f7a0b5ed8d)).toText = "1e-06" := by decide +kernel

end Number

end ChipScript
