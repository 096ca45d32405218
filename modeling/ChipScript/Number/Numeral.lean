import ChipScript.Number.Basic
import ChipScript.Text.Blank
import ChipScript.Text.Digit

/-!
# Numerals: numbers as they are written

A numeral may stand between blanks, its digits may come from any script, and single underscores may
divide its digits. `plain?` undoes all three and leaves ASCII characters; the two grammars then
read what is left:

* `whole?` — an optional sign and digits, at most `maxDigits` of them;
* `decimal?` — an optional sign and either digits with an optional point and an optional exponent,
  or one of the words for infinity and NaN in any case.

An integer is written with a minus or without a sign, if it has at most `maxDigits` digits
(`Numeral.write`).
-/

namespace ChipScript.Numeral

open Text

/-- The most digits that a whole numeral may have, whether it is read or written. -/
def maxDigits : Nat := 4300

/-- A character as ASCII: blanks beyond ASCII become spaces and digits of other scripts become the
digits `0` to `9`. -/
def toAscii (c : Char) : Char :=
  if c.toNat < 128 then c
  else if isBlank c then ' '
  else match digitValue? c with
    | some d => Nat.digitChar d
    | none => c

/-- The blanks of ASCII that may surround a numeral. -/
def isSpace (c : Char) : Bool :=
  c = ' ' || (9 ≤ c.toNat && c.toNat ≤ 13)

/-- Takes out the underscores, each of which must stand between two digits. `afterDigit` says
whether the character before is a digit. -/
def dropSeparators? (afterDigit : Bool) : List Char → Option (List Char)
  | [] => some []
  | ['_'] => none
  | '_' :: d :: rest =>
    if afterDigit && d.isDigit then (dropSeparators? true rest).map (d :: ·) else none
  | c :: rest => (dropSeparators? c.isDigit rest).map (c :: ·)

/-- The ASCII characters of a numeral, without the blanks around it and without separators. -/
def plain? (s : String) : Option (List Char) :=
  dropSeparators? false (trimWith isSpace (s.toList.map toAscii))

/-- Splits off a sign: whether it is a minus, and the rest. -/
def splitSign : List Char → Bool × List Char
  | '-' :: rest => (true, rest)
  | '+' :: rest => (false, rest)
  | cs => (false, cs)

def isDigits (cs : List Char) : Bool :=
  !cs.isEmpty && cs.all Char.isDigit

def whole? (s : String) : Option Int := do
  let (negative, digits) := splitSign (← plain? s)
  guard (isDigits digits && digits.length ≤ maxDigits)
  let n := digitsValue digits
  return if negative then -(n : Int) else n

def write (n : Int) : Except ArithmeticError String :=
  if n.natAbs < Binary64.pow10 maxDigits then .ok (toString n)
  else .error (.tooManyDigits maxDigits)

/-- Reads an exponent: nothing, or the letter e with a signed row of digits. -/
def exponent? : List Char → Option Int
  | [] => some 0
  | e :: rest => do
    guard (e = 'e' || e = 'E')
    let (negative, digits) := splitSign rest
    guard (isDigits digits)
    return if negative then -(digitsValue digits : Int) else digitsValue digits

/-- The digits of a fraction and what follows them; there are none without a point. -/
def splitFraction : List Char → List Char × List Char
  | '.' :: rest => (rest.takeWhile Char.isDigit, rest.dropWhile Char.isDigit)
  | cs => ([], cs)

def unsigned? (negative : Bool) (cs : List Char) : Option Float := do
  let word := cs.map Char.toLower
  if word = "inf".toList || word = "infinity".toList then return Binary64.infinity negative
  if word = "nan".toList then return Binary64.nan
  let whole := cs.takeWhile Char.isDigit
  let (fraction, rest) := splitFraction (cs.dropWhile Char.isDigit)
  guard (isDigits (whole ++ fraction))
  let e ← exponent? rest
  return Binary64.ofDecimal negative (digitsValue (whole ++ fraction)) (e - fraction.length)

def decimal? (s : String) : Option Float := do
  let (negative, cs) := splitSign (← plain? s)
  unsigned? negative cs

end ChipScript.Numeral

namespace ChipScript.Number

/-- The number that a literal denotes: an integer if it is a whole numeral, else a double, which
may be infinite or NaN. -/
def ofLiteral? (s : String) : Option Number :=
  match Numeral.whole? s with
  | some n => some (int n).normalize
  | none => (Numeral.decimal? s).map float

/-- The number that a text denotes in arithmetic. Blanks of every kind may surround it, and the
words for infinity and NaN denote nothing. -/
def ofText? (s : String) : Option Number :=
  match Numeral.whole? (Text.trim s) with
  | some n => some (int n).normalize
  | none => ((Numeral.decimal? (Text.trim s)).map float).filter isFinite

example : ofText? " 1_000 " = some (int 1000) := by decide +kernel
example : ofText? "-٣" = some (int (-3)) := by decide +kernel
example : ofText? ".5e1" = some (float (Binary64.ofInt 5)) := by decide +kernel
example : ofText? "1__0" = none ∧ ofText? "inf" = none := by decide +kernel
example : ofLiteral? "-Infinity" = some (float (Binary64.infinity true)) := by decide +kernel

end ChipScript.Number
