import ChipScript.Number.Numeral

/-!
# Tokens of JSON text

A JSON text is cut into tokens before it is read as a tree. `lexeme` finds the token at the head of
a text and the number of characters that it takes; `tokens` goes through the whole text. Whatever
starts no token becomes `Token.bad`, so cutting never fails: it is for the reader to refuse the
token when it comes to it.

Besides the numbers of JSON there are the words for NaN and the infinities.

The escapes of a text may denote the two halves of a surrogate pair, which are joined. A half on its
own, which no text can hold, is read as the replacement character (`Token.joinUnits`).
-/

namespace ChipScript

inductive Token where
  | openList | closeList | openRecord | closeRecord | comma | colon
  | text (s : String)
  | null
  | bool (b : Bool)
  | int (n : Int)
  | float (x : Float)
  /-- A whole number with too many digits, and how many it has. -/
  | longInt (digits : Nat)
  | bad
deriving DecidableEq, Repr

namespace Token

def isSpace (c : Char) : Bool :=
  c = ' ' || c = '\t' || c = '\n' || c = '\r'

/-! ### Texts -/

def hexValue? (c : Char) : Option Nat :=
  if '0' ≤ c ∧ c ≤ '9' then some (c.toNat - '0'.toNat)
  else if 'a' ≤ c ∧ c ≤ 'f' then some (c.toNat - 'a'.toNat + 10)
  else if 'A' ≤ c ∧ c ≤ 'F' then some (c.toNat - 'A'.toNat + 10)
  else none

def hexUnit? (a b c d : Char) : Option Nat := do
  return (((← hexValue? a) * 16 + (← hexValue? b)) * 16 + (← hexValue? c)) * 16 + (← hexValue? d)

/-- The character that a backslash and a letter stand for. -/
def escape? (c : Char) : Option Char :=
  [('"', '"'), ('\\', '\\'), ('/', '/'), ('b', '\x08'), ('f', '\x0c'), ('n', '\n'), ('r', '\r'),
    ('t', '\t')].lookup c

/-- The code units of a text up to its closing quotation mark, and the number of characters they
and the mark take. A control character may not stand in a text. -/
def units? : List Char → Option (List Nat × Nat)
  | [] => none
  | '"' :: _ => some ([], 1)
  | '\\' :: 'u' :: a :: b :: c :: d :: rest => do
    let unit ← hexUnit? a b c d
    let (units, size) ← units? rest
    return (unit :: units, size + 6)
  | '\\' :: e :: rest => do
    let c ← escape? e
    let (units, size) ← units? rest
    return (c.toNat :: units, size + 2)
  | c :: rest => do
    guard (' ' ≤ c && c ≠ '\\')
    let (units, size) ← units? rest
    return (c.toNat :: units, size + 1)

/-- Joins the halves of characters that are given as two code units. -/
def joinUnits : List Nat → List Char
  | [] => []
  | high :: low :: rest =>
    if 0xd800 ≤ high ∧ high < 0xdc00 ∧ 0xdc00 ≤ low ∧ low < 0xe000 then
      Char.ofNat (0x10000 + (high - 0xd800) * 0x400 + (low - 0xdc00)) :: joinUnits rest
    else single high :: joinUnits (low :: rest)
  | [unit] => [single unit]
where
  /-- The character with a given code point; a half on its own has none. -/
  single (unit : Nat) : Char :=
    if 0xd800 ≤ unit ∧ unit < 0xe000 then Char.ofNat 0xfffd else Char.ofNat unit

/-! ### Numbers -/

/-- The digits of a whole number: a zero, or a row that does not start with one. -/
def wholeDigits : List Char → List Char
  | '0' :: _ => ['0']
  | cs => cs.takeWhile Char.isDigit

/-- The digits after a point, none if there is no point with digits after it. -/
def fractionDigits : List Char → List Char
  | '.' :: rest => rest.takeWhile Char.isDigit
  | _ => []

/-- The exponent at the head of a text and the number of characters it takes; zero and none if there
is no letter e with digits after it. -/
def exponentPart : List Char → Int × Nat
  | e :: rest =>
    let (negative, digits) := Numeral.splitSign rest
    let ds := digits.takeWhile Char.isDigit
    if (e = 'e' || e = 'E') && !ds.isEmpty then
      let n : Int := Text.digitsValue ds
      (if negative then -n else n, 1 + (rest.length - digits.length) + ds.length)
    else (0, 0)
  | [] => (0, 0)

/-- The unsigned number at the head of a text and the number of characters it takes. -/
def number? (negative : Bool) (cs : List Char) : Option (Token × Nat) :=
  let whole := wholeDigits cs
  let fraction := fractionDigits (cs.drop whole.length)
  let size := whole.length + (if fraction.isEmpty then 0 else fraction.length + 1)
  let (exponent, exponentSize) := exponentPart (cs.drop size)
  if whole.isEmpty then none
  else if fraction.isEmpty && exponentSize = 0 then
    if Numeral.maxDigits < whole.length then some (.longInt whole.length, size)
    else
      let n : Int := Text.digitsValue whole
      some (.int (if negative then -n else n), size)
  else
    let x := Binary64.ofDecimal negative (Text.digitsValue (whole ++ fraction))
      (exponent - fraction.length)
    some (.float x, size + exponentSize)

/-! ### All tokens -/

def words : List (String × Token) :=
  [("null", .null), ("true", .bool true), ("false", .bool false), ("NaN", .float Binary64.nan),
    ("Infinity", .float (Binary64.infinity false)), ("-Infinity", .float (Binary64.infinity true))]

def marks : List (Char × Token) :=
  [('[', .openList), (']', .closeList), ('\x7b', .openRecord), ('\x7d', .closeRecord),
    (',', .comma), (':', .colon)]

def word? (cs : List Char) : Option (Token × Nat) :=
  (words.find? fun w => w.1.toList.isPrefixOf cs).map fun w => (w.2, w.1.length)

/-- The token at the head of a text, and the number of characters it takes after the first. -/
def lexeme (c : Char) (rest : List Char) : Token × Nat :=
  match marks.lookup c with
  | some token => (token, 0)
  | none =>
    if c = '"' then
      match units? rest with
      | some (units, size) => (.text (String.ofList (joinUnits units)), size)
      | none => (.bad, 0)
    else
      match word? (c :: rest) with
      | some (token, size) => (token, size - 1)
      | none =>
        let number := if c = '-' then (number? true rest).map fun (t, size) => (t, size + 1)
          else number? false (c :: rest)
        match number with
        | some (token, size) => (token, size - 1)
        | none => (.bad, 0)

/-- The tokens of a text, of which the first `skip` characters belong to the token before. -/
def tokens (skip : Nat) : List Char → List Token
  | [] => []
  | c :: rest =>
    match skip with
    | n + 1 => tokens n rest
    | 0 =>
      if isSpace c then tokens 0 rest
      else
        let (token, size) := lexeme c rest
        token :: tokens size rest

end Token

end ChipScript
