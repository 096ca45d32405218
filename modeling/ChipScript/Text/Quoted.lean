import ChipScript.Text.Printable

/-!
# Quoted texts

`quoted` shows a text between quotation marks in messages, so that its ends and its invisible
characters can be seen. The mark is `'`, unless the text holds a `'` and no `"`; the mark itself
and the backslash are escaped, line feed, carriage return and tabulator have short escapes, and
any other unprintable character is given by its code point in two, four or eight hexadecimal
digits.
-/

namespace ChipScript.Text

/-- The last `width` hexadecimal digits of `n`. -/
def hexDigits (width n : Nat) : List Char :=
  ((List.range width).map fun i => (n / Nat.pow 16 i % 16).digitChar).reverse

/-- A character inside a text quoted with `mark`. -/
def escapeChar (mark c : Char) : List Char :=
  if c = mark || c = '\\' then ['\\', c]
  else if c = '\n' then ['\\', 'n']
  else if c = '\r' then ['\\', 'r']
  else if c = '\t' then ['\\', 't']
  else if isPrintable c then [c]
  else if c.toNat < 0x100 then '\\' :: 'x' :: hexDigits 2 c.toNat
  else if c.toNat < 0x10000 then '\\' :: 'u' :: hexDigits 4 c.toNat
  else '\\' :: 'U' :: hexDigits 8 c.toNat

/-- The quotation mark that needs the fewest escapes. -/
def quotationMark (cs : List Char) : Char :=
  if cs.contains '\'' && !cs.contains '"' then '"' else '\''

/-- The text between quotation marks, with escapes. -/
def quoted (s : String) : String :=
  let mark := quotationMark s.toList
  String.ofList (mark :: s.toList.flatMap (escapeChar mark) ++ [mark])

example : quoted "door" = "'door'" := by decide +kernel
example : quoted "it's" = "\"it's\"" := by decide +kernel
example : quoted "'\"\n\u200b" = "'\\'\"\\n\\u200b'" := by decide +kernel

end ChipScript.Text
