/-!
# Classes of characters as code point ranges

A class of characters is written down as a list of inclusive ranges of code points. The tables of
this folder (blanks, cased letters, unprintable characters) are values of `CodeRanges`, and
`CodeRanges.has` is the only way they are looked up.
-/

namespace ChipScript.Text

/-- Inclusive ranges of code points, in increasing order. -/
abbrev CodeRanges := List (Nat × Nat)

def CodeRanges.has (ranges : CodeRanges) (c : Char) : Bool :=
  ranges.any fun (lo, hi) => lo ≤ c.toNat && c.toNat ≤ hi

end ChipScript.Text
