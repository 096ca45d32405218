import ChipScript.Text.CodeRange

/-!
# Blank characters and trimming

The blanks are the white space characters of Unicode together with the four ASCII separators
`U+001C` to `U+001F`. `trim` takes them off both ends of a text.
-/

namespace ChipScript.Text

/-- White space of Unicode, and the ASCII file, group, record and unit separators. -/
def blanks : CodeRanges := [
  (0x9, 0xd), (0x1c, 0x20), (0x85, 0x85), (0xa0, 0xa0), (0x1680, 0x1680),
  (0x2000, 0x200a), (0x2028, 0x2029), (0x202f, 0x202f), (0x205f, 0x205f), (0x3000, 0x3000)]

/-- A blank may be trimmed off the end of a text. -/
def isBlank (c : Char) : Bool :=
  blanks.has c

/-- The characters between the first and the last one that `p` does not hold of. -/
def trimWith (p : Char → Bool) (cs : List Char) : List Char :=
  ((cs.dropWhile p).reverse.dropWhile p).reverse

def trim (s : String) : String :=
  String.ofList (trimWith isBlank s.toList)

end ChipScript.Text
