import ChipScript.Text.Case

/-!
# Lower case

`lower` writes a text in small letters. Names of fields and of keywords are compared in this form.
All but two capitals have one small letter each, found in `lowerRuns`:

* `U+0130`, the dotted capital I, becomes a small i followed by a combining dot;
* a capital sigma becomes the final sigma `ς` at the end of a word and `σ` elsewhere. The word ends
  there when the nearest letter before it is cased and the nearest one after it is not, where
  ignorable characters do not count.
-/

namespace ChipScript.Text

/-- The small form of a character on its own. -/
def lowerChar (c : Char) : List Char :=
  if c.toNat = 0x130 then ['i', Char.ofNat 0x307]
  else match lowerRuns.find? (·.has c.toNat) with
    | some run => [Char.ofNat (c.toNat + run.shift).toNat]
    | none => [c]

/-- The nearest character of `cs` that counts is a cased letter. -/
def startsCased (cs : List Char) : Bool :=
  match cs.dropWhile isCaseIgnorable with
  | [] => false
  | c :: _ => isCased c

/-- Small form of `cs`, where `afterCased` says whether the nearest letter before it is cased. -/
def lowerList (afterCased : Bool) : List Char → List Char
  | [] => []
  | c :: rest =>
    let small :=
      if c = 'Σ' then [if afterCased && !startsCased rest then 'ς' else 'σ'] else lowerChar c
    small ++ lowerList (if isCaseIgnorable c then afterCased else isCased c) rest

/-- The text in small letters. -/
def lower (s : String) : String :=
  String.ofList (lowerList false s.toList)

example : lower "DoorOpen" = "dooropen" := by decide +kernel
example : lower "ΑΣ ΣΑ" = "ας σα" := by decide +kernel
example : lower "İ" = "i̇" := by decide +kernel

/-- A letter whose capital is one of `A` to `Z`, made capital; any other character is kept. Besides
the ASCII letters these are the dotless i and the long s. -/
def asciiCapital (c : Char) : Char :=
  if c = 'ı' then 'I' else if c = 'ſ' then 'S' else c.toUpper

end ChipScript.Text
