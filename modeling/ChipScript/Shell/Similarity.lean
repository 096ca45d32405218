/-!
# Similar words

How alike two words are, for suggesting what was meant by a misspelt one. The words are aligned at
their longest common part, the earliest one if there are several, and the pieces before and after
it are aligned in the same way; the characters that are aligned count twice against the length of
both words together.
-/

namespace ChipScript.Shell.Similarity

def commonStart : List Char → List Char → Nat
  | a :: as, b :: bs => if a = b then commonStart as bs + 1 else 0
  | _, _ => 0

/-- The longest common part: where it starts in either list, and its length. Of several the one that
starts first in the first list is taken, and then the one that starts first in the second. -/
def longestCommon (as bs : List Char) : Nat × Nat × Nat :=
  let starts := (List.range as.length).flatMap fun i =>
    (List.range bs.length).map fun j => (i, j, commonStart (as.drop i) (bs.drop j))
  starts.foldl (fun best next => if best.2.2 < next.2.2 then next else best) (0, 0, 0)

/-- The number of characters that are aligned. -/
def aligned (as bs : List Char) : Nat :=
  let (i, j, size) := longestCommon as bs
  if _ : 0 < size ∧ i + size ≤ as.length then
    aligned (as.take i) (bs.take j) + size + aligned (as.drop (i + size)) (bs.drop (j + size))
  else 0
termination_by as.length
decreasing_by
  all_goals simp only [List.length_take, List.length_drop]; omega

/-- The words are close: at least three fifths of their characters are aligned. -/
def isClose (a b : String) : Bool :=
  3 * (a.length + b.length) ≤ 10 * aligned a.toList b.toList

/-- `a` is at least as close to `word` as `b` is. -/
def closerThan (word a b : String) : Bool :=
  let score (w : String) := aligned w.toList word.toList
  let left := score a * (b.length + word.length)
  let right := score b * (a.length + word.length)
  right < left || (left = right && b ≤ a)

/-- The three closest of the words that are close to a given one. -/
def suggestions (word : String) (words : List String) : List String :=
  ((words.filter (isClose · word)).mergeSort (closerThan word)).take 3

end ChipScript.Shell.Similarity
