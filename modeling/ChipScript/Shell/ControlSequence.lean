import ChipScript.Text.ControlSequence

/-!
# Leaving out control sequences

`withoutSequences` leaves the control sequences out of a text that is not meant for a terminal. A
text is gone through once: what the removal of a sequence brings together stays, even if it looks
like another one.
-/

namespace ChipScript.Text

/-- The number of characters that a control sequence has after its first one, if what follows the
first one completes a sequence. -/
def sequenceTail? : List Char → Option Nat
  | '[' :: rest =>
    if (rest.dropWhile isParameter).head?.any Char.isAlpha then
      some ((rest.takeWhile isParameter).length + 2)
    else none
  | _ => none

/-- Leaves the control sequences out, of which the last one still has `skip` characters. -/
def dropSequences (skip : Nat) : List Char → List Char
  | [] => []
  | c :: rest =>
    match skip with
    | n + 1 => dropSequences n rest
    | 0 =>
      match if c = escapeMark then sequenceTail? rest else none with
      | some size => dropSequences size rest
      | none => c :: dropSequences 0 rest

def withoutSequences (s : String) : String :=
  String.ofList (dropSequences 0 s.toList)

/-- Where a tail is found, a control sequence starts. -/
theorem exists_sequence_of_tail {rest : List Char} {size : Nat}
    (h : sequenceTail? rest = some size) :
    ∃ part, part <+: escapeMark :: rest ∧ IsControlSequence part := by
  unfold sequenceTail? at h
  split at h
  · next rest =>
    split at h
    · next hletter =>
      cases hdrop : rest.dropWhile isParameter with
      | nil =>
        rw [hdrop] at hletter
        cases hletter
      | cons letter after =>
        rw [hdrop] at hletter
        refine ⟨escapeMark :: '[' :: (rest.takeWhile isParameter ++ [letter]), ?_, _, letter, rfl,
          List.all_eq_true.1 List.all_takeWhile, hletter⟩
        have hrest : rest.takeWhile isParameter ++ [letter] <+: rest := by
          refine ⟨after, ?_⟩
          rw [List.append_assoc, List.singleton_append, ← hdrop, List.takeWhile_append_dropWhile]
        exact List.cons_prefix_cons.2 ⟨rfl, List.cons_prefix_cons.2 ⟨rfl, hrest⟩⟩
    · cases h
  · cases h

/-- A text without control sequences stays as it is. -/
theorem dropSequences_eq_self {cs : List Char} (h : FreeOfSequences cs) :
    dropSequences 0 cs = cs := by
  induction cs with
  | nil => rfl
  | cons c rest ih =>
    have hrest : FreeOfSequences rest := fun part hpart =>
      h part (hpart.trans (List.suffix_cons c rest).isInfix)
    have htail : (if c = escapeMark then sequenceTail? rest else none) = none := by
      split
      · next hc =>
        cases hsize : sequenceTail? rest with
        | none => rfl
        | some size =>
          obtain ⟨part, hpart, hsequence⟩ := exists_sequence_of_tail hsize
          exact absurd hsequence (h part (hc ▸ hpart.isInfix))
      · rfl
    rw [dropSequences, htail, ih hrest]

theorem withoutSequences_eq_self {s : String} (h : FreeOfSequences s.toList) :
    withoutSequences s = s := by
  rw [withoutSequences, dropSequences_eq_self h, String.ofList_toList]

example : withoutSequences "a\x1b[1;31mb\x1b[?25lc" = "abc" := by decide +kernel
example : withoutSequences "\x1b[\x1b[0m31m" = "\x1b[31m" := by decide +kernel
example : withoutSequences "\x1b[31 m\x1b]m\x1b[" = "\x1b[31 m\x1b]m\x1b[" := by decide +kernel

end ChipScript.Text
