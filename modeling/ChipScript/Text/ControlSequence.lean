/-!
# Control sequences

A terminal takes an escape character, an opening bracket, parameters and a letter as a command, for
instance to change the colour of what follows.
-/

namespace ChipScript.Text

def escapeMark : Char := '\x1b'

/-- The character is a parameter of a control sequence or divides two of them. -/
def isParameter (c : Char) : Bool :=
  c = ';' || c = '?' || c.isDigit

/-- The characters are a control sequence. -/
def IsControlSequence (cs : List Char) : Prop :=
  ∃ parameters letter, cs = escapeMark :: '[' :: (parameters ++ [letter]) ∧
    (∀ c ∈ parameters, isParameter c = true) ∧ letter.isAlpha = true

/-- No control sequence stands in a row of characters. -/
def FreeOfSequences (cs : List Char) : Prop :=
  ∀ part, part <:+: cs → ¬ IsControlSequence part

/-- The character may stand in a control sequence. -/
def mayStandInSequence (c : Char) : Bool :=
  c = escapeMark || c = '[' || isParameter c || c.isAlpha

/-- A control sequence is made of characters that may stand in one. -/
theorem IsControlSequence.mayStand {cs : List Char} (h : IsControlSequence cs) :
    ∀ c ∈ cs, mayStandInSequence c = true := by
  obtain ⟨parameters, letter, rfl, hparameters, hletter⟩ := h
  intro c hc
  simp only [List.mem_cons, List.mem_append, List.not_mem_nil, or_false] at hc
  unfold mayStandInSequence
  rcases hc with rfl | rfl | hc | rfl
  · rfl
  · rfl
  · simp [hparameters c hc]
  · simp [hletter]

namespace FreeOfSequences

variable {before after : List Char} {c : Char}

/-- Without an escape character there is no control sequence. -/
theorem of_not_mem {cs : List Char} (h : escapeMark ∉ cs) : FreeOfSequences cs := by
  rintro _ hpart ⟨parameters, letter, rfl, _⟩
  exact h (hpart.subset List.mem_cons_self)

/-- A character that stands in no control sequence keeps two rows apart. -/
theorem append_cons (hc : mayStandInSequence c = false) (hbefore : FreeOfSequences before)
    (hafter : FreeOfSequences after) : FreeOfSequences (before ++ c :: after) := by
  intro part hpart hsequence
  have hnot : c ∉ part := fun hmem => Bool.eq_false_iff.1 hc (hsequence.mayStand c hmem)
  have hnil {ds : List Char} (hds : ds <+: c :: after) (hmem : c ∉ ds) : ds = [] := by
    rcases List.prefix_cons_iff.1 hds with hnil | ⟨t, rfl, _⟩
    · exact hnil
    · exact absurd List.mem_cons_self hmem
  have hempty : ¬ IsControlSequence [] := by
    rintro ⟨_, _, h, _⟩
    cases h
  rcases List.infix_append_iff.1 hpart with h | h | ⟨left, right, rfl, hleft, hright⟩
  · exact hbefore part h hsequence
  · rcases List.infix_cons_iff.1 h with h | h
    · rw [hnil h hnot] at hsequence
      exact hempty hsequence
    · exact hafter part h hsequence
  · rw [hnil hright fun hmem => hnot (List.mem_append_right left hmem), List.append_nil]
      at hsequence
    exact hbefore left hleft.isInfix hsequence

theorem cons (hc : mayStandInSequence c = false) (hafter : FreeOfSequences after) :
    FreeOfSequences (c :: after) :=
  append_cons hc (of_not_mem List.not_mem_nil) hafter

end FreeOfSequences

end ChipScript.Text
