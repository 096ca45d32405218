/-!
# Named members in order

A list of named members in which each name stands once. Putting a member under a name that is taken
replaces the value and keeps the place, so the order is that of the first mention of each name and
the values are those of the last.
-/

namespace ChipScript.Members

variable {α : Type}

/-- Puts a value under a name. -/
def put (name : String) (value : α) : List (String × α) → List (String × α)
  | [] => [(name, value)]
  | (n, v) :: rest => if n = name then (n, value) :: rest else (n, v) :: put name value rest

/-- Reads a list of pairs from left to right, putting each of them. -/
def ofPairs (pairs : List (String × α)) : List (String × α) :=
  pairs.foldl (fun members pair => put pair.1 pair.2 members) []

/-- A member that was put is found, and putting it changes no other. -/
theorem lookup_put (name other : String) (value : α) (members : List (String × α)) :
    (put name value members).lookup other =
      if other = name then some value else members.lookup other := by
  induction members with
  | nil =>
    by_cases h : other = name
    · simp [put, h]
    · simp [put, List.lookup_cons, h, beq_eq_false_iff_ne.2 h]
  | cons member rest ih =>
    obtain ⟨n, v⟩ := member
    by_cases hn : n = name
    · subst hn
      by_cases h : other = n
      · simp [put, h]
      · simp [put, List.lookup_cons, h, beq_eq_false_iff_ne.2 h]
    · by_cases h : other = n
      · subst h
        simp [put, hn]
      · simp [put, List.lookup_cons, hn, beq_eq_false_iff_ne.2 h, ih]

end ChipScript.Members
