import ChipScript.Execute

/-!
# Well-formed programs

Operators, keywords and literals are kept in a program as they were written, and a chip that meets
one it does not know fails. A program is well formed if it has none of these: every literal is a
number, every operator belongs to its group, and every keyword, increment and assignment operator is
one of those there are. For each of them there is a lemma that what is well formed is known.
-/

namespace ChipScript

def Keyword.spellings : List String :=
  "not" :: MathKeyword.table.map Prod.fst

def incrementOperators : List String :=
  ["++", "--"]

/-- The assignment operators: the plain one and five compound ones. -/
def assignmentOperators : List String :=
  ["=", "+=", "-=", "*=", "/=", "%="]

/-- The expression has no literal, operator or keyword that means nothing. -/
def Expr.wellFormed : Expr → Bool
  | number literal => (Number.ofLiteral? literal).isSome
  | text _ | name _ => true
  | binary group operator left right =>
    group.admits operator && left.wellFormed && right.wellFormed
  | keyword word operand => Keyword.spellings.contains (Text.lower word) && operand.wellFormed
  | increment _ operator operand => incrementOperators.contains operator && operand.wellFormed

mutual

/-- The statement has no literal, operator or keyword that means nothing, at any depth. -/
def Stmt.wellFormed : Stmt → Bool
  | .assign _ operator value => assignmentOperators.contains operator && value.wellFormed
  | .goto target => target.wellFormed
  | .branch condition body none => condition.wellFormed && blockWellFormed body
  | .branch condition body (some other) =>
    condition.wellFormed && blockWellFormed body && blockWellFormed other
  | .comment _ => true
  | .increment fixity operator operand => (Expr.increment fixity operator operand).wellFormed

def blockWellFormed : List Stmt → Bool
  | [] => true
  | s :: rest => s.wellFormed && blockWellFormed rest

end

def Program.wellFormed (p : Program) : Bool :=
  p.lines.all fun l => blockWellFormed l.statements

/-! ### What is well formed is known -/

/-- The operators that a group admits are known. -/
theorem Group.isSome_ofSymbol? {g : Group} {operator : String} (h : g.admits operator = true) :
    (Operator.ofSymbol? operator).isSome = true := by
  have hknown : ∀ symbol ∈ g.operators, (Operator.ofSymbol? symbol).isSome = true := by
    cases g <;> decide
  exact hknown operator (List.contains_iff_mem.1 h)

theorem Keyword.isSome_ofName? {word : String}
    (h : spellings.contains (Text.lower word) = true) : (ofName? word).isSome = true := by
  unfold ofName?
  split
  · rfl
  · next hnot =>
    rw [Option.isSome_map]
    rcases List.mem_cons.1 (List.contains_iff_mem.1 h) with hword | hword
    · exact absurd hword hnot
    · have hknown : ∀ name ∈ MathKeyword.table.map Prod.fst,
          (MathKeyword.ofName? name).isSome = true := by decide
      exact hknown _ hword

theorem isSome_stepOf? {operator : String} (h : incrementOperators.contains operator = true) :
    (stepOf? operator).isSome = true := by
  have hknown : ∀ symbol ∈ incrementOperators, (stepOf? symbol).isSome = true := by decide
  exact hknown operator (List.contains_iff_mem.1 h)

theorem Assigning.isSome_ofSymbol? {operator : String}
    (h : assignmentOperators.contains operator = true) :
    (Assigning.ofSymbol? operator).isSome = true := by
  have hknown : ∀ symbol ∈ assignmentOperators, (Assigning.ofSymbol? symbol).isSome = true := by
    decide
  exact hknown operator (List.contains_iff_mem.1 h)

/-- The lines of a well-formed program are well formed. -/
theorem Program.blockWellFormed_of_mem {p : Program} (h : p.wellFormed = true) {l : Line}
    (hl : l ∈ p.lines) : blockWellFormed l.statements = true :=
  List.all_eq_true.1 h l hl

end ChipScript
