import ChipScript.Program

/-!
# Outlines

The outline of a program shows its structure as indented text: a row for each line, under it its
syntax errors and statements, and under a branch the rows `Then:` and `Else:` with their own
statements. Expressions are written in parentheses, close to how they stand in a script.
-/

namespace ChipScript

def Expr.outline : Expr → String
  | .number s => s
  | .text s => "\"" ++ s ++ "\""
  | .name n => n.text
  | .binary _ operator left right =>
    "(" ++ left.outline ++ " " ++ operator ++ " " ++ right.outline ++ ")"
  | .keyword word operand => word ++ " " ++ operand.outline
  | .increment .pre operator operand => operator ++ operand.outline
  | .increment .post operator operand => operand.outline ++ operator

/-- A row of an outline: its depth and what it says. -/
structure OutlineRow where
  depth : Nat
  text : String

/-- A row with two spaces for each level of depth. -/
def OutlineRow.render (row : OutlineRow) : String :=
  String.ofList (List.replicate (2 * row.depth) ' ') ++ row.text

mutual

def Stmt.outline (depth : Nat) : Stmt → List OutlineRow
  | .assign target operator value =>
    [⟨depth, "Assign: " ++ target.text ++ " " ++ operator ++ " " ++ value.outline⟩]
  | .goto target => [⟨depth, "Goto " ++ target.outline⟩]
  | .branch condition body none =>
    ⟨depth, "If (" ++ condition.outline ++ ")"⟩ :: ⟨depth + 1, "Then:"⟩ ::
      blockOutline (depth + 2) body
  | .branch condition body (some other) =>
    ⟨depth, "If (" ++ condition.outline ++ ")"⟩ :: ⟨depth + 1, "Then:"⟩ ::
      (blockOutline (depth + 2) body ++ ⟨depth + 1, "Else:"⟩ :: blockOutline (depth + 2) other)
  | .comment text => [⟨depth, "Comment: " ++ text⟩]
  | .increment fixity operator operand =>
    [⟨depth, "Expr: " ++ (Expr.increment fixity operator operand).outline⟩]

def blockOutline (depth : Nat) : List Stmt → List OutlineRow
  | [] => []
  | s :: rest => s.outline depth ++ blockOutline depth rest

end

def Line.outline (number : Nat) (l : Line) : List OutlineRow :=
  ⟨1, s!"Line {number}"⟩ :: l.syntaxFaults.map (fun e => ⟨2, "SyntaxError: " ++ e.message⟩) ++
    blockOutline 2 l.statements

def Program.outline (p : Program) : String :=
  let rows := ⟨0, "Program"⟩ :: (p.lines.zipIdx 1).flatMap fun (l, number) => l.outline number
  "\n".intercalate (rows.map OutlineRow.render)

end ChipScript
