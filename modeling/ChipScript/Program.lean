import ChipScript.Data
import ChipScript.Fault
import ChipScript.Name

/-!
# Programs

A program is a fixed sequence of lines, numbered from one. A line holds statements, or the syntax
errors that were found in it; a line with syntax errors never runs. Operators and keywords are kept
as they were written: whether they mean anything is decided when the line runs.
-/

namespace ChipScript

/-- The level of precedence that a binary expression was read at. It limits the operators that may
stand there. -/
inductive Group where
  | exp | mul | add | eq | neq
deriving DecidableEq, Repr

namespace Group

def all : List Group :=
  [exp, mul, add, eq, neq]

def tag : Group → String
  | exp => "exp"
  | mul => "mul"
  | add => "add"
  | eq => "eq"
  | neq => "neq"

def ofTag? (s : String) : Option Group :=
  all.find? (·.tag = s)

/-- The operators of a group, in the order of their characters. -/
def operators : Group → List String
  | exp => ["^"]
  | mul => ["%", "*", "/"]
  | add => ["+", "-"]
  | eq | neq => ["!=", "<", "<=", "==", ">", ">="]

def admits (g : Group) (operator : String) : Bool :=
  g.operators.contains operator

/-- Nothing if the operator may not stand in an expression of the group. -/
def admits? (g : Group) (operator : String) : Option Unit :=
  if g.admits operator then some () else none

end Group

/-- Whether an increment stands before or after its operand. -/
inductive Fixity where
  | pre | post
deriving DecidableEq, Repr

/-- Of the values after and before an increment, the one that the increment has. -/
def Fixity.pick {α : Type} : Fixity → α → α → α
  | pre, new, _ => new
  | post, _, old => old

inductive Expr where
  | number (text : String)
  | text (text : String)
  | name (name : Name)
  | binary (group : Group) (operator : String) (left right : Expr)
  | keyword (keyword : String) (operand : Expr)
  | increment (fixity : Fixity) (operator : String) (operand : Expr)
deriving DecidableEq, Repr

/-- Statements. A branch without an else part differs from one whose else part is empty. -/
inductive Stmt where
  | assign (target : Name) (operator : String) (value : Expr)
  | goto (target : Expr)
  | branch (condition : Expr) (body : List Stmt) (otherwise : Option (List Stmt))
  | comment (text : String)
  | increment (fixity : Fixity) (operator : String) (operand : Expr)

/-- A syntax error found in a line, with a position of whatever form it was given in. -/
structure SyntaxFault where
  message : String
  position : Data := .null

structure Line where
  statements : List Stmt := []
  syntaxFaults : List SyntaxFault := []

/-- The line has syntax errors. -/
def Line.isFaulty (l : Line) : Bool :=
  !l.syntaxFaults.isEmpty

/-- Lines in order, the first of them being line one. -/
structure Program where
  lines : List Line := []

namespace Program

def length (p : Program) : Nat :=
  p.lines.length

def line (p : Program) (number : Int) : Except LineError Line :=
  if number < 1 then .error (.outOfRange number p.length)
  else match p.lines[number.toNat - 1]? with
    | some l => .ok l
    | none => .error (.outOfRange number p.length)

end Program

/-! ### Nodes -/

def Expr.kind : Expr → String
  | number _ => "NumberLiteral"
  | text _ => "StringLiteral"
  | name _ => "Identifier"
  | binary .. => "BinaryExpression"
  | keyword .. => "KeywordExpression"
  | increment .. => "IncrementExpression"

def Stmt.kind : Stmt → String
  | assign .. => "Assignment"
  | goto _ => "Goto"
  | branch .. => "If"
  | comment _ => "Comment"
  | increment .. => "IncrementStatement"

/-- A node of the tree that a program is. -/
inductive Node where
  | expression (e : Expr)
  | statement (s : Stmt)
  | line (l : Line)
  | program (p : Program)

namespace Node

def kind : Node → String
  | expression e => e.kind
  | statement s => s.kind
  | line _ => "Line"
  | program _ => "Program"

/-- The nodes directly below a node, from left to right. -/
def children : Node → List Node
  | expression (.number _) | expression (.text _) | expression (.name _) => []
  | expression (.binary _ _ left right) => [expression left, expression right]
  | expression (.keyword _ operand) | expression (.increment _ _ operand) => [expression operand]
  | statement (.assign target _ value) => [expression (.name target), expression value]
  | statement (.goto target) => [expression target]
  | statement (.branch condition body other) =>
    expression condition :: (body ++ other.getD []).map statement
  | statement (.comment _) => []
  | statement (.increment fixity operator operand) =>
    [expression (.increment fixity operator operand)]
  | line l => l.statements.map statement
  | program p => p.lines.map line

/-- A measure that decreases from every node to its children. A statement counts for more than an
expression of the same parts, since an increment may be either. -/
noncomputable def size : Node → Nat
  | expression e => sizeOf e
  | statement s => sizeOf s + 1
  | line l => sizeOf l + 1
  | program p => sizeOf p + 1

theorem size_lt_of_mem_children {node child : Node} (h : child ∈ node.children) :
    child.size < node.size := by
  have hblock {s : Stmt} {block : List Stmt} (hs : s ∈ block) : sizeOf s < sizeOf block :=
    List.sizeOf_lt_of_mem hs
  have hpair {a b : Node} (h : child ∈ [a, b]) : child = a ∨ child = b := by simpa using h
  match node with
  | expression (.number _) | expression (.text _) | expression (.name _)
  | statement (.comment _) => cases h
  | expression (.binary _ _ left right) =>
    rcases hpair h with rfl | rfl <;> simp only [size, Expr.binary.sizeOf_spec] <;> omega
  | expression (.keyword _ operand) | expression (.increment _ _ operand) =>
    obtain rfl := List.mem_singleton.1 h
    simp only [size, Expr.keyword.sizeOf_spec, Expr.increment.sizeOf_spec]
    omega
  | statement (.assign target _ value) =>
    rcases hpair h with rfl | rfl <;>
      simp only [size, Stmt.assign.sizeOf_spec, Expr.name.sizeOf_spec] <;> omega
  | statement (.goto target) =>
    obtain rfl := List.mem_singleton.1 h
    simp only [size, Stmt.goto.sizeOf_spec]
    omega
  | statement (.increment _ _ operand) =>
    obtain rfl := List.mem_singleton.1 h
    simp only [size, Stmt.increment.sizeOf_spec, Expr.increment.sizeOf_spec]
    omega
  | statement (.branch condition body other) =>
    rcases List.mem_cons.1 h with rfl | h
    · simp only [size, Stmt.branch.sizeOf_spec]
      omega
    · obtain ⟨s, hs, rfl⟩ := List.mem_map.1 h
      simp only [size, Stmt.branch.sizeOf_spec]
      rcases List.mem_append.1 hs with hs | hs
      · have := hblock hs
        omega
      · cases other with
        | none => cases hs
        | some other =>
          have : sizeOf s < sizeOf other := hblock hs
          rw [Option.some.sizeOf_spec]
          omega
  | line ⟨statements, _⟩ =>
    obtain ⟨s, hs, rfl⟩ := List.mem_map.1 h
    have := hblock hs
    simp only [size, Line.mk.sizeOf_spec] at this ⊢
    omega
  | program ⟨lines⟩ =>
    obtain ⟨l, hl, rfl⟩ := List.mem_map.1 h
    have : sizeOf l < sizeOf lines := List.sizeOf_lt_of_mem hl
    simp only [size, Program.mk.sizeOf_spec]
    omega

/-- The names at a node and below it, from left to right. -/
def names : Node → List Name
  | expression (.name n) => [n]
  | node => node.children.attach.flatMap fun child => child.1.names
termination_by node => node.size
decreasing_by exact size_lt_of_mem_children child.2

end Node

/-! ### Names that are mentioned -/

def Expr.names (e : Expr) : List Name :=
  (Node.expression e).names

def Stmt.names (s : Stmt) : List Name :=
  (Node.statement s).names

def blockNames (block : List Stmt) : List Name :=
  block.flatMap Stmt.names

def Line.names (l : Line) : List Name :=
  (Node.line l).names

def Program.names (p : Program) : List Name :=
  (Node.program p).names

section

variable (operator word text : String) (target n : Name) (group : Group) (fixity : Fixity)
  (e left right condition value : Expr) (s : Stmt) (body other block : List Stmt)

/-- Below a node that is no name, the names are those of its children. -/
theorem Node.names_eq_flatMap {node : Node} (h : ∀ n, node ≠ .expression (.name n)) :
    node.names = node.children.flatMap Node.names := by
  rw [Node.names]
  · simp
  · exact h

theorem Node.flatMap_names_map_statement :
    (block.map Node.statement).flatMap Node.names = blockNames block :=
  List.flatMap_map Node.statement Node.names block

@[simp] theorem Expr.names_number : (number text).names = [] :=
  Node.names_eq_flatMap nofun

@[simp] theorem Expr.names_text : (Expr.text text).names = [] :=
  Node.names_eq_flatMap nofun

@[simp] theorem Expr.names_name : (name n).names = [n] := by
  rw [names, Node.names]

@[simp] theorem Expr.names_binary :
    (binary group operator left right).names = left.names ++ right.names := by
  rw [names, Node.names_eq_flatMap (by nofun)]
  exact congrArg (left.names ++ ·) (List.append_nil right.names)

@[simp] theorem Expr.names_keyword : (keyword word e).names = e.names := by
  rw [names, Node.names_eq_flatMap (by nofun)]
  exact List.append_nil e.names

@[simp] theorem Expr.names_increment : (increment fixity operator e).names = e.names := by
  rw [names, Node.names_eq_flatMap (by nofun)]
  exact List.append_nil e.names

@[simp] theorem blockNames_nil : blockNames [] = [] := rfl

@[simp] theorem blockNames_cons : blockNames (s :: block) = s.names ++ blockNames block := rfl

@[simp] theorem Stmt.names_assign :
    (assign target operator value).names = target :: value.names := by
  rw [names, Node.names_eq_flatMap (by nofun)]
  show (Expr.name target).names ++ (value.names ++ []) = target :: value.names
  rw [Expr.names_name, List.append_nil, List.singleton_append]

@[simp] theorem Stmt.names_goto : (goto e).names = e.names := by
  rw [names, Node.names_eq_flatMap (by nofun)]
  exact List.append_nil e.names

@[simp] theorem Stmt.names_branch :
    (branch condition body none).names = condition.names ++ blockNames body := by
  rw [names, Node.names_eq_flatMap (by nofun)]
  show condition.names ++ ((body ++ []).map Node.statement).flatMap Node.names = _
  rw [List.append_nil, Node.flatMap_names_map_statement]

@[simp] theorem Stmt.names_branchElse :
    (branch condition body (some other)).names =
      condition.names ++ blockNames body ++ blockNames other := by
  rw [names, Node.names_eq_flatMap (by nofun), List.append_assoc, blockNames, blockNames,
    ← List.flatMap_append]
  exact congrArg (condition.names ++ ·) (Node.flatMap_names_map_statement (body ++ other))

@[simp] theorem Stmt.names_comment : (comment text).names = [] :=
  Node.names_eq_flatMap nofun

@[simp] theorem Stmt.names_increment : (increment fixity operator e).names = e.names := by
  rw [names, Node.names_eq_flatMap (by nofun)]
  exact (List.append_nil _).trans (Expr.names_increment operator fixity e)

/-- The names in a line are those of its statements, since syntax errors mention none. -/
theorem Line.names_eq_blockNames (l : Line) : l.names = blockNames l.statements := by
  rw [names, Node.names_eq_flatMap (by nofun)]
  exact Node.flatMap_names_map_statement l.statements

/-- The names in a program are those of its lines. -/
theorem Program.names_eq_flatMap (p : Program) : p.names = p.lines.flatMap Line.names := by
  rw [names, Node.names_eq_flatMap (by nofun)]
  exact List.flatMap_map Node.line Node.names p.lines

end

end ChipScript
