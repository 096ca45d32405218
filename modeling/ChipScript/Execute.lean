import ChipScript.Evaluate

/-!
# Executing statements

A machine is a memory with a line counter. Statements change the memory, and a goto moves the
counter; it does not end the line. Since the counter advances by one at the end of the line, a goto
sets it to the line before its target.

A sequence of statements ends at the first one that is not done. A branch takes its else part if its
condition equals zero, and its body otherwise.
-/

namespace ChipScript

/-- The state in which statements are executed. -/
structure Machine where
  memory : Memory := {}
  line : Int := 1

namespace Machine

def onMemory {α : Type} (x : Action Memory α) : Action Machine α :=
  x.within memory fun m memory => { m with memory }

/-- Lets the next line be `target`. -/
def jump (target : Int) : Action Machine Unit := fun m =>
  ⟨.done (), { m with line := target - 1 }, []⟩

def describe (m : Machine) : String :=
  s!"ProgramCounter(line={m.line})"

end Machine

/-- The line after a given one in a program of `count` lines, the first following the last. -/
def nextLine (line count : Int) : Except LineError Int :=
  if count = 0 then .error .noLines else .ok (line.fmod count + 1)

/-- The line that a goto leads to: what lies below one counts as one, what lies above the limit as
the limit, and a fraction is cut off. -/
def clampLine (limit : Int) (target : Number) : Except ArithmeticError Int :=
  if target.compare? (.int 0) ∈ [some .lt, some .eq] then .ok 1
  else if target.compare? (.int limit) = some .gt then .ok (max 1 limit)
  else target.floor.map (max 1)

/-- Goes to the line that a value denotes. Whether it is NaN is asked of the double that it is. The
line is written for the event before the counter moves. -/
def gotoValue (limit : Int) : Value → Action Machine Unit
  | .text _ => .halt .invalidGoto
  | .num a => do
    let x ← .ofEnding (.ofArithmetic a.toFloat)
    if (Number.float x).isNaN then .halt .invalidGoto
    else do
      let line ← .ofEnding (.ofArithmetic (clampLine limit a))
      let text ← .ofEnding (.ofArithmetic (Numeral.write line))
      .tell (.jump line text)
      Machine.jump line

/-- What an assignment does with the value on its right: keep it, or combine the old value of the
target with it. -/
inductive Assigning where
  | plain
  | compound (op : Operator)
deriving DecidableEq, Repr

namespace Assigning

/-- What an assignment operator means. -/
def ofSymbol? (symbol : String) : Option Assigning :=
  if symbol = "=" then some plain else (Operator.ofCompound? symbol).map compound

/-- The value that the target gets. -/
def combine (device : Option String) (target : Name) : Assigning → Value → Action Memory Value
  | plain, v => pure v
  | compound op, v => do
    let old ← evaluate device (.name target)
    .ofEnding (op.apply old v)

end Assigning

/-- Assigns to a name what an operator makes of the value of an expression. -/
def assign (device : Option String) (target : Name) (operator : String) (value : Expr) :
    Action Memory Unit := do
  let assigning ← .demand (Assigning.ofSymbol? operator) (.unsupportedAssignment operator)
  let v ← evaluate device value
  let new ← assigning.combine device target v
  Memory.write device target new

mutual

/-- Executes a statement for the chip of a device, where gotos are limited to the first `limit`
lines. -/
def execute (device : Option String) (limit : Int) : Stmt → Action Machine Unit
  | .assign target operator value => Machine.onMemory (assign device target operator value)
  | .goto target => do
    let v ← Machine.onMemory (evaluate device target)
    gotoValue limit v
  | .branch condition body none => do
    let v ← Machine.onMemory (evaluate device condition)
    if v.isFalse then pure () else executeBlock device limit body
  | .branch condition body (some other) => do
    let v ← Machine.onMemory (evaluate device condition)
    if v.isFalse then executeBlock device limit other else executeBlock device limit body
  | .comment _ => pure ()
  | .increment fixity operator operand => do
    let _ ← Machine.onMemory (evaluate device (.increment fixity operator operand))

def executeBlock (device : Option String) (limit : Int) : List Stmt → Action Machine Unit
  | [] => pure ()
  | s :: rest => do
    execute device limit s
    executeBlock device limit rest

end

/-! ### Any nodes -/

namespace Node

/-- Evaluates a node, which must be an expression. -/
def evaluate (device : Option String) : Node → Action Memory Value
  | expression e => ChipScript.evaluate device e
  | node => .reject (.notAnExpression node.kind)

/-- Executes a node, which must be a statement. -/
def execute (device : Option String) (limit : Int) : Node → Action Machine Unit
  | statement s => ChipScript.execute device limit s
  | node => .reject (.notAStatement node.kind)

end Node

end ChipScript
