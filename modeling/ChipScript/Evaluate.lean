import ChipScript.Memory
import ChipScript.Operator
import ChipScript.Program

/-!
# Evaluating expressions

The value of an expression in a memory. Operators, keywords and increments are checked before their
operands are evaluated, operands are evaluated from left to right, and the first ending without a
value is the ending of the whole.

An increment adds one to its operand or takes one away. If the operand is a name, the new value is
written back; standing before its operand the increment has the new value, standing after it the
old one, as it was before coercion.
-/

namespace ChipScript

def readName (device : Option String) (name : Name) : Action Memory Value := do
  match ← Memory.read device name with
  | .found v => return v
  | .missing => return .int 0
  | .conflicting => .halt (.ambiguousField name.key)

/-- The change that an increment operator makes. -/
def stepOf? (operator : String) : Option (Number → Except ArithmeticError Number) :=
  if operator = "++" then some (·.add (.int 1))
  else if operator = "--" then some (·.sub (.int 1))
  else none

/-- Keywords: the logical negation and the mathematical ones. -/
inductive Keyword where
  | not
  | math (keyword : MathKeyword)
deriving DecidableEq, Repr

namespace Keyword

def ofName? (name : String) : Option Keyword :=
  if Text.lower name = "not" then some not else (MathKeyword.ofName? (Text.lower name)).map math

/-- Applies a keyword. Only the negation takes every value. -/
def apply : Keyword → Value → Ending Value
  | not, v => .done (.ofBool v.isFalse)
  | math keyword, v => do return .num (keyword.apply (← v.number))

end Keyword

/-- Writes the new value of an increment back, if the operand is a name. -/
def writeBack (device : Option String) : Expr → Value → Action Memory Unit
  | .name name, new => Memory.write device name new
  | _, _ => pure ()

def evaluate (device : Option String) : Expr → Action Memory Value
  | .number text => do
    let a ← .demand (Number.ofLiteral? text) (.badLiteral text)
    return .num a
  | .text s => pure (.text s)
  | .name name => readName device name
  | .binary group operator left right => do
    .demand (group.admits? operator) (.operatorOutsideGroup operator group.tag)
    let a ← evaluate device left
    let b ← evaluate device right
    Operator.applySymbol operator a b
  | .keyword word operand => do
    let keyword ← .demand (Keyword.ofName? word) (.unknownKeyword word)
    let v ← evaluate device operand
    .ofEnding (keyword.apply v)
  | .increment fixity operator operand => do
    let step ← .demand (stepOf? operator) (.unknownIncrement operator)
    let old ← evaluate device operand
    let a ← .ofEnding old.number
    let new ← .ofEnding (.ofArithmetic (step a))
    writeBack device operand (.num new)
    return fixity.pick (.num new) old

end ChipScript
