/-!
# Names

A name belongs to one of two namespaces, told apart by its first character. A name that starts with
a colon denotes a field of a device in the world, and the rest of it is the key to look the field up
with; any other name denotes a local variable of the chip and is its own key.
-/

namespace ChipScript

structure Name where
  text : String
deriving DecidableEq, Repr

/-- Where a name is looked up. -/
inductive Scope where
  | chip
  | field
deriving DecidableEq, Repr

namespace Name

/-- The mark in front of a field name. -/
def fieldMark : Char := ':'

def scope (name : Name) : Scope :=
  if name.text.toList.head? = some fieldMark then .field else .chip

def isField (name : Name) : Bool :=
  name.scope = .field

/-- What the name is looked up by. -/
def key (name : Name) : String :=
  match name.scope with
  | .chip => name.text
  | .field => String.ofList name.text.toList.tail

end Name

end ChipScript
