import ChipScript.Name
import ChipScript.Run
import ChipScript.World

/-!
# Memory

What a running chip reads and writes: its own locals, and the world if there is one. A local that
was never written reads as zero, and so does a field that no device exposes. Without a world, fields
read as zero too and writing them has no effect.

The chip's device is its view of the world; it is a parameter and never changes.
-/

namespace ChipScript

/-- Values of local variables by name. -/
abbrev Locals := Std.ExtTreeMap String Value

/-- The locals of a chip and the world around it. -/
structure Memory where
  locals : Locals := ∅
  world : Option World := none

namespace Memory

/-- Reads a name. What is found is a value or a conflict. -/
def read (device : Option String) (name : Name) : Action Memory FieldRead := fun m =>
  match name.scope, m.world with
  | .chip, _ => ⟨.done (.found (m.locals.getD name.key (.int 0))), m, []⟩
  | .field, none => ⟨.done (.found (.int 0)), m, [.readWithoutWorld name.text]⟩
  | .field, some w =>
    match w.read device name.key with
    | .ok (.missing, trace) => ⟨.done (.found (.int 0)), m, trace⟩
    | .ok (found, trace) => ⟨.done found, m, trace⟩
    | .error e => ⟨.failed (.device e), m, []⟩

def write (device : Option String) (name : Name) (value : Value) : Action Memory Unit := fun m =>
  match name.scope, m.world with
  | .chip, _ => ⟨.done (), { m with locals := m.locals.insert name.key value }, []⟩
  | .field, none => ⟨.done (), m, [.writeWithoutWorld name.text]⟩
  | .field, some w =>
    match w.write device name.key value with
    | .ok w' => ⟨.done (), { m with world := some w' }, []⟩
    | .error e => ⟨.failed (.device e), m, []⟩

def get (device : Option String) (name : Name) : Action Memory (Option Value) := do
  return (← read device name).value?

def clear (m : Memory) : Memory :=
  { m with locals := ∅ }

end Memory

end ChipScript
