import ChipScript.Event

/-!
# Runs

Evaluating an expression or executing a statement is an `Action`: from a state it leads to a `Run`,
which says how it ended, the state that it left behind, and what happened on the way. An action
ends in one of three ways (`Ending`): with a result, halted by a mistake of the script, or failed.
In all three cases the state is the one reached so far, so nothing is undone.

Actions follow one another by `bind`: the second runs only if the first was done, from the state
that the first left, and its trace is appended. What needs no state is an `Ending` by itself, and
endings follow one another in the same way.
-/

namespace ChipScript

/-- How an action ended. -/
inductive Ending (α : Type) where
  | done (result : α)
  | halted (why : ScriptError)
  | failed (why : Fault)
deriving DecidableEq, Repr

namespace Ending

/-- Goes on from a result, and keeps an ending without one. -/
def bind {α β : Type} : Ending α → (α → Ending β) → Ending β
  | done a, f => f a
  | halted why, _ => halted why
  | failed why, _ => failed why

instance : Monad Ending where
  pure := done
  bind := bind

/-- Fails where an operation of arithmetic does. -/
def ofArithmetic {α : Type} : Except ArithmeticError α → Ending α
  | .ok a => done a
  | .error why => failed (.arithmetic why)

end Ending

/-- What an action did. -/
structure Run (σ α : Type) where
  ending : Ending α
  state : σ
  trace : Trace := []

/-- A computation on a state. -/
def Action (σ α : Type) : Type := σ → Run σ α

namespace Action

variable {σ τ α β : Type}

/-- Does nothing and has a result. -/
def result (a : α) : Action σ α := fun s => ⟨.done a, s, []⟩

/-- Does nothing more after an ending without a result. -/
def bind (x : Action σ α) (f : α → Action σ β) : Action σ β := fun s =>
  let r := x s
  match r.ending with
  | .done a =>
    let r' := f a r.state
    ⟨r'.ending, r'.state, r.trace ++ r'.trace⟩
  | .halted why => ⟨.halted why, r.state, r.trace⟩
  | .failed why => ⟨.failed why, r.state, r.trace⟩

instance : Monad (Action σ) where
  pure := result
  bind := bind

def fail (why : Fault) : Action σ α := fun s => ⟨.failed why, s, []⟩

/-- Ends because the chip does not know how to execute a node. -/
def reject (why : InternalError) : Action σ α := fail (.internal why)

/-- Goes on with what there is, and ends if there is nothing. -/
def demand (a? : Option α) (why : InternalError) : Action σ α :=
  match a? with
  | some a => result a
  | none => reject why

def halt (why : ScriptError) : Action σ α := fun s => ⟨.halted why, s, [.halting why]⟩

/-- Ends in a given way, and tells of a mistake of the script. -/
def ofEnding : Ending α → Action σ α
  | .done a => result a
  | .halted why => halt why
  | .failed why => fail why

def tell (e : Event) : Action σ Unit := fun s => ⟨.done (), s, [e]⟩

/-- Acts on a part of the state. -/
def within (part : τ → σ) (restore : τ → σ → τ) (x : Action σ α) : Action τ α := fun t =>
  let r := x (part t)
  ⟨r.ending, restore t r.state, r.trace⟩

/-! ### What actions come to -/

@[simp] theorem pure_apply (a : α) (s : σ) : (pure a : Action σ α) s = ⟨.done a, s, []⟩ := rfl

@[simp] theorem fail_apply (why : Fault) (s : σ) :
    (fail why : Action σ α) s = ⟨.failed why, s, []⟩ := rfl

@[simp] theorem reject_apply (why : InternalError) (s : σ) :
    (reject why : Action σ α) s = ⟨.failed (.internal why), s, []⟩ := rfl

@[simp] theorem halt_apply (why : ScriptError) (s : σ) :
    (halt why : Action σ α) s = ⟨.halted why, s, [.halting why]⟩ := rfl

@[simp] theorem tell_apply (e : Event) (s : σ) : (tell e : Action σ Unit) s = ⟨.done (), s, [e]⟩ :=
  rfl

@[simp] theorem demand_some (a : α) (why : InternalError) :
    (demand (some a) why : Action σ α) = pure a := rfl

@[simp] theorem demand_none (why : InternalError) :
    (demand none why : Action σ α) = reject why := rfl

@[simp] theorem ofEnding_done (a : α) : (ofEnding (.done a) : Action σ α) = pure a := rfl

@[simp] theorem ofEnding_halted (why : ScriptError) :
    (ofEnding (.halted why) : Action σ α) = halt why := rfl

@[simp] theorem ofEnding_failed (why : Fault) :
    (ofEnding (.failed why) : Action σ α) = fail why := rfl

/-- A sequence stops at the first part that is not done. -/
theorem bind_apply (x : Action σ α) (f : α → Action σ β) (s : σ) :
    (x >>= f) s = match (x s).ending with
      | .done a => ⟨(f a (x s).state).ending, (f a (x s).state).state,
          (x s).trace ++ (f a (x s).state).trace⟩
      | .halted why => ⟨.halted why, (x s).state, (x s).trace⟩
      | .failed why => ⟨.failed why, (x s).state, (x s).trace⟩ := rfl

/-- After an action that was done the next one runs, from the state that it left. -/
theorem bind_of_done {x : Action σ α} {f : α → Action σ β} {s s' : σ} {a : α} {t : Trace}
    (h : x s = ⟨.done a, s', t⟩) :
    (x >>= f) s = ⟨(f a s').ending, (f a s').state, t ++ (f a s').trace⟩ := by
  rw [bind_apply, h]

end Action

end ChipScript
