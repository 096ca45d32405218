import ChipScript.Proofs.Frame
import ChipScript.Proofs.Jumps

/-!
# Reads and writes in order

A run reads and writes names. `Expr.accesses`, `assignAccesses` and `blockAccesses` list what it
reads and writes, in order and with the values, following the run: what is not evaluated is not
read, and what halts or fails writes nothing more.

`Explains` ties such a log to the locals. The log leads from some locals to others if the writes to
local names, one after another, make the ones into the others, and if every read of a local name
finds what was there at that moment. Logs that explain two runs in sequence explain both together
(`Explains.append`), so the log of every line explains what the line does to the locals
(`explains_executeBlock`). Then nothing but the log matters: a local holds what the log says was
last written to it (`Explains.getElem?_eq`), and a read in the log finds what was last written
before it (`Explains.read_eq`).
-/

namespace ChipScript

/-! ### Logs -/

/-- Something that happens to the names of a chip. -/
inductive Access where
  | read (name : Name) (value : Value)
  | write (name : Name) (value : Value)
  /-- The locals are forgotten. -/
  | clear
deriving DecidableEq, Repr

/-- What a name holds after an access, given what it held before. -/
def Access.held (name : Name) (before : Option Value) : Access → Option Value
  | read _ _ => before
  | write other value => if other = name then some value else before
  | clear => none

/-- The value that was last written to a name since the locals were last forgotten. -/
def lastWritten (name : Name) (log : List Access) : Option Value :=
  log.foldl (Access.held name) none

/-- The log leads from some locals to others, and what it says was read of them was there. -/
inductive Explains : Locals → List Access → Locals → Prop where
  | nil (locals : Locals) : Explains locals [] locals
  | read {locals after : Locals} {log : List Access} {name : Name} {value : Value}
      (found : name.scope = .chip → value = locals.getD name.key (.int 0))
      (rest : Explains locals log after) :
    Explains locals (.read name value :: log) after
  | writeLocal {locals after : Locals} {log : List Access} {name : Name} {value : Value}
      (hscope : name.scope = .chip) (rest : Explains (locals.insert name.key value) log after) :
    Explains locals (.write name value :: log) after
  | writeField {locals after : Locals} {log : List Access} {name : Name} {value : Value}
      (hscope : name.scope = .field) (rest : Explains locals log after) :
    Explains locals (.write name value :: log) after
  | clear {locals after : Locals} {log : List Access} (rest : Explains ∅ log after) :
    Explains locals (.clear :: log) after

theorem Name.key_eq_text {name : Name} (h : name.scope = .chip) : name.key = name.text := by
  simp [key, h]

theorem Name.key_inj {name other : Name} (h : name.scope = .chip) (hother : other.scope = .chip) :
    name.key = other.key ↔ name = other := by
  rw [key_eq_text h, key_eq_text hother, Name.mk.injEq]

namespace Explains

variable {locals middle after : Locals} {log log' : List Access} {name : Name}

/-- Logs of two parts, one after the other, explain the whole. -/
theorem append (h : Explains locals log middle) (h' : Explains middle log' after) :
    Explains locals (log ++ log') after := by
  induction h with
  | nil => exact h'
  | read found _ ih => exact .read found (ih h')
  | writeLocal hscope _ ih => exact .writeLocal hscope (ih h')
  | writeField hscope _ ih => exact .writeField hscope (ih h')
  | clear _ ih => exact .clear (ih h')

/-- A log of two parts can be cut at what the locals were in between. -/
theorem exists_of_append (h : Explains locals (log ++ log') after) :
    ∃ middle, Explains locals log middle ∧ Explains middle log' after := by
  induction log generalizing locals with
  | nil => exact ⟨locals, .nil locals, h⟩
  | cons access log ih =>
    cases h with
    | read found rest =>
      obtain ⟨middle, hfirst, hlast⟩ := ih rest
      exact ⟨middle, .read found hfirst, hlast⟩
    | writeLocal hscope rest =>
      obtain ⟨middle, hfirst, hlast⟩ := ih rest
      exact ⟨middle, .writeLocal hscope hfirst, hlast⟩
    | writeField hscope rest =>
      obtain ⟨middle, hfirst, hlast⟩ := ih rest
      exact ⟨middle, .writeField hscope hfirst, hlast⟩
    | clear rest =>
      obtain ⟨middle, hfirst, hlast⟩ := ih rest
      exact ⟨middle, .clear hfirst, hlast⟩

/-- What a local has in the end is what the log says of it. -/
theorem getElem?_eq_foldl (h : Explains locals log after) (hscope : name.scope = .chip) :
    after[name.key]? = log.foldl (Access.held name) locals[name.key]? := by
  induction h with
  | nil => rfl
  | read _ _ ih => exact ih
  | @writeLocal locals _ _ other value hother _ ih =>
    have hheld : (locals.insert other.key value)[name.key]? =
        Access.held name locals[name.key]? (.write other value) := by
      simp [Access.held, Std.ExtTreeMap.getElem?_insert, Name.key_inj hother hscope]
    rw [ih, List.foldl_cons, hheld]
  | @writeField locals _ _ other value hother _ ih =>
    have hne : other ≠ name := by
      rintro rfl
      cases hscope.symm.trans hother
    rw [ih, List.foldl_cons, Access.held, if_neg hne]
  | clear _ ih =>
    rw [ih, List.foldl_cons, Access.held, Std.ExtTreeMap.getElem?_empty]

/-- A local holds what was last written to it. -/
theorem getElem?_eq (h : Explains ∅ log after) (hscope : name.scope = .chip) :
    after[name.key]? = lastWritten name log := by
  rw [h.getElem?_eq_foldl hscope, Std.ExtTreeMap.getElem?_empty, lastWritten]

/-- A read of a local finds what was last written to it before, and zero if nothing was. -/
theorem read_eq {value : Value} (h : Explains ∅ (log ++ .read name value :: log') after)
    (hscope : name.scope = .chip) : value = (lastWritten name log).getD (.int 0) := by
  obtain ⟨middle, hfirst, hlast⟩ := h.exists_of_append
  cases hlast with
  | read found _ =>
    rw [found hscope, Std.ExtTreeMap.getD_eq_getD_getElem?, hfirst.getElem?_eq hscope]

/-- Only names of locals become keys. -/
theorem scope_of_mem (h : Explains locals log after)
    (hlocals : ∀ key ∈ locals, Name.scope ⟨key⟩ = .chip) :
    ∀ key ∈ after, Name.scope ⟨key⟩ = .chip := by
  induction h with
  | nil => exact hlocals
  | read _ _ ih => exact ih hlocals
  | @writeLocal locals _ _ other value hother _ ih =>
    apply ih
    intro key hkey
    rw [Std.ExtTreeMap.mem_insert, Std.LawfulEqCmp.compare_eq_iff_eq] at hkey
    rcases hkey with rfl | hkey
    · rw [Name.key_eq_text hother]
      exact hother
    · exact hlocals key hkey
  | writeField _ _ ih => exact ih hlocals
  | clear _ ih =>
    apply ih
    intro key hkey
    exact absurd hkey Std.ExtTreeMap.not_mem_empty

end Explains

/-! ### The log of a run -/

section

variable (device : Option String)

/-- What writing a name adds to a log. -/
def writeAccesses (name : Name) (value : Value) (m : Memory) : List Access :=
  (Memory.write device name value m).followed fun _ _ => [.write name value]

/-- What an increment adds to a log when it writes back. -/
def writeBackAccesses : Expr → Value → Memory → List Access
  | .name name, new, m => writeAccesses device name new m
  | _, _, _ => []

def Expr.accesses : Expr → Memory → List Access
  | .number _, _ | .text _, _ => []
  | .name n, m => (readName device n m).followed fun v _ => [.read n v]
  | .binary group operator left right, m =>
    if group.admits operator then
      left.accesses m ++ (evaluate device left m).followed fun _ m' => right.accesses m'
    else []
  | .keyword word operand, m =>
    if (Keyword.ofName? word).isSome then operand.accesses m else []
  | .increment _ operator operand, m =>
    match stepOf? operator with
    | some step =>
      operand.accesses m ++ (evaluate device operand m).followed fun old m' =>
        match old.toNumber?.map step with
        | some (.ok new) => writeBackAccesses device operand (.num new) m'
        | _ => []
    | none => []

/-- What an assignment reads of its target. -/
def Assigning.accesses (target : Name) : Assigning → Memory → List Access
  | plain, _ => []
  | compound _, m => (Expr.name target).accesses device m

def assignAccesses (target : Name) (operator : String) (value : Expr) (m : Memory) :
    List Access :=
  match Assigning.ofSymbol? operator with
  | some assigning =>
    value.accesses device m ++ (evaluate device value m).followed fun v m' =>
      assigning.accesses device target m' ++
        (assigning.combine device target v m').followed fun new m'' =>
          writeAccesses device target new m''
  | none => []

/-- What a statement reads and writes itself, without the statements inside it. -/
def Stmt.ownAccesses : Stmt → Memory → List Access
  | .assign target operator value, m => assignAccesses device target operator value m
  | .goto target, m => target.accesses device m
  | .branch condition _ _, m => condition.accesses device m
  | .comment _, _ => []
  | .increment fixity operator operand, m =>
    (Expr.increment fixity operator operand).accesses device m

/-- What statements read and write: each of those that are executed, in order. -/
def blockAccesses (limit : Int) (block : List Stmt) (m : Machine) : List Access :=
  (blockVisits device limit block m).flatMap fun visit =>
    visit.1.ownAccesses device visit.2.memory

end

/-! ### The log explains the run -/

theorem Run.flatMap_followed {σ α β γ : Type} (r : Run σ α) (next : α → σ → List β)
    (g : β → List γ) :
    (r.followed next).flatMap g = r.followed fun a s => (next a s).flatMap g := by
  unfold Run.followed
  cases r.ending <;> rfl

section

variable {σ α β : Type} (part : σ → Memory) {x : Action σ α} {f : α → Action σ β} {s : σ}
  {log : List Access}

/-- Two actions in sequence: the log of the second counts only if the first is done. -/
theorem explains_bind {next : α → σ → List Access}
    (hx : Explains (part s).locals log (part (x s).state).locals)
    (hf : ∀ a s', Explains (part s').locals (next a s') (part (f a s').state).locals) :
    Explains (part s).locals (log ++ (x s).followed next) (part ((x >>= f) s).state).locals := by
  rw [Action.bind_apply]
  unfold Run.followed
  cases (x s).ending with
  | done a => exact hx.append (hf a _)
  | halted why => simpa using hx
  | failed why => simpa using hx

/-- What follows without touching the locals adds nothing to the log. -/
theorem explains_bind_of_same (hx : Explains (part s).locals log (part (x s).state).locals)
    (hf : ∀ a s', (part (f a s').state).locals = (part s').locals) :
    Explains (part s).locals log (part ((x >>= f) s).state).locals := by
  rw [Action.bind_apply]
  cases (x s).ending with
  | done a =>
    show Explains _ _ (part (f a (x s).state).state).locals
    rw [hf]
    exact hx
  | halted why => exact hx
  | failed why => exact hx

end

section

variable (device : Option String)

theorem state_ofEnding {σ α : Type} (x : Ending α) (s : σ) : (Action.ofEnding x s).state = s := by
  cases x <;> rfl

theorem state_applySymbol {σ : Type} (symbol : String) (a b : Value) (s : σ) :
    (Operator.applySymbol symbol a b s).state = s := by
  have hkept := compositional_kept (fun s s' : σ => s' = s) (fun _ => rfl)
    fun _ _ _ h h' => h'.trans h
  exact hkept.sequential.applySymbol symbol a b s

/-- A goto moves the counter and nothing else. -/
theorem memory_gotoValue (limit : Int) (v : Value) (m : Machine) :
    (gotoValue limit v m).state.memory = m.memory := by
  cases v with
  | text s => rfl
  | num a =>
    rcases gotoValue_num_cases limit a m with ⟨_, _, hrun⟩ |
      ⟨_, ⟨_, hrun⟩ | ⟨_, _, _, ⟨_, hrun⟩ | ⟨_, hrun⟩⟩⟩ <;> rw [hrun]

/-- Reading gives no local a value, whether it succeeds or not. -/
theorem explains_read (name : Name) (m : Memory) :
    Explains m.locals ((readName device name m).followed fun v _ => [.read name v])
      (readName device name m).state.locals := by
  have hstate : (readName device name m).state = m := by
    unfold readName
    rw [Action.bind_apply]
    split
    · next found _ => cases found <;> exact Memory.state_read device name m
    · exact Memory.state_read device name m
    · exact Memory.state_read device name m
  rw [hstate]
  unfold Run.followed
  split
  · next v hv =>
    refine .read (fun hscope => ?_) (.nil _)
    have hfound : (readName device name m).ending =
        .done (m.locals.getD name.key (.int 0)) := by
      simp [readName, Action.bind_apply, Memory.read, hscope]
    exact Ending.done.inj (hv.symm.trans hfound)
  · exact .nil _

/-- Writing to a field gives no local a value either. -/
theorem explains_write (name : Name) (value : Value) (m : Memory) :
    Explains m.locals (writeAccesses device name value m)
      (Memory.write device name value m).state.locals := by
  unfold writeAccesses Run.followed Memory.write
  cases hscope : name.scope with
  | chip => exact .writeLocal hscope (.nil _)
  | field =>
    cases m.world with
    | none => exact .writeField hscope (.nil _)
    | some w =>
      dsimp only
      cases w.write device name.key value with
      | ok w' => exact .writeField hscope (.nil _)
      | error why => exact .nil _

theorem explains_writeBack (operand : Expr) (new : Value) (m : Memory) :
    Explains m.locals (writeBackAccesses device operand new m)
      (writeBack device operand new m).state.locals := by
  cases operand with
  | name name => exact explains_write device name new m
  | _ => exact .nil _

/-- The log of an expression explains what its evaluation does to the locals. -/
theorem explains_evaluate (e : Expr) (m : Memory) :
    Explains m.locals (e.accesses device m) (evaluate device e m).state.locals := by
  induction e generalizing m with
  | number text =>
    rw [Expr.accesses, evaluate]
    cases Number.ofLiteral? text <;> exact .nil _
  | text s => exact .nil _
  | name name => exact explains_read device name m
  | binary group operator left right ihl ihr =>
    rw [Expr.accesses, evaluate, Group.admits?]
    split
    · rw [Action.demand_some, Action.pure_bind]
      refine explains_bind id (ihl m) fun a m' => ?_
      refine explains_bind_of_same id (ihr m') fun b m'' => ?_
      exact congrArg Memory.locals (state_applySymbol operator a b m'')
    · exact .nil _
  | keyword word operand ih =>
    rw [Expr.accesses, evaluate]
    cases Keyword.ofName? word with
    | none => exact .nil _
    | some keyword =>
      rw [Action.demand_some, Action.pure_bind]
      refine explains_bind_of_same id (ih m) fun v m' => ?_
      exact congrArg Memory.locals (state_ofEnding (keyword.apply v) m')
  | increment fixity operator operand ih =>
    rw [Expr.accesses, evaluate]
    cases stepOf? operator with
    | none => exact .nil _
    | some step =>
      rw [Action.demand_some, Action.pure_bind]
      refine explains_bind id (ih m) fun old m' => ?_
      cases hold : old.toNumber? with
      | none =>
        simp only [Value.number, hold]
        exact .nil _
      | some a =>
        simp only [Value.number, hold, Action.ofEnding_done, Action.pure_bind, Option.map_some]
        cases step a with
        | error why => exact .nil _
        | ok new =>
          rw [Ending.ofArithmetic, Action.ofEnding_done, Action.pure_bind]
          exact explains_bind_of_same id (explains_writeBack device operand (.num new) m')
            fun _ _ => rfl

theorem explains_combine (target : Name) (assigning : Assigning) (v : Value) (m : Memory) :
    Explains m.locals (assigning.accesses device target m)
      (assigning.combine device target v m).state.locals := by
  cases assigning with
  | plain => exact .nil _
  | compound op =>
    refine explains_bind_of_same id (explains_evaluate device (.name target) m) ?_
    intro old m'
    exact congrArg Memory.locals (state_ofEnding (op.apply old v) m')

theorem explains_assign (target : Name) (operator : String) (value : Expr) (m : Memory) :
    Explains m.locals (assignAccesses device target operator value m)
      (assign device target operator value m).state.locals := by
  unfold assignAccesses assign
  cases Assigning.ofSymbol? operator with
  | none => exact .nil _
  | some assigning =>
    rw [Action.demand_some, Action.pure_bind]
    refine explains_bind id (explains_evaluate device value m) fun v m' => ?_
    refine explains_bind id (explains_combine device target assigning v m') ?_
    exact fun new m'' => explains_write device target new m''

/-- The log of statements explains what they do to the locals. -/
theorem explains_execute_and_executeBlock (limit : Int) :
    (∀ s m, Explains m.memory.locals
      ((s.visits device limit m).flatMap fun visit => visit.1.ownAccesses device visit.2.memory)
      (execute device limit s m).state.memory.locals) ∧
    ∀ block m, Explains m.memory.locals (blockAccesses device limit block m)
      (executeBlock device limit block m).state.memory.locals := by
  have hvalue (e : Expr) (m : Machine) : Explains m.memory.locals (e.accesses device m.memory)
      (Machine.onMemory (evaluate device e) m).state.memory.locals :=
    explains_evaluate device e m.memory
  apply Stmt.mutual_induction
  case assign =>
    intro target operator value m
    simp only [Stmt.visits, List.flatMap_singleton, execute]
    exact explains_assign device target operator value m.memory
  case goto =>
    intro target m
    simp only [Stmt.visits, List.flatMap_singleton, execute]
    refine explains_bind_of_same Machine.memory (hvalue target m) fun v m' => ?_
    exact congrArg Memory.locals (memory_gotoValue limit v m')
  case branch =>
    intro condition body ihBody m
    simp only [Stmt.visits, List.flatMap_cons, execute, Run.flatMap_followed]
    refine explains_bind Machine.memory (hvalue condition m) fun v m' => ?_
    split
    · exact .nil _
    · exact ihBody m'
  case branchElse =>
    intro condition body other ihBody ihOther m
    simp only [Stmt.visits, List.flatMap_cons, execute, Run.flatMap_followed]
    refine explains_bind Machine.memory (hvalue condition m) fun v m' => ?_
    split
    · exact ihOther m'
    · exact ihBody m'
  case comment =>
    intro text m
    simp only [Stmt.visits, List.flatMap_singleton, execute]
    exact .nil _
  case increment =>
    intro fixity operator operand m
    simp only [Stmt.visits, List.flatMap_singleton, execute]
    exact explains_bind_of_same Machine.memory
      (hvalue (.increment fixity operator operand) m) fun _ _ => rfl
  case nil =>
    intro m
    exact .nil _
  case cons =>
    intro s rest ihs ihrest m
    simp only [blockAccesses, blockVisits, List.flatMap_append, executeBlock, Run.flatMap_followed]
    exact explains_bind Machine.memory (ihs m) fun _ m' => ihrest m'

end

end ChipScript
