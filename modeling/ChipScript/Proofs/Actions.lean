import ChipScript.Execute

/-!
# Properties that pass from actions to what is made of them

Evaluating an expression and executing a statement are made of few primitive actions: having a
result, halting, failing, reading and writing a name, and, for statements, jumping. They are put
together by `bind` alone. So a property of actions that holds of the primitives and passes through
`bind` holds of every expression and every statement. `Sequential` collects what such a property has
to satisfy; the induction over expressions and statements is done here, once for all of them.

Two things are kept apart for the properties that tell them apart. The names that an expression or a
statement mentions are read, but only its `targets` are written. And only reading a name halts
because devices are in conflict; all other halts are over the values at hand (`OfValues`). A
property that holds of every halt is `Compositional`.
-/

namespace ChipScript

/-- Two steps that may be refused succeed only if both do. -/
theorem exists_of_bind_eq_ok {ε α β : Type} {x : Except ε α} {f : α → Except ε β} {b : β}
    (h : x >>= f = .ok b) : ∃ a, x = .ok a ∧ f a = .ok b := by
  cases x with
  | error why => cases h
  | ok a => exact ⟨a, rfl, h⟩

/-! ### Actions in sequence -/

namespace Action

variable {σ α β : Type}

/-- If a sequence is done, both of its parts are. -/
theorem exists_of_bind_done {x : Action σ α} {f : α → Action σ β} {s : σ} {b : β}
    (h : ((x >>= f) s).ending = .done b) :
    ∃ a, (x s).ending = .done a ∧ (f a (x s).state).ending = .done b ∧
      ((x >>= f) s).state = (f a (x s).state).state := by
  rw [bind_apply] at h ⊢
  cases hx : (x s).ending with
  | done a =>
    rw [hx] at h
    exact ⟨a, rfl, h, rfl⟩
  | halted why => rw [hx] at h; cases h
  | failed why => rw [hx] at h; cases h

theorem demand_done {a? : Option α} {why : InternalError} {s : σ} {a : α}
    (h : (demand a? why s).ending = .done a) : a? = some a ∧ (demand a? why s).state = s := by
  cases a? with
  | none => cases h
  | some a' => cases h; exact ⟨rfl, rfl⟩

/-- An ending is reached without touching the state. -/
theorem eq_done_of_ofEnding {x : Ending α} {s : σ} {a : α}
    (h : (ofEnding x s).ending = .done a) : x = .done a ∧ (ofEnding x s).state = s := by
  cases x with
  | done a' => cases h; exact ⟨rfl, rfl⟩
  | halted why => cases h
  | failed why => cases h

/-- What is not done ends a sequence, with the state that it left. -/
theorem bind_eq_of_not_done {x : Action σ α} {f : α → Action σ α} {s : σ}
    (h : ∀ a, (x s).ending ≠ .done a) : (x >>= f) s = x s := by
  rw [bind_apply]
  generalize x s = r at h
  obtain ⟨ending, s', t⟩ := r
  cases ending with
  | done a => exact absurd rfl (h a)
  | halted why => rfl
  | failed why => rfl

/-- What follows an action that is done matters only for its result and the state that it leaves. -/
theorem bind_congr_of_done {x : Action σ α} {f g : α → Action σ β} {s : σ} {a : α}
    (h : (x s).ending = .done a) (hfg : f a (x s).state = g a (x s).state) :
    (x >>= f) s = (x >>= g) s := by
  rw [bind_apply, bind_apply, h]
  simp only [hfg]

theorem pure_bind (a : α) (f : α → Action σ β) : (pure a >>= f) = f a := rfl

theorem bind_assoc {γ : Type} (x : Action σ α) (f : α → Action σ β) (g : β → Action σ γ) :
    x >>= f >>= g = x >>= fun a => f a >>= g := by
  funext s
  rw [bind_apply, bind_apply, bind_apply]
  cases (x s).ending with
  | halted why => rfl
  | failed why => rfl
  | done a =>
    simp only [bind_apply]
    cases (f a (x s).state).ending with
    | done b => simp only [List.append_assoc]
    | halted why => rfl
    | failed why => rfl

end Action

/-- Induction over statements and sequences of statements at once. A branch without an else part is
a case of its own. -/
theorem Stmt.mutual_induction {P : Stmt → Prop} {Q : List Stmt → Prop}
    (assign : ∀ target operator value, P (.assign target operator value))
    (goto : ∀ target, P (.goto target))
    (branch : ∀ condition body, Q body → P (.branch condition body none))
    (branchElse : ∀ condition body other, Q body → Q other →
      P (.branch condition body (some other)))
    (comment : ∀ text, P (.comment text))
    (increment : ∀ fixity operator operand, P (.increment fixity operator operand))
    (nil : Q []) (cons : ∀ s rest, P s → Q rest → Q (s :: rest)) :
    (∀ s, P s) ∧ ∀ block, Q block :=
  execute.mutual_induct P Q assign goto branch
    (fun condition body other hother hbody => branchElse condition body other hbody hother)
    comment increment nil cons

/-! ### Names that are written -/

def Expr.name? : Expr → Option Name
  | name n => some n
  | _ => none

/-- The names that evaluating an expression may write: those that are operands of increments. -/
def Expr.targets : Expr → List Name
  | number _ | text _ | name _ => []
  | binary _ _ left right => left.targets ++ right.targets
  | keyword _ operand => operand.targets
  | increment _ _ operand => operand.name?.toList ++ operand.targets

mutual

def Stmt.targets : Stmt → List Name
  | .assign target _ value => target :: value.targets
  | .goto target => target.targets
  | .branch condition body none => condition.targets ++ blockTargets body
  | .branch condition body (some other) =>
    condition.targets ++ blockTargets body ++ blockTargets other
  | .comment _ => []
  | .increment fixity operator operand => (Expr.increment fixity operator operand).targets

def blockTargets : List Stmt → List Name
  | [] => []
  | s :: rest => s.targets ++ blockTargets rest

end

theorem Expr.mem_names_of_name? {e : Expr} {name : Name} (h : e.name? = some name) :
    name ∈ e.names := by
  cases e with
  | name n =>
    cases h
    rw [names_name]
    exact List.mem_singleton.2 rfl
  | _ => cases h

/-- What an expression may write to is named in it. -/
theorem Expr.targets_subset_names (e : Expr) : e.targets ⊆ e.names := by
  induction e with
  | number text => exact List.nil_subset _
  | text s => exact List.nil_subset _
  | name n => exact List.nil_subset _
  | binary group operator left right ihl ihr =>
    rw [names_binary]
    exact List.append_subset.2 ⟨List.subset_append_of_subset_left _ ihl,
      List.subset_append_of_subset_right _ ihr⟩
  | keyword word operand ih =>
    rw [names_keyword]
    exact ih
  | increment fixity operator operand ih =>
    rw [names_increment]
    refine List.append_subset.2 ⟨fun name hname => ?_, ih⟩
    exact mem_names_of_name? (Option.mem_toList.1 hname)

/-- What statements may write to is named in them. -/
theorem Stmt.targets_subset_names_and_blockTargets_subset :
    (∀ s : Stmt, s.targets ⊆ s.names) ∧ ∀ block, blockTargets block ⊆ blockNames block := by
  apply Stmt.mutual_induction
  case assign =>
    intro target operator value
    rw [Stmt.targets, Stmt.names_assign]
    exact List.cons_subset_cons target value.targets_subset_names
  case goto =>
    intro target
    rw [Stmt.targets, Stmt.names_goto]
    exact target.targets_subset_names
  case branch =>
    intro condition body ihBody
    rw [Stmt.targets, Stmt.names_branch]
    exact List.append_subset.2 ⟨List.subset_append_of_subset_left _ condition.targets_subset_names,
      List.subset_append_of_subset_right _ ihBody⟩
  case branchElse =>
    intro condition body other ihBody ihOther
    rw [Stmt.targets, Stmt.names_branchElse, List.append_assoc, List.append_assoc]
    refine List.append_subset.2
      ⟨List.subset_append_of_subset_left _ condition.targets_subset_names,
        List.subset_append_of_subset_right _ (List.append_subset.2 ⟨?_, ?_⟩)⟩
    · exact List.subset_append_of_subset_left _ ihBody
    · exact List.subset_append_of_subset_right _ ihOther
  case comment =>
    intro text
    rw [Stmt.targets]
    exact List.nil_subset _
  case increment =>
    intro fixity operator operand
    rw [Stmt.targets, Stmt.names_increment, ← Expr.names_increment operator fixity operand]
    exact (Expr.increment fixity operator operand).targets_subset_names
  case nil =>
    rw [blockTargets]
    exact List.nil_subset _
  case cons =>
    intro s rest ihs ihrest
    rw [blockTargets, blockNames_cons]
    exact List.append_subset.2 ⟨List.subset_append_of_subset_left _ ihs,
      List.subset_append_of_subset_right _ ihrest⟩

/-! ### Mistakes in the values at hand -/

/-- The ending is no halt over devices in conflict. -/
def Ending.OfValues {α : Type} : Ending α → Prop
  | halted why => ∀ key, why ≠ .ambiguousField key
  | _ => True

namespace Ending

variable {α β : Type}

/-- No part of the sequence halts over devices in conflict, and so the whole does not. -/
theorem OfValues.bind {x : Ending α} {f : α → Ending β} (hx : x.OfValues)
    (hf : ∀ a, (f a).OfValues) : (x >>= f).OfValues := by
  cases x with
  | done a => exact hf a
  | halted why => exact hx
  | failed why => trivial

theorem ofValues_ofArithmetic (r : Except ArithmeticError α) : (ofArithmetic r).OfValues := by
  cases r <;> trivial

end Ending

theorem Value.ofValues_number (v : Value) : v.number.OfValues := by
  unfold Value.number
  split
  · trivial
  · exact nofun

namespace Operator

theorem ofValues_onNumbers {op : Number → Number → Ending Number}
    (hop : ∀ x y, (op x y).OfValues) (a b : Value) : (onNumbers op a b).OfValues :=
  a.ofValues_number.bind fun x => b.ofValues_number.bind fun y => (hop x y).bind fun _ => trivial

theorem ofValues_unguarded (op : Number → Number → Except ArithmeticError Number)
    (x y : Number) : (unguarded op x y).OfValues :=
  Ending.ofValues_ofArithmetic _

theorem ofValues_guarded {why : ScriptError} (hwhy : ∀ key, why ≠ .ambiguousField key)
    (op : Number → Number → Except ArithmeticError Number) (x y : Number) :
    (guarded why op x y).OfValues := by
  unfold guarded
  split
  · exact hwhy
  · exact Ending.ofValues_ofArithmetic _

theorem ofValues_inOrder (orders : List Ordering) (a b : Value) :
    (inOrder orders a b).OfValues := by
  refine Ending.OfValues.bind ?_ fun _ => trivial
  unfold order
  split
  · trivial
  · trivial
  · exact nofun

/-- An operator never halts over devices in conflict: it gets values only. -/
theorem ofValues_apply (op : Operator) (a b : Value) : (op.apply a b).OfValues := by
  cases op with
  | power | times | minus => exact ofValues_onNumbers (ofValues_unguarded _) a b
  | divide | modulo =>
    refine ofValues_onNumbers (ofValues_guarded ?_ _) a b
    exact nofun
  | plus =>
    rw [apply]
    split
    · refine (Ending.ofValues_ofArithmetic _).bind fun _ => ?_
      exact (Ending.ofValues_ofArithmetic _).bind fun _ => trivial
    · exact ofValues_onNumbers (ofValues_unguarded _) a b
  | equal | unequal => trivial
  | greater | atLeast | less | atMost => exact ofValues_inOrder _ a b

end Operator

/-- A keyword never halts over devices in conflict. -/
theorem Keyword.ofValues_apply (keyword : Keyword) (v : Value) : (keyword.apply v).OfValues := by
  cases keyword with
  | not => trivial
  | math keyword => exact v.ofValues_number.bind fun _ => trivial

/-! ### Sequences -/

/-- A property of actions that holds of those which do nothing, and of two actions in sequence if it
holds of both. Of halts over devices in conflict it need not hold. -/
structure Sequential {σ : Type} (P : ∀ α : Type, Action σ α → Prop) : Prop where
  pure : ∀ {α : Type} (a : α), P α (Pure.pure a)
  fail : ∀ {α : Type} (why : Fault), P α (.fail why)
  halt : ∀ {α : Type} {why : ScriptError}, (∀ key, why ≠ .ambiguousField key) → P α (.halt why)
  bind : ∀ {α β : Type} {x : Action σ α} {f : α → Action σ β},
    P α x → (∀ a, P β (f a)) → P β (x >>= f)

namespace Sequential

section Basic

variable {σ : Type} {P : ∀ α : Type, Action σ α → Prop}

theorem demand (h : Sequential P) {α : Type} (a? : Option α) (why : InternalError) :
    P α (.demand a? why) := by
  cases a? with
  | none => exact h.fail _
  | some a => exact h.pure a

theorem ofEnding (h : Sequential P) {α : Type} {x : Ending α} (hx : x.OfValues) :
    P α (.ofEnding x) := by
  cases x with
  | done a => exact h.pure a
  | halted why => exact h.halt hx
  | failed why => exact h.fail why

theorem ofArithmetic (h : Sequential P) {α : Type} (r : Except ArithmeticError α) :
    P α (.ofEnding (.ofArithmetic r)) :=
  h.ofEnding (Ending.ofValues_ofArithmetic r)

/-- Applying an operator has the property, since it halts over its operands only. -/
theorem applySymbol (h : Sequential P) (symbol : String) (a b : Value) :
    P Value (Operator.applySymbol symbol a b) := by
  unfold Operator.applySymbol
  split
  · next op _ => exact h.ofEnding (op.ofValues_apply a b)
  · refine h.bind (h.ofEnding a.ofValues_number) fun _ => ?_
    exact h.bind (h.ofEnding b.ofValues_number) fun _ => h.fail _

end Basic

/-! ### Expressions -/

section Memory

variable {device : Option String} {P : ∀ α : Type, Action Memory α → Prop}

/-- The property holds of every expression, if it holds of reading its names and of writing its
targets. -/
theorem evaluate (h : Sequential P) {e : Expr}
    (hread : ∀ name ∈ e.names, P Value (readName device name))
    (hwrite : ∀ name ∈ e.targets, ∀ v, P Unit (Memory.write device name v)) :
    P Value (evaluate device e) := by
  induction e with
  | number text => exact h.bind (h.demand _ _) fun _ => h.pure _
  | text s => exact h.pure _
  | name name => exact hread name (by simp)
  | binary group operator left right ihl ihr =>
    simp only [Expr.names_binary, Expr.targets, List.forall_mem_append] at hread hwrite
    refine h.bind (h.demand _ _) fun _ => h.bind (ihl hread.1 hwrite.1) fun a => ?_
    exact h.bind (ihr hread.2 hwrite.2) fun b => h.applySymbol operator a b
  | keyword word operand ih =>
    rw [Expr.names_keyword] at hread
    refine h.bind (h.demand _ _) fun keyword => h.bind (ih hread hwrite) fun v => ?_
    exact h.ofEnding (keyword.ofValues_apply v)
  | increment fixity operator operand ih =>
    rw [Expr.names_increment] at hread
    simp only [Expr.targets, List.forall_mem_append, Option.mem_toList] at hwrite
    refine h.bind (h.demand _ _) fun step => h.bind (ih hread hwrite.2) fun old => ?_
    refine h.bind (h.ofEnding old.ofValues_number) fun a => h.bind (h.ofArithmetic _) fun new => ?_
    refine h.bind ?_ fun _ => h.pure _
    cases operand with
    | name name => exact hwrite.1 name rfl _
    | _ => exact h.pure _

/-- An assignment has the property if reading has it for all names and writing for all targets. -/
theorem assign (h : Sequential P) {target : Name} (operator : String) {value : Expr}
    (hread : ∀ name ∈ target :: value.names, P Value (readName device name))
    (hwrite : ∀ name ∈ target :: value.targets, ∀ v, P Unit (Memory.write device name v)) :
    P Unit (assign device target operator value) := by
  obtain ⟨hreadTarget, hreadValue⟩ := List.forall_mem_cons.1 hread
  obtain ⟨hwriteTarget, hwriteValue⟩ := List.forall_mem_cons.1 hwrite
  have hvalue := h.evaluate hreadValue hwriteValue
  refine h.bind (h.demand _ _) fun assigning => h.bind hvalue fun v => ?_
  refine h.bind ?_ fun new => hwriteTarget new
  cases assigning with
  | plain => exact h.pure v
  | compound op =>
    -- The target is read as an expression with one name.
    have hold : P Value (ChipScript.evaluate device (.name target)) := hreadTarget
    exact h.bind hold fun old => h.ofEnding (op.ofValues_apply old v)

end Memory

/-! ### Statements -/

section Machine

variable {device : Option String} {limit : Int} {R : ∀ α : Type, Action Machine α → Prop}

/-- A goto has the property if announcing a jump and making it have it. -/
theorem gotoValue (h : Sequential R) (htell : ∀ line text, R Unit (.tell (.jump line text)))
    (hjump : ∀ line, R Unit (Machine.jump line)) (v : Value) : R Unit (gotoValue limit v) := by
  cases v with
  | text s => exact h.halt nofun
  | num a =>
    refine h.bind (h.ofArithmetic _) fun x => ?_
    split
    · exact h.halt nofun
    · refine h.bind (h.ofArithmetic _) fun line => h.bind (h.ofArithmetic _) fun text => ?_
      exact h.bind (htell line text) fun _ => hjump line

variable {K W : Name → Prop} (hR : Sequential R)
  (htell : ∀ line text, R Unit (.tell (.jump line text)))
  (hjump : ∀ line, R Unit (Machine.jump line))

section

variable
  (hevaluate : ∀ e : Expr, (∀ name ∈ e.names, K name) → (∀ name ∈ e.targets, W name) →
    R Value (Machine.onMemory (ChipScript.evaluate device e)))
  (hassign : ∀ (target : Name) (operator : String) (value : Expr),
    (∀ name ∈ target :: value.names, K name) → (∀ name ∈ target :: value.targets, W name) →
      R Unit (Machine.onMemory (ChipScript.assign device target operator value)))

include hR htell hjump hevaluate hassign in
/-- The property holds of every statement and of every sequence of statements, if it holds of the
expressions and assignments with the same names and targets. -/
theorem execute_and_executeBlock_of_expressions :
    (∀ s : Stmt, (∀ name ∈ s.names, K name) → (∀ name ∈ s.targets, W name) →
      R Unit (execute device limit s)) ∧
    ∀ block : List Stmt, (∀ name ∈ blockNames block, K name) →
      (∀ name ∈ blockTargets block, W name) → R Unit (executeBlock device limit block) := by
  apply Stmt.mutual_induction
  case assign =>
    intro target operator value hnames htargets
    rw [Stmt.names_assign] at hnames
    rw [Stmt.targets] at htargets
    exact hassign target operator value hnames htargets
  case goto =>
    intro target hnames htargets
    rw [Stmt.names_goto] at hnames
    rw [Stmt.targets] at htargets
    exact hR.bind (hevaluate target hnames htargets) fun v => hR.gotoValue htell hjump v
  case branch =>
    intro condition body ihBody hnames htargets
    simp only [Stmt.names_branch, List.forall_mem_append] at hnames
    simp only [Stmt.targets, List.forall_mem_append] at htargets
    refine hR.bind (hevaluate condition hnames.1 htargets.1) fun v => ?_
    split
    · exact hR.pure ()
    · exact ihBody hnames.2 htargets.2
  case branchElse =>
    intro condition body other ihBody ihOther hnames htargets
    simp only [Stmt.names_branchElse, List.forall_mem_append] at hnames
    simp only [Stmt.targets, List.forall_mem_append] at htargets
    refine hR.bind (hevaluate condition hnames.1.1 htargets.1.1) fun v => ?_
    split
    · exact ihOther hnames.2 htargets.2
    · exact ihBody hnames.1.2 htargets.1.2
  case comment =>
    intro text _ _
    exact hR.pure ()
  case increment =>
    intro fixity operator operand hnames htargets
    rw [Stmt.names_increment, ← Expr.names_increment operator fixity operand] at hnames
    rw [Stmt.targets] at htargets
    refine hR.bind (hevaluate (.increment fixity operator operand) hnames htargets) fun _ => ?_
    exact hR.pure ()
  case nil =>
    intro _ _
    exact hR.pure ()
  case cons =>
    intro s rest ihs ihrest hnames htargets
    simp only [blockNames_cons, List.forall_mem_append] at hnames
    simp only [blockTargets, List.forall_mem_append] at htargets
    exact hR.bind (ihs hnames.1 htargets.1) fun _ => ihrest hnames.2 htargets.2

end

variable {P : ∀ α : Type, Action Memory α → Prop} (hP : Sequential P)
  (hlift : ∀ {α : Type} {x : Action Memory α}, P α x → R α (Machine.onMemory x))

include hR htell hjump hP hlift in
/-- The property holds of a sequence of statements, if its counterpart for memories holds of reading
the names and of writing the targets of the statements. -/
theorem executeBlock {block : List Stmt}
    (hread : ∀ name ∈ blockNames block, P Value (readName device name))
    (hwrite : ∀ name ∈ blockTargets block, ∀ v, P Unit (Memory.write device name v)) :
    R Unit (executeBlock device limit block) := by
  refine (hR.execute_and_executeBlock_of_expressions htell hjump ?_ ?_).2 block hread hwrite
  · intro e hnames htargets
    exact hlift (hP.evaluate hnames htargets)
  · intro target operator value hnames htargets
    exact hlift (hP.assign operator hnames htargets)

end Machine

end Sequential

/-! ### Properties of every halt -/

/-- A property of actions that holds of those which do nothing, and of two actions in sequence if it
holds of both. -/
structure Compositional {σ : Type} (P : ∀ α : Type, Action σ α → Prop) : Prop where
  pure : ∀ {α : Type} (a : α), P α (Pure.pure a)
  halt : ∀ {α : Type} (why : ScriptError), P α (.halt why)
  fail : ∀ {α : Type} (why : Fault), P α (.fail why)
  bind : ∀ {α β : Type} {x : Action σ α} {f : α → Action σ β},
    P α x → (∀ a, P β (f a)) → P β (x >>= f)

namespace Compositional

/-- A property of every halt is one of the halts over values in particular. -/
theorem sequential {σ : Type} {P : ∀ α : Type, Action σ α → Prop} (h : Compositional P) :
    Sequential P :=
  ⟨h.pure, h.fail, fun _ => h.halt _, h.bind⟩

section Memory

variable {device : Option String} {P : ∀ α : Type, Action Memory α → Prop} {K : Name → Prop}

theorem readName (h : Compositional P) {name : Name}
    (hread : P FieldRead (Memory.read device name)) :
    P Value (readName device name) := by
  refine h.bind hread fun found => ?_
  cases found with
  | found v => exact h.pure v
  | missing => exact h.pure _
  | conflicting => exact h.halt _

/-- The property holds of every expression, if it holds of reading and writing its names. -/
theorem evaluate_of_names (h : Compositional P)
    (hread : ∀ name, K name → P FieldRead (Memory.read device name))
    (hwrite : ∀ name v, K name → P Unit (Memory.write device name v)) {e : Expr}
    (he : ∀ name ∈ e.names, K name) : P Value (evaluate device e) :=
  h.sequential.evaluate (fun name hname => h.readName (hread name (he name hname)))
    fun name hname v => hwrite name v (he name (e.targets_subset_names hname))

theorem assign_of_names (h : Compositional P)
    (hread : ∀ name, K name → P FieldRead (Memory.read device name))
    (hwrite : ∀ name v, K name → P Unit (Memory.write device name v)) {target : Name}
    (operator : String) {value : Expr} (ht : K target) (hvalue : ∀ name ∈ value.names, K name) :
    P Unit (assign device target operator value) := by
  have hnames : ∀ name ∈ target :: value.names, K name := List.forall_mem_cons.2 ⟨ht, hvalue⟩
  refine h.sequential.assign operator
    (fun name hname => h.readName (hread name (hnames name hname)))
    fun name hname v => hwrite name v (hnames name ?_)
  exact List.cons_subset_cons target value.targets_subset_names hname

/-- If every read and every write has the property, every expression has it. -/
theorem evaluate (h : Compositional P) (hread : ∀ name, P FieldRead (Memory.read device name))
    (hwrite : ∀ name v, P Unit (Memory.write device name v)) (e : Expr) :
    P Value (evaluate device e) :=
  h.evaluate_of_names (fun name _ => hread name) (fun name v _ => hwrite name v)
    fun _ _ => trivial

/-- If every read and every write has the property, every assignment has it. -/
theorem assign (h : Compositional P) (hread : ∀ name, P FieldRead (Memory.read device name))
    (hwrite : ∀ name v, P Unit (Memory.write device name v)) (target : Name) (operator : String)
    (value : Expr) : P Unit (assign device target operator value) :=
  h.assign_of_names (fun name _ => hread name) (fun name v _ => hwrite name v) operator trivial
    fun _ _ => trivial

end Memory

section Machine

variable {device : Option String} {limit : Int} {R : ∀ α : Type, Action Machine α → Prop}
  {K : Name → Prop}

section

variable (hR : Compositional R) (htell : ∀ line text, R Unit (.tell (.jump line text)))
  (hjump : ∀ line, R Unit (Machine.jump line))
  (hevaluate : ∀ e : Expr, (∀ name ∈ e.names, K name) →
    R Value (Machine.onMemory (ChipScript.evaluate device e)))
  (hassign : ∀ (target : Name) (operator : String) (value : Expr), K target →
    (∀ name ∈ value.names, K name) →
    R Unit (Machine.onMemory (ChipScript.assign device target operator value)))

include hR htell hjump hevaluate hassign in
/-- The property holds of every statement and of every sequence of statements, if it holds of the
expressions and assignments with the same names. -/
theorem execute_and_executeBlock_of_names :
    (∀ s : Stmt, (∀ name ∈ s.names, K name) → R Unit (execute device limit s)) ∧
      ∀ block : List Stmt, (∀ name ∈ blockNames block, K name) →
        R Unit (executeBlock device limit block) := by
  obtain ⟨hs, hblock⟩ := Stmt.targets_subset_names_and_blockTargets_subset
  have hassign' (target : Name) (operator : String) (value : Expr)
      (hnames : ∀ name ∈ target :: value.names, K name)
      (_ : ∀ name ∈ target :: value.targets, K name) :
      R Unit (Machine.onMemory (ChipScript.assign device target operator value)) := by
    obtain ⟨ht, hvalue⟩ := List.forall_mem_cons.1 hnames
    exact hassign target operator value ht hvalue
  obtain ⟨hexecute, hexecuteBlock⟩ := hR.sequential.execute_and_executeBlock_of_expressions htell
    hjump (fun e hnames _ => hevaluate e hnames) hassign'
  refine ⟨fun s hnames => ?_, fun block hnames => ?_⟩
  · exact hexecute s hnames fun name hname => hnames name (hs s hname)
  · exact hexecuteBlock block hnames fun name hname => hnames name (hblock block hname)

end

variable (hR : Compositional R) (htell : ∀ line text, R Unit (.tell (.jump line text)))
  (hjump : ∀ line, R Unit (Machine.jump line))
  (hevaluate : ∀ e, R Value (Machine.onMemory (ChipScript.evaluate device e)))
  (hassign : ∀ target operator value,
    R Unit (Machine.onMemory (ChipScript.assign device target operator value)))

include hR htell hjump hevaluate hassign in
/-- If reads, writes and jumps have the property, all statements and all blocks have it. -/
theorem execute_and_executeBlock :
    (∀ s, R Unit (execute device limit s)) ∧ ∀ block, R Unit (executeBlock device limit block) := by
  have hnames (K : Name → Prop) :
      (∀ s : Stmt, (∀ name ∈ s.names, K name) → R Unit (execute device limit s)) ∧
        ∀ block : List Stmt, (∀ name ∈ blockNames block, K name) →
          R Unit (executeBlock device limit block) :=
    hR.execute_and_executeBlock_of_names htell hjump (fun e _ => hevaluate e)
      fun target operator value _ _ => hassign target operator value
  obtain ⟨hs, hblock⟩ := hnames fun _ => True
  exact ⟨fun s => hs s fun _ _ => trivial, fun block => hblock block fun _ _ => trivial⟩

end Machine

end Compositional

end ChipScript
