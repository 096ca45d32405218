import ChipScript.Proofs.Failures

/-!
# Assignments that are short for others

A compound assignment `x op= e` is short for `x = x op e`, and an increment that stands alone is
short for adding one or taking it away. None of them runs as what it is short for: the compound
assignment evaluates `e` before it reads `x` and the expansion afterwards, and an increment has its
own way from the old value to the new one.

* Where `e` does not change what `x` reads as, reading before or after `e` makes no difference
  (`Action.exists_swap`): the runs end alike and leave the same, and at most the place differs at
  which the read itself is told.
* What an increment does to a value is what the operator does to the value and one
  (`Operator.minus_apply_one`, `Operator.plus_apply_one`), except that a sum joins texts.
-/

namespace ChipScript

/-! ### Actions in sequence -/

namespace Action

variable {σ α β γ : Type}

/-- What follows an action matters only at its result and at the state that it leaves. -/
theorem bind_congr_at {x : Action σ α} {f g : α → Action σ β} {s : σ}
    (h : ∀ a, (x s).ending = .done a → f a (x s).state = g a (x s).state) :
    (x >>= f) s = (x >>= g) s := by
  by_cases hdone : ∃ a, (x s).ending = .done a
  · obtain ⟨a, ha⟩ := hdone
    exact bind_congr_of_done ha (h a ha)
  · exact bind_eq_bind_of_not_done (not_exists.1 hdone) f g

theorem bind_pure_unit (x : Action σ Unit) : (x >>= fun _ => pure ()) = x := by
  funext s
  rw [bind_apply]
  generalize x s = r
  obtain ⟨ending, s', t⟩ := r
  cases ending <;> simp

/-- An action that has the same result, the same trace and no effect before and after another one
may go first or second. In the trace its own events come first, or where it runs, or nowhere if it
goes second and is not reached. -/
theorem exists_swap {x : Action σ α} {y : Action σ β} {s : σ} {a : α} {t : Trace}
    (hbefore : x s = ⟨.done a, s, t⟩) (hafter : x (y s).state = ⟨.done a, (y s).state, t⟩)
    (k : α → β → Action σ γ) :
    ∃ (ending : Ending γ) (s' : σ) (early late rest : Trace), (late = [] ∨ late = t) ∧
      (y >>= fun b => x >>= fun a => k a b) s = ⟨ending, s', early ++ late ++ rest⟩ ∧
      (x >>= fun a => y >>= fun b => k a b) s = ⟨ending, s', t ++ early ++ rest⟩ := by
  rw [bind_of_done hbefore, bind_apply, bind_apply]
  cases (y s).ending with
  | done b =>
    refine ⟨(k a b (y s).state).ending, (k a b (y s).state).state, (y s).trace, t,
      (k a b (y s).state).trace, .inr rfl, ?_, ?_⟩
    · simp only [bind_of_done hafter, List.append_assoc]
    · simp only [List.append_assoc]
  | halted why =>
    exact ⟨.halted why, (y s).state, (y s).trace, [], [], .inl rfl, by simp, by simp⟩
  | failed why =>
    exact ⟨.failed why, (y s).state, (y s).trace, [], [], .inl rfl, by simp, by simp⟩

end Action

/-- The runs end alike, leave the same state and report the same mistakes. -/
structure Run.SameOutcome {σ α : Type} (r r' : Run σ α) : Prop where
  ending : r.ending = r'.ending
  state : r.state = r'.state
  reports : r.trace.reports = r'.trace.reports

namespace Action

variable {σ α β γ : Type} {x : Action σ α} {y : Action σ β} {s : σ} {a : α}

/-- If nothing is told on the way, the runs are the same. -/
theorem swap_eq (hbefore : x s = ⟨.done a, s, []⟩)
    (hafter : x (y s).state = ⟨.done a, (y s).state, []⟩) (k : α → β → Action σ γ) :
    (y >>= fun b => x >>= fun a => k a b) s = (x >>= fun a => y >>= fun b => k a b) s := by
  obtain ⟨ending, s', early, late, rest, hlate, hsecond, hfirst⟩ := exists_swap hbefore hafter k
  obtain rfl : late = [] := hlate.elim id id
  rw [hsecond, hfirst, List.append_nil, List.nil_append]

/-- A quiet action that gives the same before and after another may be moved past it: only the place
of what it tells changes. -/
theorem swap_sameOutcome {t : Trace} (ht : t.Quiet) (hbefore : x s = ⟨.done a, s, t⟩)
    (hafter : x (y s).state = ⟨.done a, (y s).state, t⟩) (k : α → β → Action σ γ) :
    ((y >>= fun b => x >>= fun a => k a b) s).SameOutcome
      ((x >>= fun a => y >>= fun b => k a b) s) := by
  obtain ⟨ending, s', early, late, rest, hlate, hsecond, hfirst⟩ := exists_swap hbefore hafter k
  have hquiet : late.Quiet := by
    rcases hlate with rfl | rfl
    · exact Trace.quiet_nil
    · exact ht
  rw [hsecond, hfirst]
  refine ⟨rfl, rfl, ?_⟩
  show Trace.reports (early ++ late ++ rest) = Trace.reports (t ++ early ++ rest)
  simp only [Trace.reports_append, ht.reports_eq_nil, hquiet.reports_eq_nil, List.append_nil,
    List.nil_append]

end Action

namespace Machine

variable {α : Type} {x y : Action Memory α} {m : Machine}

theorem onMemory_congr (h : x m.memory = y m.memory) : onMemory x m = onMemory y m := by
  simp only [onMemory, Action.within, h]

theorem sameOutcome_onMemory (h : (x m.memory).SameOutcome (y m.memory)) :
    (onMemory x m).SameOutcome (onMemory y m) := by
  refine ⟨h.ending, ?_, h.reports⟩
  show { m with memory := (x m.memory).state } = { m with memory := (y m.memory).state }
  rw [h.state]

end Machine

/-! ### Reading the target -/

section

variable {device : Option String} {x : Name} {e : Expr}

/-- Reading a local never fails and tells nothing; without a value it is zero. -/
theorem readName_of_chip (hscope : x.scope = .chip) (m : Memory) :
    readName device x m = ⟨.done (m.locals.getD x.key (.int 0)), m, []⟩ := by
  simp [readName, Action.bind_apply, Memory.read, hscope]

/-- A field can be read if the chip is in no world, or if its device is in the world and no devices
are in conflict over the field. What is read depends on the world only. -/
theorem exists_readName_of_field (hscope : x.scope = .field) {m : Memory}
    (hworld : ∀ w, m.world = some w →
      w.Registers device ∧ ∀ t, w.read device x.key ≠ .ok (.conflicting, t)) :
    ∃ v t, Trace.Quiet t ∧ ∀ m' : Memory, m'.world = m.world →
      readName device x m' = ⟨.done v, m', t⟩ := by
  cases hw : m.world with
  | none =>
    refine ⟨.int 0, [.readWithoutWorld x.text], Trace.quiet_singleton ⟨rfl, rfl, rfl⟩, ?_⟩
    intro m' hm'
    simp [readName, Action.bind_apply, Memory.read, hscope, hm']
  | some w =>
    obtain ⟨⟨reader, hreader⟩, hclear⟩ := hworld w hw
    obtain ⟨⟨found, t⟩, hread⟩ : ∃ r, w.read device x.key = .ok r :=
      ⟨_, World.read_of_resolve hreader x.key⟩
    have hquiet : Trace.Quiet t := World.quiet_read hread
    cases found with
    | conflicting => exact absurd hread (hclear t)
    | missing =>
      refine ⟨.int 0, t, hquiet, fun m' hm' => ?_⟩
      simp [readName, Action.bind_apply, Memory.read, hscope, hm', hread]
    | found v =>
      refine ⟨v, t, hquiet, fun m' hm' => ?_⟩
      simp [readName, Action.bind_apply, Memory.read, hscope, hm', hread]

/-- Evaluating an expression changes nothing but its targets. -/
theorem keptBut_evaluate (e : Expr) (m : Memory) :
    m.KeptBut device e.targets (evaluate device e m).state :=
  kept_evaluate _ Memory.keptBut_refl (fun _ _ _ h h' => h.trans h')
    (fun _ hname v m => Memory.keptBut_write hname v m) m

/-- Evaluating an expression that does not write to a local leaves its value. -/
theorem getD_locals_evaluate (hscope : x.scope = .chip) (hx : x ∉ e.targets) (m : Memory) :
    (evaluate device e m).state.locals.getD x.key (.int 0) = m.locals.getD x.key (.int 0) := by
  rw [Std.ExtTreeMap.getD_eq_getD_getElem?, Std.ExtTreeMap.getD_eq_getD_getElem?,
    Name.key_eq_text hscope, (keptBut_evaluate e m).locals x hx]

/-- An expression that increments locals only leaves the world as it is. -/
theorem world_evaluate (he : ∀ name ∈ e.targets, name.scope = .chip) (m : Memory) :
    (evaluate device e m).state.world = m.world := by
  refine kept_evaluate (fun m m' => m'.world = m.world) (fun _ => rfl)
    (fun _ _ _ h h' => h'.trans h) (fun name hname v m => ?_) m
  simp only [Memory.write, he name hname]

/-! ### Compound assignments -/

/-- A compound assignment reads its target after its right side has been evaluated. -/
theorem assign_compound_eq {symbol : String} {op : Operator}
    (h : Assigning.ofSymbol? symbol = some (.compound op)) (x : Name) (e : Expr) :
    assign device x symbol e = evaluate device e >>= fun v => readName device x >>= fun old =>
      Action.ofEnding (op.apply old v) >>= Memory.write device x := by
  rw [assign, h, Action.demand_some, Action.pure_bind]
  simp only [Assigning.combine, Action.bind_assoc]
  rfl

/-- An assignment of an operator to its target and a value reads the target first. -/
theorem assign_binary_eq {group : Group} {symbol : String} {op : Operator}
    (hadmits : group.admits symbol = true) (h : Operator.ofSymbol? symbol = some op) (x : Name)
    (e : Expr) :
    assign device x "=" (.binary group symbol (.name x) e) =
      readName device x >>= fun old => evaluate device e >>= fun v =>
        Action.ofEnding (op.apply old v) >>= Memory.write device x := by
  have hplain : Assigning.ofSymbol? "=" = some .plain := rfl
  rw [assign, hplain, Action.demand_some, Action.pure_bind, evaluate, Group.admits?, if_pos hadmits,
    Action.demand_some, Action.pure_bind]
  simp only [Operator.applySymbol, h, Action.bind_assoc]
  rfl

/-- The operators of sums and of products, each with an equals sign after it, are those of compound
assignments. -/
theorem exists_compound_operator {group : Group} (hgroup : group = .add ∨ group = .mul)
    {symbol : String} (hsymbol : group.admits symbol = true) :
    ∃ op, Operator.ofSymbol? symbol = some op ∧
      Assigning.ofSymbol? (symbol ++ "=") = some (.compound op) := by
  rcases hgroup with rfl | rfl
  · have hcases : symbol = "+" ∨ symbol = "-" := by
      simpa [Group.admits, Group.operators] using hsymbol
    rcases hcases with rfl | rfl
    · exact ⟨.plus, by decide, by decide⟩
    · exact ⟨.minus, by decide, by decide⟩
  · have hcases : symbol = "%" ∨ symbol = "*" ∨ symbol = "/" := by
      simpa [Group.admits, Group.operators] using hsymbol
    rcases hcases with rfl | rfl | rfl
    · exact ⟨.modulo, by decide, by decide⟩
    · exact ⟨.times, by decide, by decide⟩
    · exact ⟨.divide, by decide, by decide⟩

end

/-- For a sum or a product with an operator of its group, `x op= e` and `x = x op e` run alike. If
`x` is a local that `e` does not increment, the runs are the same in everything. If `x` is a field
that can be read at the start, and `e` increments no field, they end alike, report the same mistakes
and leave the same locals, world and counter. -/
theorem compound_assignment_runs_as_expansion (device : Option String) (limit : Int)
    {group : Group} (hgroup : group = .add ∨ group = .mul) {op : String}
    (hop : group.admits op = true) (x : Name) (e : Expr) (m : Machine) :
    let compound := execute device limit (.assign x (op ++ "=") e) m
    let expanded := execute device limit (.assign x "=" (.binary group op (.name x) e)) m
    (x.scope = .chip → x ∉ e.targets → compound = expanded) ∧
    (x.scope = .field →
      (∀ w, m.memory.world = some w →
        w.Registers device ∧ ∀ t, w.read device x.key ≠ .ok (.conflicting, t)) →
      (∀ name ∈ e.targets, name.scope = .chip) → compound.SameOutcome expanded) := by
  obtain ⟨operator, hsymbol, hcompound⟩ := exists_compound_operator hgroup hop
  rw [execute, execute, assign_compound_eq hcompound, assign_binary_eq hop hsymbol]
  constructor
  · intro hscope hx
    apply Machine.onMemory_congr
    apply Action.swap_eq (readName_of_chip hscope m.memory)
    rw [readName_of_chip hscope, getD_locals_evaluate hscope hx]
  · intro hscope hworld he
    obtain ⟨v, t, ht, hread⟩ := exists_readName_of_field hscope hworld
    apply Machine.sameOutcome_onMemory
    exact Action.swap_sameOutcome ht (hread _ rfl) (hread _ (world_evaluate he m.memory)) _

/-- A mill with grain in it, and a store that has as much. -/
def farm : World :=
  (World.empty.add (.new "mill" [("grain", .int 10)] "farm")).add
    (.new "store" [("Grain", .num (.float (Binary64.ofInt 10)))] "farm")

/-- A chip on the farm that has counted its carts. -/
def carter : Machine where
  memory :=
    { locals := ((∅ : Locals).insert "share" (.int 7)).insert "carts" (.int 4)
      world := some farm }

/-- A share of the carts, which are counted up meanwhile, and grain less as much grain for each
cart: the short forms run as the long ones. -/
theorem carter_shares_as_expanded :
    let run := execute (some "mill") 20
    let cart := Expr.increment .post "++" (.name ⟨"carts"⟩)
    let load := Expr.binary .mul "*" (.name ⟨":grain"⟩) cart
    run (.assign ⟨"share"⟩ "%=" cart) carter =
        run (.assign ⟨"share"⟩ "=" (.binary .mul "%" (.name ⟨"share"⟩) cart)) carter ∧
      (run (.assign ⟨":GRAIN"⟩ "-=" load) carter).SameOutcome
        (run (.assign ⟨":GRAIN"⟩ "=" (.binary .add "-" (.name ⟨":GRAIN"⟩) load)) carter) := by
  intro run cart load
  have hshare := compound_assignment_runs_as_expansion (some "mill") 20 (.inr rfl)
    (show Group.mul.admits "%" = true by decide) ⟨"share"⟩ cart carter
  have hgrain := compound_assignment_runs_as_expansion (some "mill") 20 (.inl rfl)
    (show Group.add.admits "-" = true by decide) ⟨":GRAIN"⟩ load carter
  have hfound : (farm.read (some "mill") (Name.key ⟨":GRAIN"⟩)).map Prod.fst =
      .ok (.found (.int 10)) := by
    decide +kernel
  refine ⟨hshare.1 (by decide) (by decide), hgrain.2 (by decide) ?_ (by decide)⟩
  rintro w ⟨⟩
  refine ⟨by decide +kernel, fun t ht => ?_⟩
  rw [ht] at hfound
  cases hfound

/-! ### Increments that stand alone -/

theorem Value.number_one : (Value.int 1).number = .done (.int 1) := by
  decide

theorem Operator.onNumbers_one (op : Number → Number → Except ArithmeticError Number) (v : Value) :
    onNumbers (unguarded op) v (.int 1) = do
      let a ← v.number
      return .num (← .ofArithmetic (op a (.int 1))) := by
  unfold onNumbers
  rw [Value.number_one]
  rfl

/-- Taking one away is subtracting it from the number that the value stands for. -/
theorem Operator.minus_apply_one (v : Value) :
    Operator.minus.apply v (.int 1) = do
      let a ← v.number
      return .num (← .ofArithmetic (a.sub (.int 1))) :=
  onNumbers_one Number.sub v

/-- Adding one to a value that is no text is arithmetic. -/
theorem Operator.plus_apply_one {v : Value} (h : v.isText = false) :
    Operator.plus.apply v (.int 1) = do
      let a ← v.number
      return .num (← .ofArithmetic (a.add (.int 1))) := by
  have hnumbers : ¬ (v.isText || (Value.int 1).isText) = true := by
    rw [h]
    decide
  rw [Operator.apply, if_neg hnumbers]
  exact onNumbers_one Number.add v

theorem Machine.onMemory_bind_pure {α : Type} (x : Action Memory α) :
    (onMemory x >>= fun _ => pure ()) = onMemory (x >>= fun _ => pure ()) := by
  funext m
  simp only [onMemory, Action.within, Action.bind_apply]
  cases (x m.memory).ending <;> rfl

section

variable {device : Option String} {x : Name}

/-- What an increment of a name comes to if its value is dropped. -/
theorem increment_bind_pure {symbol : String} {step : Number → Except ArithmeticError Number}
    (h : stepOf? symbol = some step) (fixity : Fixity) (x : Name) :
    (evaluate device (.increment fixity symbol (.name x)) >>= fun _ => pure ()) =
      readName device x >>= fun old => Action.ofEnding old.number >>= fun a =>
        Action.ofEnding (.ofArithmetic (step a)) >>= fun new =>
          Memory.write device x (.num new) := by
  rw [evaluate, h, Action.demand_some, Action.pure_bind]
  simp only [Action.bind_assoc, Action.pure_bind, writeBack, Action.bind_pure_unit, evaluate]

/-- With a one that is written out there is nothing to evaluate. -/
theorem assign_one_eq {symbol : String} {op : Operator}
    (h : Assigning.ofSymbol? symbol = some (.compound op)) (x : Name) :
    assign device x symbol (.number "1") = readName device x >>= fun old =>
      Action.ofEnding (op.apply old (.int 1)) >>= Memory.write device x := by
  have hone : Number.ofLiteral? "1" = some (.int 1) := by decide +kernel
  rw [assign_compound_eq h, evaluate, hone, Action.demand_some, Action.pure_bind, Action.pure_bind]
  rfl

/-- An increment and a compound assignment run alike where the operator does to the value of the
name and one what the increment does to the value. -/
theorem execute_increment_eq {symbol compound : String}
    {step : Number → Except ArithmeticError Number} {op : Operator}
    (hstep : stepOf? symbol = some step)
    (hcompound : Assigning.ofSymbol? compound = some (.compound op)) {m : Machine}
    (h : ∀ old, (evaluate device (.name x) m.memory).ending = .done old →
      op.apply old (.int 1) = do
        let a ← old.number
        return .num (← .ofArithmetic (step a))) (limit : Int) (fixity : Fixity) :
    execute device limit (.increment fixity symbol (.name x)) m =
      execute device limit (.assign x compound (.number "1")) m := by
  rw [execute, execute, Machine.onMemory_bind_pure, increment_bind_pure hstep,
    assign_one_eq hcompound]
  apply Machine.onMemory_congr
  apply Action.bind_congr_at
  intro old hold
  rw [h old hold]
  cases old.number with
  | done a =>
    show (Action.ofEnding (.ofArithmetic (step a)) >>= _) _ =
      (Action.ofEnding (Ending.ofArithmetic (step a) >>= _) >>= _) _
    cases step a <;> rfl
  | halted why => rfl
  | failed why => rfl

end

/-- Counting a name down, in front of it or behind it, runs as taking one away from it, whatever it
holds and whether it can be read or not; and counting it up runs as adding one to it unless it holds
a text. -/
theorem bare_increment_runs_as_compound (device : Option String) (limit : Int) (fixity : Fixity)
    (x : Name) (m : Machine) :
    execute device limit (.increment fixity "--" (.name x)) m =
        execute device limit (.assign x "-=" (.number "1")) m ∧
      ((∀ v, (evaluate device (.name x) m.memory).ending = .done v → v.isText = false) →
        execute device limit (.increment fixity "++" (.name x)) m =
          execute device limit (.assign x "+=" (.number "1")) m) := by
  constructor
  · apply execute_increment_eq rfl rfl
    intro old _
    exact Operator.minus_apply_one old
  · intro hnumber
    apply execute_increment_eq rfl rfl
    intro old hold
    exact Operator.plus_apply_one (hnumber old hold)

/-- A chip in no world that has counted as far as integers are carried. -/
def brimming : Machine where
  memory := { locals := (∅ : Locals).insert "count" (.int 9007199254740992) }

/-- At the bound, where the next number is carried as a double, counting up still runs as adding
one, and counting down as taking one away. -/
theorem brimming_counts_as_compound :
    (∀ v, (evaluate none (.name ⟨"count"⟩) brimming.memory).ending = .done v → v.isText = false) ∧
      execute none 20 (.increment .post "++" (.name ⟨"count"⟩)) brimming =
        execute none 20 (.assign ⟨"count"⟩ "+=" (.number "1")) brimming ∧
      execute none 20 (.increment .pre "--" (.name ⟨"count"⟩)) brimming =
        execute none 20 (.assign ⟨"count"⟩ "-=" (.number "1")) brimming := by
  have hcount : (evaluate none (.name ⟨"count"⟩) brimming.memory).ending =
      .done (.int 9007199254740992) := by
    decide +kernel
  have hnumber : ∀ v, (evaluate none (.name ⟨"count"⟩) brimming.memory).ending = .done v →
      v.isText = false := by
    intro v hv
    rw [hcount] at hv
    cases hv
    rfl
  obtain ⟨_, hup⟩ := bare_increment_runs_as_compound none 20 .post ⟨"count"⟩ brimming
  obtain ⟨hdown, _⟩ := bare_increment_runs_as_compound none 20 .pre ⟨"count"⟩ brimming
  exact ⟨hnumber, hup hnumber, hdown⟩

end ChipScript
