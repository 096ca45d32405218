import ChipScript.Proofs.Accesses

/-!
# Statements that fail leave no trace

Nothing is undone when a line ends early, so what a statement has changed before it fails stays
changed. But an assignment, a goto and an increment change something only at their very end, after
all that can go wrong has gone well, and writing a field that is refused changes nothing. Only an
increment inside one of their expressions can change something earlier.

* `Action.ReadsOnly` holds of an action that changes nothing, however it ends: evaluating an
  expression without targets is one (`readsOnly_evaluate`).
* `Action.AllOrNothing` holds of an action that changes nothing unless it is done. It passes through
  a sequence in which only the last action changes anything (`ReadsOnly.bind_allOrNothing`).
-/

namespace ChipScript

/-! ### Changing nothing, and all or nothing -/

namespace Action

variable {σ α β : Type} {x : Action σ α}

/-- However the action ends, it leaves the state as it was. -/
def ReadsOnly (x : Action σ α) : Prop :=
  ∀ s, (x s).state = s

/-- If the action is not done, it leaves the state as it was. -/
def AllOrNothing (x : Action σ α) : Prop :=
  ∀ s, (∀ a, (x s).ending ≠ .done a) → (x s).state = s

/-- Changing nothing is kept by every sequence. -/
theorem compositional_readsOnly : Compositional fun (α : Type) (x : Action σ α) => x.ReadsOnly :=
  compositional_kept (fun s s' => s' = s) (fun _ => rfl) fun _ _ _ h h' => h'.trans h

theorem readsOnly_demand (a? : Option α) (why : InternalError) :
    (demand a? why : Action σ α).ReadsOnly :=
  compositional_readsOnly.sequential.demand a? why

theorem readsOnly_ofEnding (r : Ending α) : (ofEnding r : Action σ α).ReadsOnly :=
  state_ofEnding r

/-- A sequence in which only the last action changes anything is all or nothing if that one is. -/
theorem ReadsOnly.bind_allOrNothing (hx : x.ReadsOnly) {f : α → Action σ β}
    (hf : ∀ a, (f a).AllOrNothing) : (x >>= f).AllOrNothing := by
  intro s hnot
  rw [bind_apply] at hnot ⊢
  cases hending : (x s).ending with
  | halted why => exact hx s
  | failed why => exact hx s
  | done a =>
    rw [hending] at hnot
    show (f a (x s).state).state = s
    rw [hx s] at hnot ⊢
    exact hf a s hnot

/-- What follows without touching the state does not spoil it. -/
theorem AllOrNothing.bind_pure (hx : x.AllOrNothing) (f : α → β) :
    (x >>= fun a => pure (f a)).AllOrNothing := by
  intro s hnot
  rw [bind_apply] at hnot ⊢
  cases hending : (x s).ending with
  | halted why => exact hx s (by simp [hending])
  | failed why => exact hx s (by simp [hending])
  | done a =>
    rw [hending] at hnot
    exact absurd rfl (hnot (f a))

/-- After an action that is not done it does not matter what was to follow. -/
theorem bind_eq_bind_of_not_done {s : σ} (h : ∀ a, (x s).ending ≠ .done a)
    (f g : α → Action σ β) : (x >>= f) s = (x >>= g) s := by
  rw [bind_apply, bind_apply]
  cases hending : (x s).ending with
  | done a => exact absurd hending (h a)
  | halted why => rfl
  | failed why => rfl

end Action

theorem Run.followed_of_not_done {σ α β : Type} {r : Run σ α} (h : ∀ a, r.ending ≠ .done a)
    (next : α → σ → List β) : r.followed next = [] := by
  unfold Run.followed
  split
  · next a ha => exact absurd ha (h a)
  · rfl

/-! ### Expressions -/

section

variable {device : Option String}

/-- Evaluating an expression leaves a memory behind that is related to the one it started from, if
the relation is reflexive and transitive and so is writing a target. -/
theorem kept_evaluate (kept : Memory → Memory → Prop) (hrefl : ∀ m, kept m m)
    (htrans : ∀ m m' m'', kept m m' → kept m' m'' → kept m m'') {e : Expr}
    (hwrite : ∀ name ∈ e.targets, ∀ v m, kept m (Memory.write device name v m).state)
    (m : Memory) : kept m (evaluate device e m).state := by
  have hmemory := compositional_kept kept hrefl htrans
  refine hmemory.sequential.evaluate (fun name _ => ?_) hwrite m
  refine hmemory.readName fun m => ?_
  rw [Memory.state_read]
  exact hrefl m

/-- An expression without targets changes nothing. -/
theorem readsOnly_evaluate {e : Expr} (h : e.targets = []) : (evaluate device e).ReadsOnly := by
  refine kept_evaluate (fun m m' => m' = m) (fun _ => rfl) (fun _ _ _ h h' => h'.trans h) ?_
  simp [h]

/-- A write is made as a whole or not at all. -/
theorem allOrNothing_write (name : Name) (v : Value) :
    (Memory.write device name v).AllOrNothing := by
  intro m hnot
  unfold Memory.write at hnot ⊢
  cases hscope : name.scope with
  | chip => simp [hscope] at hnot
  | field =>
    cases hworld : m.world with
    | none => rfl
    | some w =>
      cases hwrite : w.write device name.key v with
      | ok w' => simp [hscope, hworld, hwrite] at hnot
      | error why => simp only [hwrite]

theorem allOrNothing_writeBack (operand : Expr) (new : Value) :
    (writeBack device operand new).AllOrNothing := by
  cases operand with
  | name name => exact allOrNothing_write name new
  | _ => exact fun _ _ => rfl

/-- An increment writes back after everything else. -/
theorem allOrNothing_increment {operand : Expr} (h : operand.targets = []) (fixity : Fixity)
    (operator : String) : (evaluate device (.increment fixity operator operand)).AllOrNothing := by
  refine (Action.readsOnly_demand _ _).bind_allOrNothing fun step => ?_
  refine (readsOnly_evaluate h).bind_allOrNothing fun old => ?_
  refine (Action.readsOnly_ofEnding old.number).bind_allOrNothing fun a => ?_
  refine (Action.readsOnly_ofEnding (.ofArithmetic (step a))).bind_allOrNothing fun new => ?_
  exact (allOrNothing_writeBack operand (.num new)).bind_pure _

/-! ### Statements -/

/-- Working out the value that a target gets changes nothing. -/
theorem readsOnly_combine (target : Name) (assigning : Assigning) (v : Value) :
    (assigning.combine device target v).ReadsOnly := by
  cases assigning with
  | plain => exact fun _ => rfl
  | compound op =>
    have hold : (evaluate device (.name target)).ReadsOnly := readsOnly_evaluate rfl
    exact Action.compositional_readsOnly.bind hold fun _ => Action.readsOnly_ofEnding _

/-- An assignment writes its target after everything else. -/
theorem allOrNothing_assign {value : Expr} (h : value.targets = []) (target : Name)
    (operator : String) : (assign device target operator value).AllOrNothing := by
  refine (Action.readsOnly_demand _ _).bind_allOrNothing fun assigning => ?_
  refine (readsOnly_evaluate h).bind_allOrNothing fun v => ?_
  exact (readsOnly_combine target assigning v).bind_allOrNothing (allOrNothing_write target)

end

namespace Machine

variable {α : Type} {x : Action Memory α}

theorem readsOnly_onMemory (hx : x.ReadsOnly) : (onMemory x).ReadsOnly := by
  intro m
  show { m with memory := (x m.memory).state } = m
  rw [hx]

theorem allOrNothing_onMemory (hx : x.AllOrNothing) : (onMemory x).AllOrNothing := by
  intro m hnot
  show { m with memory := (x m.memory).state } = m
  rw [hx m.memory hnot]

end Machine

/-- Where going to a value is not done, everything stays as it was. -/
theorem allOrNothing_gotoValue (limit : Int) (v : Value) : (gotoValue limit v).AllOrNothing := by
  intro m hnot
  cases v with
  | text s => rfl
  | num a =>
    rcases gotoValue_num_cases limit a m with ⟨_, _, hrun⟩ |
      ⟨_, ⟨_, hrun⟩ | ⟨_, _, _, ⟨_, hrun⟩ | ⟨_, hrun⟩⟩⟩
    · rw [hrun]
    · rw [hrun]
    · rw [hrun]
    · rw [hrun] at hnot
      exact absurd rfl (hnot ())

section

variable {device : Option String} (limit : Int)

/-- An assignment is all or nothing if its right side writes to nothing. -/
theorem allOrNothing_execute_assign {value : Expr} (h : value.targets = []) (target : Name)
    (operator : String) : (execute device limit (.assign target operator value)).AllOrNothing := by
  rw [execute]
  exact Machine.allOrNothing_onMemory (allOrNothing_assign h target operator)

/-- A goto is all or nothing if its target writes to nothing. -/
theorem allOrNothing_execute_goto {target : Expr} (h : target.targets = []) :
    (execute device limit (.goto target)).AllOrNothing := by
  rw [execute]
  refine (Machine.readsOnly_onMemory (readsOnly_evaluate h)).bind_allOrNothing fun v => ?_
  exact allOrNothing_gotoValue limit v

theorem allOrNothing_execute_increment {operand : Expr} (h : operand.targets = [])
    (fixity : Fixity) (operator : String) :
    (execute device limit (.increment fixity operator operand)).AllOrNothing := by
  rw [execute]
  exact (Machine.allOrNothing_onMemory (allOrNothing_increment h fixity operator)).bind_pure _

/-- A branch without a value to decide on ends with its condition, whatever there is to choose. -/
theorem execute_branch_of_not_done {condition : Expr} {m : Machine}
    (h : ∀ v, (evaluate device condition m.memory).ending ≠ .done v) (body : List Stmt)
    (otherwise : Option (List Stmt)) :
    execute device limit (.branch condition body otherwise) m =
      (Machine.onMemory (evaluate device condition) >>= fun _ => pure ()) m := by
  have hnot : ∀ v, (Machine.onMemory (evaluate device condition) m).ending ≠ .done v := h
  cases otherwise with
  | none =>
    rw [execute]
    exact Action.bind_eq_bind_of_not_done hnot _ _
  | some other =>
    rw [execute]
    exact Action.bind_eq_bind_of_not_done hnot _ _

/-- Nothing below a branch is visited if its condition is not done. -/
theorem visits_branch_of_not_done {condition : Expr} {m : Machine}
    (h : ∀ v, (evaluate device condition m.memory).ending ≠ .done v) (body : List Stmt)
    (otherwise : Option (List Stmt)) :
    (Stmt.branch condition body otherwise).visits device limit m =
      [(.branch condition body otherwise, m)] := by
  have hnot : ∀ v, (Machine.onMemory (evaluate device condition) m).ending ≠ .done v := h
  cases otherwise with
  | none => rw [Stmt.visits, Run.followed_of_not_done hnot]
  | some other => rw [Stmt.visits, Run.followed_of_not_done hnot]

end

/-- An assignment, a goto or an increment in whose expressions nothing is incremented leaves the
locals, the world and the counter as they were if it halts or fails. So does a branch if its
condition does, and then it executes nothing else: whatever there was to choose from, the run is the
same. -/
theorem failing_statement_leaves_no_trace (device : Option String) (limit : Int) (m : Machine) :
    (∀ (target : Name) (operator : String) (value : Expr), value.targets = [] →
      (execute device limit (.assign target operator value) m).ending ≠ .done () →
      (execute device limit (.assign target operator value) m).state = m) ∧
    (∀ target : Expr, target.targets = [] →
      (execute device limit (.goto target) m).ending ≠ .done () →
      (execute device limit (.goto target) m).state = m) ∧
    (∀ (fixity : Fixity) (operator : String) (operand : Expr), operand.targets = [] →
      (execute device limit (.increment fixity operator operand) m).ending ≠ .done () →
      (execute device limit (.increment fixity operator operand) m).state = m) ∧
    ∀ (condition : Expr) (body : List Stmt) (otherwise : Option (List Stmt)),
      condition.targets = [] → (∀ v, (evaluate device condition m.memory).ending ≠ .done v) →
      let s := Stmt.branch condition body otherwise
      (execute device limit s m).ending ≠ .done () ∧ (execute device limit s m).state = m ∧
        s.visits device limit m = [(s, m)] ∧
        ∀ body' otherwise', execute device limit (.branch condition body' otherwise') m =
          execute device limit s m := by
  refine ⟨?_, ?_, ?_, ?_⟩
  · intro target operator value h hnot
    exact allOrNothing_execute_assign limit h target operator m fun _ => hnot
  · intro target h hnot
    exact allOrNothing_execute_goto limit h m fun _ => hnot
  · intro fixity operator operand h hnot
    exact allOrNothing_execute_increment limit h fixity operator m fun _ => hnot
  · intro condition body otherwise h hnot s
    have hrun (body : List Stmt) (otherwise : Option (List Stmt)) :=
      execute_branch_of_not_done limit hnot body otherwise
    refine ⟨?_, ?_, visits_branch_of_not_done limit hnot body otherwise, ?_⟩
    · intro hdone
      rw [hrun] at hdone
      obtain ⟨v, hv, _⟩ := Action.exists_of_bind_done hdone
      exact hnot v hv
    · rw [hrun]
      refine Action.compositional_readsOnly.bind ?_ (fun _ _ => rfl) m
      exact Machine.readsOnly_onMemory (readsOnly_evaluate h)
    · intro body' otherwise'
      rw [hrun, hrun]

/-- A chip at its fourth line with a text in a local, at a weir whose two gates do not agree on
their level. -/
def weir : Machine where
  memory :=
    { locals := (∅ : Locals).insert "note" (.text "closed")
      world := some ((World.empty.add (.new "upper" [("level", .int 3)] "river")).add
        (.new "lower" [("Level", .int 5)] "river")) }
  line := 4

/-- A level in conflict, a text that is no line and no number, a text compared with a number, and a
level written from a bridge that is not there: nothing has changed afterwards. -/
theorem weir_is_left_alone :
    let upper := execute (some "upper") 20
    let levelled := upper (.assign ⟨"sum"⟩ "+=" (.name ⟨":level"⟩)) weir
    let left := upper (.goto (.name ⟨"note"⟩)) weir
    let counted := upper (.increment .post "++" (.name ⟨"note"⟩)) weir
    let branched := upper (.branch (.binary .neq "<" (.name ⟨"note"⟩) (.number "1"))
      [.goto (.number "1")] none) weir
    let bridged := execute (some "bridge") 20 (.assign ⟨":level"⟩ "=" (.number "4")) weir
    (levelled.ending = .halted (.ambiguousField "level") ∧ levelled.state = weir) ∧
      (left.ending = .halted .invalidGoto ∧ left.state = weir) ∧
      (counted.ending = .halted .textArithmetic ∧ counted.state = weir) ∧
      (branched.ending = .halted .mixedComparison ∧ branched.state = weir) ∧
      bridged.ending = .failed (.device { device := "bridge" }) ∧ bridged.state = weir := by
  intro upper levelled left counted branched bridged
  have hlevelled : levelled.ending = .halted (.ambiguousField "level") := by decide +kernel
  have hleft : left.ending = .halted .invalidGoto := by decide +kernel
  have hcounted : counted.ending = .halted .textArithmetic := by decide +kernel
  have hbranched : branched.ending = .halted .mixedComparison := by decide +kernel
  have hbridged : bridged.ending = .failed (.device { device := "bridge" }) := by decide +kernel
  have hcondition : (evaluate (some "upper")
      (.binary .neq "<" (.name ⟨"note"⟩) (.number "1")) weir.memory).ending =
        .halted .mixedComparison := by
    decide +kernel
  obtain ⟨hassign, hgoto, hincrement, hbranch⟩ :=
    failing_statement_leaves_no_trace (some "upper") 20 weir
  obtain ⟨hassign', _⟩ := failing_statement_leaves_no_trace (some "bridge") 20 weir
  refine ⟨⟨hlevelled, ?_⟩, ⟨hleft, ?_⟩, ⟨hcounted, ?_⟩, ⟨hbranched, ?_⟩, hbridged, ?_⟩
  · exact hassign _ _ _ rfl (hlevelled ▸ nofun)
  · exact hgoto _ rfl (hleft ▸ nofun)
  · exact hincrement _ _ _ rfl (hcounted ▸ nofun)
  · exact (hbranch _ _ _ rfl (hcondition ▸ nofun)).2.1
  · exact hassign' _ _ _ rfl (hbridged ▸ nofun)

end ChipScript
