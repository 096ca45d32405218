import Mathlib.Data.Rat.Floor
import ChipScript.Proofs.Bounds
import ChipScript.Proofs.Counter

/-!
# Where gotos lead

A goto does not end its line, and the statements after it may go elsewhere, halt or fail. What
counts in the end is the last goto that completed, at whatever depth: the counter goes on to the
line of its target, and to the following line if no goto completed.

* `jumpLine` is the line of a target, by the exact value of the target, and `clampLine` computes it
  for every target but NaN.
* `blockVisits` lists the statements that a run executes, each with the machine that it starts
  from, and `gotoTargets` picks the targets of the gotos among them that completed.
* `jumped_execute_and_executeBlock` says that the run tells of just these gotos, and that the last
  of them decides where the counter is left.
-/

namespace ChipScript

/-! ### The line of a target -/

/-- The value of a number of units. -/
def Binary64.value (u : Int) : ℚ :=
  u / Binary64.one

/-- The line that a target leads to, by its exact value: one if it is less than one, the limit if it
is more than that, and otherwise the largest integer that is not above it. -/
def jumpLine (limit : Int) (target : Number) : Int :=
  match target.exact with
  | .finite u =>
    if Binary64.value u < 1 then 1
    else if limit < Binary64.value u then limit
    else ⌊Binary64.value u⌋
  | .infinity => limit
  | .negInfinity | .nan => 1

/-- Cutting off at one and at the limit, once in units and once in fractions. -/
theorem clamp_units_eq_clamp_value {limit : Int} (hlimit : 1 ≤ limit) (u : Int) {d : Nat}
    (hd : 0 < d) :
    (if ¬ 0 < u then 1 else if limit * d < u then max 1 limit else max 1 (u / d)) =
      if (u / d : ℚ) < 1 then 1 else if (limit : ℚ) < u / d then limit else ⌊(u / d : ℚ)⌋ := by
  have hd₀ : (0 : ℚ) < d := Nat.cast_pos.2 hd
  have hlow : (u / d : ℚ) < 1 ↔ u < d := by
    rw [div_lt_one hd₀]
    norm_cast
  have hhigh : (limit : ℚ) < u / d ↔ limit * d < u := by
    rw [lt_div_iff₀ hd₀]
    norm_cast
  have hdlimit : (d : Int) ≤ limit * d := by
    have := Int.mul_le_mul_of_nonneg_right hlimit (Int.natCast_nonneg d)
    rwa [Int.one_mul] at this
  rw [Rat.floor_intCast_div_natCast]
  simp only [hlow, hhigh]
  by_cases hu : u < d
  · -- Below one: zero after the cut unless it was negative before.
    have hdiv : u / d ≤ 0 := by
      have := Int.ediv_lt_of_lt_mul (by omega : (0 : Int) < d) (by rwa [Int.one_mul])
      omega
    rw [if_pos hu]
    split
    · rfl
    · rw [if_neg (by omega)]
      omega
  · have hdiv : 1 ≤ u / d := Int.le_ediv_of_mul_le (by omega) (by omega)
    rw [if_neg hu, if_neg (by omega)]
    split <;> omega

/-- A goto to a number that is not NaN leads to the line of its target. -/
theorem clampLine_eq_jumpLine {limit : Int} (hlimit : 1 ≤ limit) {target : Number}
    (h : target.isNaN = false) : clampLine limit target = .ok (jumpLine limit target) := by
  unfold Number.isNaN at h
  unfold clampLine jumpLine Number.compare? Number.floor
  cases hexact : target.exact with
  | nan => exact absurd (decide_eq_true hexact) (Bool.eq_false_iff.1 h)
  | negInfinity => rfl
  | infinity => exact congrArg Except.ok (max_eq_right hlimit)
  | finite u =>
    have hlow : (Binary64.Exact.finite u).compare? (Number.int 0).exact ∈
        [some Ordering.lt, some Ordering.eq] ↔ ¬ 0 < u := by
      show some (compare u (0 * Binary64.one)) ∈ _ ↔ _
      simp only [List.mem_cons, List.not_mem_nil, or_false, Option.some.injEq, compare_lt_iff_lt,
        compare_eq_iff_eq, Int.zero_mul]
      omega
    have hhigh : (Binary64.Exact.finite u).compare? (Number.int limit).exact = some .gt ↔
        limit * Binary64.one < u := by
      show some (compare u (limit * Binary64.one)) = _ ↔ _
      rw [Option.some.injEq, compare_gt_iff_gt]
    have hline := clamp_units_eq_clamp_value hlimit u (d := Binary64.one) (by decide +kernel)
    refine Eq.trans ?_ (congrArg Except.ok hline)
    simp only [hlow, hhigh]
    split
    · rfl
    · split <;> rfl

theorem jumpLine_of_clampLine {limit : Int} (hlimit : 1 ≤ limit) {target : Number}
    (h : target.isNaN = false) {line : Int} (hline : clampLine limit target = .ok line) :
    jumpLine limit target = line :=
  Except.ok.inj ((clampLine_eq_jumpLine hlimit h).symm.trans hline)

/-! ### The statements that are executed -/

/-- What comes after a run: something that depends on its result and on the state that it leaves if
it was done, and nothing if not. -/
def Run.followed {σ α β : Type} (r : Run σ α) (next : α → σ → List β) : List β :=
  match r.ending with
  | .done a => next a r.state
  | _ => []

mutual

/-- The statements that are executed with a statement, itself first, each with the machine that it
starts from. -/
def Stmt.visits (device : Option String) (limit : Int) :
    Stmt → Machine → List (Stmt × Machine)
  | .branch condition body none, m =>
    (.branch condition body none, m) ::
      (Machine.onMemory (evaluate device condition) m).followed fun v m' =>
        if v.isFalse then [] else blockVisits device limit body m'
  | .branch condition body (some other), m =>
    (.branch condition body (some other), m) ::
      (Machine.onMemory (evaluate device condition) m).followed fun v m' =>
        if v.isFalse then blockVisits device limit other m' else blockVisits device limit body m'
  | s, m => [(s, m)]

/-- The statements that are executed with a sequence of statements. After one that is not done
there are no more. -/
def blockVisits (device : Option String) (limit : Int) :
    List Stmt → Machine → List (Stmt × Machine)
  | [], _ => []
  | s :: rest, m =>
    s.visits device limit m ++
      (execute device limit s m).followed fun _ m' => blockVisits device limit rest m'

end

/-- The number that a statement goes to, if it is a goto and completes. -/
def gotoTarget? (device : Option String) (limit : Int) : Stmt × Machine → Option Number
  | (.goto target, m) =>
    match (evaluate device target m.memory).ending,
      (execute device limit (.goto target) m).ending with
    | .done (.num a), .done _ => some a
    | _, _ => none
  | _ => none

/-- The targets of the gotos that complete, in the order of execution. -/
def gotoTargets (device : Option String) (limit : Int) (block : List Stmt) (m : Machine) :
    List Number :=
  (blockVisits device limit block m).filterMap (gotoTarget? device limit)

/-- Nothing follows a run that is not done. -/
theorem Run.exists_of_mem_followed {σ α β : Type} {r : Run σ α} {next : α → σ → List β} {b : β}
    (h : b ∈ r.followed next) : ∃ a, r.ending = .done a ∧ b ∈ next a r.state := by
  unfold Run.followed at h
  split at h
  · next a ha => exact ⟨a, ha, h⟩
  · cases h

theorem Run.filterMap_followed {σ α β γ : Type} (r : Run σ α) (next : α → σ → List β)
    (g : β → Option γ) :
    (r.followed next).filterMap g = r.followed fun a s => (next a s).filterMap g := by
  unfold Run.followed
  cases r.ending <;> rfl

/-! ### Where the counter is left -/

/-- Where gotos leave a counter: just before the line of the last of them. -/
def leftAt (limit line : Int) (targets : List Number) : Int :=
  (targets.getLast?.map (jumpLine limit · - 1)).getD line

/-- Only the last target matters, and without targets the counter stays. -/
theorem leftAt_append (limit line : Int) (targets targets' : List Number) :
    leftAt limit line (targets ++ targets') =
      leftAt limit (leftAt limit line targets) targets' := by
  unfold leftAt
  rw [List.getLast?_append]
  cases targets'.getLast? <;> rfl

/-- The run goes to some targets: it tells the line of each of them, and leaves the counter where
the last of them does. -/
structure Run.Jumped {α : Type} (limit line : Int) (targets : List Number) (r : Run Machine α) :
    Prop where
  line : r.state.line = leftAt limit line targets
  told : r.trace.jumps = targets.map (jumpLine limit)

namespace Run.Jumped

variable {α β : Type} {limit : Int} {x : Action Machine α} {f : α → Action Machine β} {m : Machine}
  {targets : List Number}

/-- After an action that was done, the next one takes the counter on from where it was left. -/
theorem bind_of_done {targets' : List Number} {a : α} (hx : (x m).Jumped limit m.line targets)
    (hdone : (x m).ending = .done a)
    (hf : (f a (x m).state).Jumped limit (x m).state.line targets') :
    ((x >>= f) m).Jumped limit m.line (targets ++ targets') := by
  rw [Action.bind_apply, hdone]
  refine ⟨?_, ?_⟩
  · rw [leftAt_append, ← hx.line]
    exact hf.line
  · show Trace.jumps ((x m).trace ++ (f a (x m).state).trace) = _
    rw [Trace.jumps_append, hx.told, hf.told, List.map_append]

/-- After an action that was not done, the counter stays where it was left. -/
theorem bind_of_not_done (hx : (x m).Jumped limit m.line targets)
    (hnot : ∀ a, (x m).ending ≠ .done a) : ((x >>= f) m).Jumped limit m.line targets := by
  rw [Action.bind_apply]
  cases hend : (x m).ending with
  | done a => exact absurd hend (hnot a)
  | halted why => exact ⟨hx.line, hx.told⟩
  | failed why => exact ⟨hx.line, hx.told⟩

/-- Gotos in sequence leave the counter where the last of them leads. -/
theorem bind {next : α → Machine → List Number} (hx : (x m).Jumped limit m.line targets)
    (hf : ∀ a m', (f a m').Jumped limit m'.line (next a m')) :
    ((x >>= f) m).Jumped limit m.line (targets ++ (x m).followed next) := by
  unfold Run.followed
  split
  · next a hdone => exact hx.bind_of_done hdone (hf a _)
  · next hnot =>
    rw [List.append_nil]
    exact hx.bind_of_not_done hnot

end Run.Jumped

section

variable (device : Option String) (limit : Int)

/-! Expressions and assignments do not jump. -/

theorem compositional_jumps_eq_nil {σ : Type} :
    Compositional fun (α : Type) (x : Action σ α) => ∀ s, (x s).trace.jumps = [] where
  pure := fun _ _ => rfl
  halt := fun _ _ => rfl
  fail := fun _ _ => rfl
  bind := by
    intro α β x f hx hf s
    rw [Action.bind_apply]
    split
    · next a _ =>
      show Trace.jumps ((x s).trace ++ (f a (x s).state).trace) = []
      rw [Trace.jumps_append, hx s, hf a, List.append_nil]
    · exact hx s
    · exact hx s

theorem jumps_evaluate (e : Expr) (m : Memory) : (evaluate device e m).trace.jumps = [] :=
  compositional_jumps_eq_nil.evaluate (fun name m => (Memory.quiet_read device name m).jumps_eq_nil)
    (fun name v m => (Memory.quiet_write device name m v).jumps_eq_nil) e m

theorem jumps_assign (target : Name) (operator : String) (value : Expr) (m : Memory) :
    (assign device target operator value m).trace.jumps = [] :=
  compositional_jumps_eq_nil.assign (fun name m => (Memory.quiet_read device name m).jumps_eq_nil)
    (fun name v m => (Memory.quiet_write device name m v).jumps_eq_nil) target operator value m

/-- An action on the memory alone does not move the counter. -/
theorem jumped_onMemory {α : Type} {x : Action Memory α} (hx : ∀ m, (x m).trace.jumps = [])
    (m : Machine) : (Machine.onMemory x m).Jumped limit m.line [] :=
  ⟨rfl, hx m.memory⟩

variable {limit} (hlimit : 1 ≤ limit)

include hlimit in
/-- Going to a value completes only for a number that is not NaN, and unless it completes nothing
happens. -/
theorem gotoValue_cases (v : Value) (m : Machine) :
    (∃ a, v = .num a ∧ a.isNaN = false ∧ (gotoValue limit v m).ending = .done () ∧
      (gotoValue limit v m).Jumped limit m.line [a]) ∨
    ((gotoValue limit v m).ending ≠ .done () ∧ (gotoValue limit v m).Jumped limit m.line []) := by
  cases v with
  | text s => exact .inr ⟨by rintro ⟨⟩, rfl, rfl⟩
  | num a =>
    rcases gotoValue_num_cases limit a m with ⟨why, _, hrun⟩ |
      ⟨_, ⟨_, hrun⟩ | ⟨hnan, line, hline, ⟨_, hrun⟩ | ⟨_, hrun⟩⟩⟩
    · rw [hrun]
      exact .inr ⟨nofun, rfl, rfl⟩
    · rw [hrun]
      exact .inr ⟨nofun, rfl, rfl⟩
    · rw [hrun]
      exact .inr ⟨nofun, rfl, rfl⟩
    · rw [clampLine_eq_jumpLine hlimit hnan] at hline
      obtain rfl := Except.ok.inj hline
      rw [hrun]
      exact .inl ⟨a, rfl, hnan, rfl, rfl, rfl⟩

include hlimit in
/-- A goto has a target that is not NaN and goes there, or it has none and stays. -/
theorem goto_cases (target : Expr) (m : Machine) :
    (∃ a, gotoTarget? device limit (.goto target, m) = some a ∧ a.isNaN = false ∧
      (execute device limit (.goto target) m).Jumped limit m.line [a]) ∨
    (gotoTarget? device limit (.goto target, m) = none ∧
      (execute device limit (.goto target) m).Jumped limit m.line []) := by
  have hexecute : execute device limit (.goto target) m =
      (Machine.onMemory (evaluate device target) >>= gotoValue limit) m := by
    rw [execute]
  have htarget : gotoTarget? device limit (.goto target, m) =
      match (Machine.onMemory (evaluate device target) m).ending,
        (execute device limit (.goto target) m).ending with
      | .done (.num a), .done _ => some a
      | _, _ => none := rfl
  have hvalue := jumped_onMemory limit (jumps_evaluate device target) m
  rw [htarget, hexecute]
  cases hend : (Machine.onMemory (evaluate device target) m).ending with
  | halted why =>
    exact .inr ⟨rfl, hvalue.bind_of_not_done (by rw [hend]; rintro a ⟨⟩)⟩
  | failed why =>
    exact .inr ⟨rfl, hvalue.bind_of_not_done (by rw [hend]; rintro a ⟨⟩)⟩
  | done v =>
    -- The target has a value; whether the goto completes is now up to `gotoValue`.
    have hbind : ((Machine.onMemory (evaluate device target) >>= gotoValue limit) m).ending =
        (gotoValue limit v (Machine.onMemory (evaluate device target) m).state).ending := by
      rw [Action.bind_apply, hend]
    rw [hbind]
    rcases gotoValue_cases hlimit v (Machine.onMemory (evaluate device target) m).state with
      ⟨a, rfl, hnan, hdone, hjumped⟩ | ⟨hnot, hjumped⟩
    · refine .inl ⟨a, ?_, hnan, hvalue.bind_of_done hend hjumped⟩
      rw [hdone]
    · refine .inr ⟨?_, hvalue.bind_of_done hend hjumped⟩
      split
      · next hdone => exact absurd hdone hnot
      · rfl

include hlimit in
/-- No target that a goto went to is NaN. -/
theorem not_isNaN_of_mem_gotoTargets {block : List Stmt} {m : Machine} {a : Number}
    (h : a ∈ gotoTargets device limit block m) : a.isNaN = false := by
  obtain ⟨⟨s, m'⟩, _, hs⟩ := List.mem_filterMap.1 h
  cases s with
  | goto target =>
    rcases goto_cases device hlimit target m' with ⟨a', htarget, hnan, _⟩ | ⟨htarget, _⟩
    · obtain rfl := Option.some.inj (htarget.symm.trans hs)
      exact hnan
    · cases htarget.symm.trans hs
  | _ => cases hs

include hlimit in
/-- Every statement goes to the targets of the gotos that are executed with it. -/
theorem jumped_execute_and_executeBlock :
    (∀ s m, (execute device limit s m).Jumped limit m.line
      ((s.visits device limit m).filterMap (gotoTarget? device limit))) ∧
    ∀ block m, (executeBlock device limit block m).Jumped limit m.line
      (gotoTargets device limit block m) := by
  have hvalue (e : Expr) (m : Machine) :
      (Machine.onMemory (evaluate device e) m).Jumped limit m.line [] :=
    jumped_onMemory limit (jumps_evaluate device e) m
  -- A value is found without a jump, so only what follows it counts.
  have hthen {e : Expr} {m : Machine} {f : Value → Action Machine Unit}
      {next : Value → Machine → List Number}
      (hf : ∀ v m', (f v m').Jumped limit m'.line (next v m')) :
      ((Machine.onMemory (evaluate device e) >>= f) m).Jumped limit m.line
        ((Machine.onMemory (evaluate device e) m).followed next) :=
    (hvalue e m).bind hf
  apply Stmt.mutual_induction
  case assign =>
    intro target operator value m
    exact jumped_onMemory limit (jumps_assign device target operator value) m
  case goto =>
    intro target m
    show (execute device limit (.goto target) m).Jumped limit m.line
      ([(.goto target, m)].filterMap (gotoTarget? device limit))
    rcases goto_cases device hlimit target m with ⟨a, htarget, _, hjumped⟩ | ⟨htarget, hjumped⟩
    · rw [List.filterMap_cons_some htarget]
      exact hjumped
    · rw [List.filterMap_cons_none htarget]
      exact hjumped
  case branch =>
    intro condition body ihBody m
    rw [execute, Stmt.visits, List.filterMap_cons_none rfl, Run.filterMap_followed]
    refine hthen fun v m' => ?_
    split
    · exact ⟨rfl, rfl⟩
    · exact ihBody m'
  case branchElse =>
    intro condition body other ihBody ihOther m
    rw [execute, Stmt.visits, List.filterMap_cons_none rfl, Run.filterMap_followed]
    refine hthen fun v m' => ?_
    split
    · exact ihOther m'
    · exact ihBody m'
  case comment =>
    intro text m
    exact ⟨rfl, rfl⟩
  case increment =>
    intro fixity operator operand m
    show Run.Jumped limit m.line [] (execute device limit (.increment fixity operator operand) m)
    have hstep := hvalue (.increment fixity operator operand) m
    rw [execute]
    by_cases hdone : ∃ v, (Machine.onMemory
        (evaluate device (.increment fixity operator operand)) m).ending = .done v
    · obtain ⟨v, hv⟩ := hdone
      exact hstep.bind_of_done hv ⟨rfl, rfl⟩
    · exact hstep.bind_of_not_done (not_exists.1 hdone)
  case nil =>
    intro m
    exact ⟨rfl, rfl⟩
  case cons =>
    intro s rest ihs ihrest m
    rw [executeBlock, gotoTargets, blockVisits, List.filterMap_append, Run.filterMap_followed]
    exact (ihs m).bind fun _ m' => ihrest m'

end

/-! ### Steps -/

/-- The targets of the gotos that complete while a line is taken, in the order of execution. -/
def Site.gotoTargets (site : Site) (l : Line) : List Number :=
  ChipScript.gotoTargets site.chip.device site.chip.settings.lineLimit l.runnable
    ⟨site.memory, site.chip.line⟩

/-- Taking a line jumps as running its statements does. -/
theorem Site.jumps_takeLine (site : Site) (number : Int) (l : Line) :
    (site.takeLine number l).2.jumps = (site.execution l.runnable).trace.jumps :=
  site.filterMap_takeLine number l (fun _ => rfl) (fun _ _ => rfl) (fun _ _ => rfl) fun _ _ => rfl

/-- A target on a line of the program leads there. -/
theorem jumpLine_of_floor_le {limit : Int} {target : Number} {u : Int}
    (hexact : target.exact = .finite u) (hlow : 1 ≤ ⌊Binary64.value u⌋)
    (hhigh : ⌊Binary64.value u⌋ ≤ limit) : jumpLine limit target = ⌊Binary64.value u⌋ := by
  have hone : ¬ Binary64.value u < 1 := by
    have := Int.le_floor.1 hlow
    rw [Int.cast_one] at this
    exact not_lt.2 this
  unfold jumpLine
  simp only [hexact, if_neg hone]
  split
  · next hlimit =>
    -- Above the limit by less than one: the limit is what remains.
    have := Int.le_floor.2 hlimit.le
    omega
  · rfl

/-- A step tells of the gotos that complete, and advances from where the last of them leaves the
counter. -/
theorem Site.step_jumped {site : Site} {l : Line} (hne : site.chip.program.length ≠ 0)
    (hlimit : 1 ≤ site.chip.settings.lineLimit)
    (hl : site.chip.program.line site.chip.line = .ok l) :
    ∃ r, site.step = .ok r ∧
      r.2.jumps = (site.gotoTargets l).map (jumpLine site.chip.settings.lineLimit) ∧
      r.1.chip.line = leftAt site.chip.settings.lineLimit site.chip.line (site.gotoTargets l) %
        site.chip.program.length + 1 := by
  have hjumped := (jumped_execute_and_executeBlock site.chip.device hlimit).2 l.runnable
    ⟨site.memory, site.chip.line⟩
  refine ⟨_, Site.step_of_line hne hl, ?_, ?_⟩
  · show (site.takeLine site.chip.line l).2.jumps = _
    rw [Site.jumps_takeLine]
    exact hjumped.told
  · show (site.takeLine site.chip.line l).1.chip.line %
      (site.takeLine site.chip.line l).1.chip.program.length + 1 = _
    rw [Site.line_takeLine, Site.program_takeLine]
    exact congrArg (· % (site.chip.program.length : Int) + 1) hjumped.line

/-- After every step of a reachable site the counter is on the line that the last completed goto
leads to, counted around the program, and on the following line if no goto completed, however the
line ended. A last target on a line of the program leads to that line. The gotos that completed are
those that are told of. -/
theorem next_line_follows_last_goto {site : Site} (h : Reachable site)
    (hne : site.chip.program.length ≠ 0) :
    ∃ l r, site.chip.program.line site.chip.line = .ok l ∧ site.step = .ok r ∧
      (∀ t ∈ site.gotoTargets l, t.isNaN = false) ∧
      r.2.jumps = (site.gotoTargets l).map (jumpLine site.chip.settings.lineLimit) ∧
      (site.gotoTargets l = [] →
        r.1.chip.line = site.chip.line % site.chip.program.length + 1) ∧
      ∀ t, (site.gotoTargets l).getLast? = some t →
        r.1.chip.line =
          (jumpLine site.chip.settings.lineLimit t - 1) % site.chip.program.length + 1 ∧
        ∀ u, t.exact = .finite u → 1 ≤ ⌊Binary64.value u⌋ →
          ⌊Binary64.value u⌋ ≤ site.chip.program.length → r.1.chip.line = ⌊Binary64.value u⌋ := by
  have hsound := h.sound
  have hrange := hsound.inRange
  have hlength := hsound.length_le
  have hlast : site.chip.line ≤ site.chip.program.length := by
    have := hrange.2
    omega
  -- The program has a line, so the limit is at least one.
  have hlimit : 1 ≤ site.chip.settings.lineLimit := by omega
  obtain ⟨l, hl⟩ := Program.exists_line hrange.1 hlast
  obtain ⟨r, hr, htold, hline⟩ := Site.step_jumped hne hlimit hl
  refine ⟨l, r, hl, hr, fun t => not_isNaN_of_mem_gotoTargets _ hlimit, htold, ?_, ?_⟩
  · intro hnone
    rw [hline, hnone]
    rfl
  · intro t ht
    have hleft : r.1.chip.line =
        (jumpLine site.chip.settings.lineLimit t - 1) % site.chip.program.length + 1 := by
      rw [hline, leftAt, ht]
      rfl
    refine ⟨hleft, fun u hu hlow hhigh => ?_⟩
    rw [hleft, jumpLine_of_floor_le hu hlow (by omega), Int.emod_eq_of_lt (by omega) (by omega)]
    omega

/-- The first line of `leap` goes to line nine and halts afterwards. Counted around its two lines,
that is line one. -/
theorem next_line_after_leap :
    Reachable ⟨leapingChip, none⟩ ∧ ∃ r, Site.step ⟨leapingChip, none⟩ = .ok r ∧
      r.2.jumps = [9] ∧ r.1.chip.line = 1 := by
  have hreachable : Reachable ⟨leapingChip, none⟩ :=
    .start (show Chip.new (some "chip") leap {} = .ok leapingChip from rfl)
  obtain ⟨l, r, hl, hr, _, htold, _, hlast⟩ := next_line_follows_last_goto hreachable (by decide)
  obtain rfl : _ = l := Except.ok.inj hl
  have htargets : Site.gotoTargets ⟨leapingChip, none⟩
      ⟨[.goto (.number "9"), .assign ⟨"x"⟩ "/=" (.number "0")], []⟩ = [.int 9] := by
    decide +kernel
  have hclamp : clampLine 20 (.int 9) = .ok 9 := by decide +kernel
  have hline : jumpLine 20 (.int 9) = 9 := jumpLine_of_clampLine (by decide) rfl hclamp
  refine ⟨hreachable, r, hr, ?_, ?_⟩
  · rw [htold, htargets]
    exact congrArg (fun n => [n]) hline
  · rw [(hlast (.int 9) (by rw [htargets]; rfl)).1]
    exact congrArg (fun n : Int => (n - 1) % 2 + 1) hline

end ChipScript
