import ChipScript.Proofs.Jumps

/-!
# What a halt cuts off

A statement that halts or fails ends its line: nothing that stands after it is executed, neither in
its own sequence of statements nor after any branch around it. What was executed before it stays
done.

* A `Place` is where a statement stands in a line, at any depth: what comes before it and after it
  in its sequence, and the same for every branch around it. `Place.fill` puts a statement there.
* `Place.approach` executes what comes before the place and says whether the run gets there. Every
  statement that a run executes stands at such a place (`exists_place_of_mem_visits`).
* From there on the run of the line is the run of the statement, if that is not done
  (`Place.executeBlock_fill`); what comes after the place does not occur in it.
-/

namespace ChipScript

/-- Where a statement stands in a sequence of statements: in the sequence itself, in the body of one
of its branches, or in the else part of one. -/
inductive Place where
  | here (before after : List Stmt)
  | inBody (before : List Stmt) (condition : Expr) (inner : Place) (otherwise : Option (List Stmt))
      (after : List Stmt)
  | inElse (before : List Stmt) (condition : Expr) (body : List Stmt) (inner : Place)
      (after : List Stmt)

namespace Place

def fill : Place → Stmt → List Stmt
  | here before after, s => before ++ s :: after
  | inBody before condition inner otherwise after, s =>
    before ++ .branch condition (inner.fill s) otherwise :: after
  | inElse before condition body inner after, s =>
    before ++ .branch condition body (some (inner.fill s)) :: after

/-- The place without the statements that follow it in its sequence, and without those that follow
a branch around it. -/
def cut : Place → Place
  | here before _ => here before []
  | inBody before condition inner otherwise _ => inBody before condition inner.cut otherwise []
  | inElse before condition body inner _ => inElse before condition body inner.cut []

/-- Executes what comes before the place. The result says whether the run gets there: all statements
before it are done, and the branches around it take the way to it. -/
def approach (device : Option String) (limit : Int) : Place → Action Machine Bool
  | here before _ => do
    executeBlock device limit before
    return true
  | inBody before condition inner _ _ => do
    executeBlock device limit before
    let v ← Machine.onMemory (evaluate device condition)
    if v.isFalse then return false else inner.approach device limit
  | inElse before condition _ inner _ => do
    executeBlock device limit before
    let v ← Machine.onMemory (evaluate device condition)
    if v.isFalse then inner.approach device limit else return false

/-- From a machine `m` the run gets to the place, and there the machine is `m'`. -/
structure Reaches (device : Option String) (limit : Int) (p : Place) (m m' : Machine) : Prop where
  ending : (p.approach device limit m).ending = .done true
  state : (p.approach device limit m).state = m'

section

variable {device : Option String} {limit : Int}

theorem approach_cut (p : Place) : p.cut.approach device limit = p.approach device limit := by
  induction p with
  | here before after => rfl
  | inBody before condition inner otherwise after ih => simp only [cut, approach, ih]
  | inElse before condition body inner after ih => simp only [cut, approach, ih]

/-- How a place is approached depends on what stands before it only. -/
theorem approach_eq_of_cut_eq {p q : Place} (h : p.cut = q.cut) :
    p.approach device limit = q.approach device limit := by
  rw [← approach_cut p, h, approach_cut]

end

end Place

/-! ### The run of a line up to a statement that is not done -/

section

variable {device : Option String} {limit : Int}

/-- A block runs one part after the other. -/
theorem executeBlock_append (before rest : List Stmt) :
    executeBlock device limit (before ++ rest) =
      executeBlock device limit before >>= fun _ => executeBlock device limit rest := by
  induction before with
  | nil =>
    rw [List.nil_append, executeBlock]
    rfl
  | cons s before ih => rw [List.cons_append, executeBlock, executeBlock, Action.bind_assoc, ih]

/-- Statements that are done, and then one that ends as `s` does after something else was done: if
`s` is not done, the rest does not matter. -/
theorem executeBlock_of_not_done {before after : List Stmt} {s₀ s : Stmt} {m : Machine}
    {enter : Action Machine Bool}
    (hbefore : (executeBlock device limit before m).ending = .done ())
    (henter : (enter (executeBlock device limit before m).state).ending = .done true)
    (hs : (execute device limit s (enter (executeBlock device limit before m).state).state).ending ≠
      .done ())
    (hs₀ : execute device limit s₀ (executeBlock device limit before m).state =
      (enter >>= fun _ => execute device limit s) (executeBlock device limit before m).state) :
    executeBlock device limit (before ++ s₀ :: after) m =
      (executeBlock device limit before >>= fun _ =>
        enter >>= fun _ => execute device limit s) m := by
  rw [executeBlock_append]
  apply Action.bind_congr_of_done hbefore
  have hnot : ∀ u, (execute device limit s₀ (executeBlock device limit before m).state).ending ≠
      .done u := by
    rw [hs₀, Action.bind_apply, henter]
    exact fun _ => hs
  rw [executeBlock, Action.bind_eq_of_not_done hnot, hs₀]

/-- If the run gets to a place and the statement there is not done, the run of the line is the way
to the place and the run of the statement. -/
theorem Place.executeBlock_fill {p : Place} {s : Stmt} {m : Machine}
    (hreach : (p.approach device limit m).ending = .done true)
    (hs : (execute device limit s (p.approach device limit m).state).ending ≠ .done ()) :
    executeBlock device limit (p.fill s) m =
      (p.approach device limit >>= fun _ => execute device limit s) m := by
  -- The place is taken apart from the outside in, so the machine changes with every branch.
  induction p generalizing m with
  | here before after =>
    obtain ⟨_, hbefore, _, hstate⟩ := Action.exists_of_bind_done hreach
    rw [approach, hstate] at hs
    rw [approach, Action.bind_assoc]
    exact executeBlock_of_not_done hbefore rfl hs rfl
  | inBody before condition inner otherwise after ih =>
    obtain ⟨_, hbefore, henter, hstate⟩ := Action.exists_of_bind_done hreach
    rw [approach, hstate] at hs
    obtain ⟨v, hv, hinner, hstate'⟩ := Action.exists_of_bind_done henter
    rw [hstate'] at hs
    rw [approach, Action.bind_assoc]
    refine executeBlock_of_not_done hbefore henter (by rwa [hstate']) ?_
    by_cases hfalse : v.isFalse = true
    · rw [if_pos hfalse] at hinner
      cases hinner
    · rw [if_neg hfalse] at hinner hs
      have hbody := ih hinner hs
      rw [Action.bind_assoc]
      cases otherwise with
      | none =>
        rw [execute]
        apply Action.bind_congr_of_done hv
        rw [if_neg hfalse, if_neg hfalse, hbody]
      | some other =>
        rw [execute]
        apply Action.bind_congr_of_done hv
        rw [if_neg hfalse, if_neg hfalse, hbody]
  | inElse before condition body inner after ih =>
    obtain ⟨_, hbefore, henter, hstate⟩ := Action.exists_of_bind_done hreach
    rw [approach, hstate] at hs
    obtain ⟨v, hv, hinner, hstate'⟩ := Action.exists_of_bind_done henter
    rw [hstate'] at hs
    rw [approach, Action.bind_assoc]
    refine executeBlock_of_not_done hbefore henter (by rwa [hstate']) ?_
    by_cases hfalse : v.isFalse = true
    · rw [if_pos hfalse] at hinner hs
      have hother := ih hinner hs
      rw [Action.bind_assoc, execute]
      apply Action.bind_congr_of_done hv
      rw [if_pos hfalse, if_pos hfalse, hother]
    · rw [if_neg hfalse] at hinner
      cases hinner

/-! ### The places that are reached -/

namespace Place

def prepend (s : Stmt) : Place → Place
  | here before after => here (s :: before) after
  | inBody before condition inner otherwise after =>
    inBody (s :: before) condition inner otherwise after
  | inElse before condition body inner after => inElse (s :: before) condition body inner after

theorem fill_prepend (p : Place) (s₀ s : Stmt) : (p.prepend s₀).fill s = s₀ :: p.fill s := by
  cases p <;> rfl

theorem approach_prepend (p : Place) (s : Stmt) :
    (p.prepend s).approach device limit =
      execute device limit s >>= fun _ => p.approach device limit := by
  cases p <;> rw [prepend, approach, executeBlock, Action.bind_assoc, approach]

/-- The first statement of a block is reached at once. -/
theorem reaches_here (m : Machine) (after : List Stmt) :
    (here [] after).Reaches device limit m m := by
  constructor <;> rw [approach, executeBlock] <;> rfl

/-- A statement is reached in the rest of a block if what stands before the rest is done. -/
theorem Reaches.prepend {p : Place} {s : Stmt} {m m' : Machine}
    (hdone : (execute device limit s m).ending = .done ())
    (h : p.Reaches device limit (execute device limit s m).state m') :
    (p.prepend s).Reaches device limit m m' := by
  constructor <;> rw [approach_prepend, Action.bind_apply, hdone]
  · exact h.ending
  · exact h.state

/-- A statement is reached in the body of a branch whose condition holds. -/
theorem Reaches.inBody {p : Place} {condition : Expr} {v : Value} {m m' : Machine}
    (hv : (Machine.onMemory (evaluate device condition) m).ending = .done v)
    (htrue : v.isFalse = false)
    (h : p.Reaches device limit (Machine.onMemory (evaluate device condition) m).state m')
    (otherwise : Option (List Stmt)) (after : List Stmt) :
    (Place.inBody [] condition p otherwise after).Reaches device limit m m' := by
  have happroach : (Place.inBody [] condition p otherwise after).approach device limit =
      Machine.onMemory (evaluate device condition) >>= fun v =>
        if v.isFalse then pure false else p.approach device limit := by
    rw [approach, executeBlock, Action.pure_bind]
  constructor <;> simp only [happroach, Action.bind_apply, hv, htrue]
  · exact h.ending
  · exact h.state

/-- A statement is reached in the other part of a branch whose condition does not hold. -/
theorem Reaches.inElse {p : Place} {condition : Expr} {v : Value} {m m' : Machine}
    (hv : (Machine.onMemory (evaluate device condition) m).ending = .done v)
    (hfalse : v.isFalse = true)
    (h : p.Reaches device limit (Machine.onMemory (evaluate device condition) m).state m')
    (body after : List Stmt) :
    (Place.inElse [] condition body p after).Reaches device limit m m' := by
  have happroach : (Place.inElse [] condition body p after).approach device limit =
      Machine.onMemory (evaluate device condition) >>= fun v =>
        if v.isFalse then p.approach device limit else pure false := by
    rw [approach, executeBlock, Action.pure_bind]
  constructor <;> simp only [happroach, Action.bind_apply, hv, hfalse]
  · exact h.ending
  · exact h.state

end Place

/-- Every statement that a run executes stands at a place that the run reaches, and starts from the
machine that is reached there. -/
theorem exists_place_of_mem_visits :
    (∀ (s₀ : Stmt) (m : Machine) (rest : List Stmt), ∀ visit ∈ s₀.visits device limit m,
      ∃ p : Place, s₀ :: rest = p.fill visit.1 ∧ p.Reaches device limit m visit.2) ∧
    ∀ (block : List Stmt) (m : Machine), ∀ visit ∈ blockVisits device limit block m,
      ∃ p : Place, block = p.fill visit.1 ∧ p.Reaches device limit m visit.2 := by
  have hfirst {s : Stmt} {m : Machine} (rest : List Stmt) : ∀ visit ∈ [(s, m)],
      ∃ p : Place, s :: rest = p.fill visit.1 ∧ p.Reaches device limit m visit.2 := by
    intro visit hvisit
    obtain rfl := List.mem_singleton.1 hvisit
    exact ⟨.here [] rest, rfl, Place.reaches_here m rest⟩
  apply Stmt.mutual_induction
  case assign =>
    intro target operator value m rest
    exact hfirst rest
  case goto =>
    intro target m rest
    exact hfirst rest
  case branch =>
    intro condition body ihBody m rest visit hvisit
    rw [Stmt.visits] at hvisit
    rcases List.mem_cons.1 hvisit with hvisit | hvisit
    · exact hfirst rest visit (List.mem_singleton.2 hvisit)
    · obtain ⟨v, hv, hvisit⟩ := Run.exists_of_mem_followed hvisit
      split at hvisit
      · cases hvisit
      · next htrue =>
        obtain ⟨p, rfl, hp⟩ := ihBody _ visit hvisit
        exact ⟨.inBody [] condition p none rest, rfl, hp.inBody hv (by simpa using htrue) none rest⟩
  case branchElse =>
    intro condition body other ihBody ihOther m rest visit hvisit
    rw [Stmt.visits] at hvisit
    rcases List.mem_cons.1 hvisit with hvisit | hvisit
    · exact hfirst rest visit (List.mem_singleton.2 hvisit)
    · obtain ⟨v, hv, hvisit⟩ := Run.exists_of_mem_followed hvisit
      split at hvisit
      · next hfalse =>
        obtain ⟨p, rfl, hp⟩ := ihOther _ visit hvisit
        exact ⟨.inElse [] condition body p rest, rfl, hp.inElse hv hfalse body rest⟩
      · next htrue =>
        obtain ⟨p, rfl, hp⟩ := ihBody _ visit hvisit
        exact ⟨.inBody [] condition p (some other) rest, rfl,
          hp.inBody hv (by simpa using htrue) (some other) rest⟩
  case comment =>
    intro text m rest
    exact hfirst rest
  case increment =>
    intro fixity operator operand m rest
    exact hfirst rest
  case nil =>
    intro m visit hvisit
    cases hvisit
  case cons =>
    intro s rest ihs ihrest m visit hvisit
    rw [blockVisits] at hvisit
    rcases List.mem_append.1 hvisit with hvisit | hvisit
    · exact ihs m rest visit hvisit
    · obtain ⟨_, hdone, hvisit⟩ := Run.exists_of_mem_followed hvisit
      obtain ⟨p, rfl, hp⟩ := ihrest _ visit hvisit
      exact ⟨p.prepend s, (p.fill_prepend s visit.1).symm, hp.prepend hdone⟩

end

/-! ### Steps -/

def Program.withLine (p : Program) (number : Int) (l : Line) : Program :=
  ⟨p.lines.set (number.toNat - 1) l⟩

theorem Program.length_withLine (p : Program) (number : Int) (l : Line) :
    (p.withLine number l).length = p.length :=
  List.length_set

theorem Program.line_withLine {p : Program} {number : Int} {l : Line}
    (h : p.line number = .ok l) (l' : Line) : (p.withLine number l').line number = .ok l' := by
  unfold line at h
  split at h
  · cases h
  · next hpos =>
    split at h
    · next hl =>
      have hlt : number.toNat - 1 < p.lines.length := (List.getElem?_eq_some_iff.1 hl).1
      rw [line, if_neg hpos, withLine, List.getElem?_set_self hlt]
    · cases h

def Site.withProgram (site : Site) (p : Program) : Site :=
  { site with chip.program := p }

/-- Taking a line depends on the program only through the run of the line. -/
theorem Site.takeLine_withProgram (site : Site) (p : Program) (number : Int) {l : Line}
    (hl : l.isFaulty = false) {statements : List Stmt}
    (h : site.execution statements = site.execution l.statements) :
    (site.withProgram p).takeLine number { l with statements } =
      ((site.takeLine number l).1.withProgram p, (site.takeLine number l).2) := by
  have hl' : Line.isFaulty { l with statements } = false := hl
  have hrun : ((site.withProgram p).cleared number).execution statements =
      (site.cleared number).execution l.statements := h
  rw [takeLine_of_sound hl, takeLine_of_sound hl']
  simp only [runLine, hrun]
  cases ((site.cleared number).execution l.statements).ending.record? <;> rfl

/-- The counter depends on the number of lines only. -/
theorem Site.advanced_withProgram {site : Site} {p : Program}
    (h : p.length = site.chip.program.length) :
    (site.withProgram p).advanced = site.advanced.withProgram p := by
  simp only [advanced, withProgram, h]

/-- In a line without syntax errors, every statement that is executed stands at a place that the run
reaches. If it halts or fails there, the statements that follow the place, and those that follow a
branch around it, do not matter to the step: with any others in their stead the step comes to the
same, apart from the program. The memory and the counter that the step leaves are those that the
statement leaves, starting from what was reached before it. -/
theorem halt_cuts_off_the_rest {site : Site} {l : Line}
    (hline : site.chip.program.line site.chip.line = .ok l) (hl : l.isFaulty = false) :
    let device := site.chip.device
    let limit := site.chip.settings.lineLimit
    let start : Machine := ⟨site.memory, site.chip.line⟩
    (∀ visit ∈ blockVisits device limit l.statements start,
      ∃ p : Place, l.statements = p.fill visit.1 ∧ p.Reaches device limit start visit.2) ∧
    ∀ (p : Place) (s : Stmt) (m : Machine), l.statements = p.fill s →
      p.Reaches device limit start m → (execute device limit s m).ending ≠ .done () →
      ∃ r, site.step = .ok r ∧
        r.1.memory = (execute device limit s m).state.memory ∧
        r.1.chip.line =
          (execute device limit s m).state.line % site.chip.program.length + 1 ∧
        ∀ q : Place, q.cut = p.cut →
          let other := site.chip.program.withLine site.chip.line { l with statements := q.fill s }
          (site.withProgram other).step = .ok (r.1.withProgram other, r.2) := by
  intro device limit start
  refine ⟨exists_place_of_mem_visits.2 l.statements start, ?_⟩
  rintro p s m hstatements ⟨hending, rfl⟩ hs
  have hne : site.chip.program.length ≠ 0 := by
    intro hempty
    have hmem := Program.mem_of_line_eq_ok hline
    rw [List.length_eq_zero_iff.1 hempty] at hmem
    cases hmem
  -- Filled in either way, the line runs up to the statement and through it.
  have hrun (q : Place) (hq : q.cut = p.cut) : site.execution (q.fill s) =
      (p.approach device limit >>= fun _ => execute device limit s) start := by
    have happroach : q.approach device limit = p.approach device limit :=
      Place.approach_eq_of_cut_eq hq
    rw [← happroach] at hending hs ⊢
    exact Place.executeBlock_fill hending hs
  have hstate : (site.execution l.runnable).state =
      (execute device limit s (p.approach device limit start).state).state := by
    rw [Site.runnable_of_sound hl, hstatements, hrun p rfl, Action.bind_apply, hending]
  refine ⟨_, Site.step_of_line hne hline, ?_, ?_, ?_⟩
  · show (site.takeLine site.chip.line l).1.memory = _
    rw [Site.memory_takeLine, hstate]
  · show (site.takeLine site.chip.line l).1.chip.line %
      (site.takeLine site.chip.line l).1.chip.program.length + 1 = _
    rw [Site.line_takeLine, Site.program_takeLine, hstate]
  · intro q hq other
    have hsame : site.execution (q.fill s) = site.execution l.statements := by
      rw [hstatements, hrun q hq, hrun p rfl]
    have hother : other.line site.chip.line = .ok { l with statements := q.fill s } :=
      Program.line_withLine hline _
    have hlength : other.length = site.chip.program.length := Program.length_withLine _ _ _
    have hstep := Site.step_of_line (show (site.withProgram other).chip.program.length ≠ 0 from
      hlength ▸ hne) hother
    rw [hstep]
    show Except.ok (((site.withProgram other).takeLine site.chip.line _).1.advanced,
      ((site.withProgram other).takeLine site.chip.line _).2) = _
    rw [Site.takeLine_withProgram site other site.chip.line hl hsame, Site.advanced_withProgram]
    rw [Site.program_takeLine, hlength]

/-- A place in the else part of a branch in the body of another. Before it a counter goes down, and
after it, after the inner branch and after the outer one there is room for more. -/
def gatePlace (next afterInner afterOuter : List Stmt) : Place :=
  .inBody [.assign ⟨"x"⟩ "=" (.number "1")] (.name ⟨"x"⟩)
    (.inElse [.goto (.number "3")] (.name ⟨"y"⟩) []
      (.here [.increment .pre "--" (.name ⟨"x"⟩)] next) afterInner)
    none afterOuter

/-- A division by that counter. -/
def gateStmt : Stmt :=
  .assign ⟨"z"⟩ "=" (.binary .mul "/" (.number "1") (.name ⟨"x"⟩))

/-- The line in which the division stands at that place, with much to do afterwards. -/
def gateLine : Line where
  statements := (gatePlace [.assign ⟨"x"⟩ "=" (.text "next")] [.goto (.number "1")]
    [.assign ⟨"x"⟩ "+=" (.text "after")]).fill gateStmt

/-- A chip without a world that starts with that line. -/
def gateSite : Site where
  chip := { device := none, program := ⟨[gateLine, {}, {}]⟩, settings := {}
            errors := { maxPerLine := 16 } }
  world := none

/-- The division by zero ends the line two branches deep. The counter stays down, the goto leads to
the third line, and with nothing or with anything else to do afterwards the step is the same. -/
theorem gate_cuts_off_the_rest :
    ∃ r, gateSite.step = .ok r ∧ r.1.chip.line = 3 ∧
      ∀ next afterInner afterOuter : List Stmt,
        let other := gateSite.chip.program.withLine 1
          { statements := (gatePlace next afterInner afterOuter).fill gateStmt }
        (gateSite.withProgram other).step = .ok (r.1.withProgram other, r.2) := by
  obtain ⟨_, hplaces⟩ := halt_cuts_off_the_rest
    (show gateSite.chip.program.line gateSite.chip.line = .ok gateLine from rfl) rfl
  obtain ⟨r, hr, _, hline, hothers⟩ := hplaces _ gateStmt _ rfl
    ⟨by decide +kernel, rfl⟩ (by decide +kernel)
  refine ⟨r, hr, ?_, fun next afterInner afterOuter => hothers _ rfl⟩
  rw [hline]
  decide +kernel

end ChipScript
