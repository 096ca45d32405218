import ChipScript.Proofs.Jumps
import ChipScript.Proofs.Safety

/-!
# Integers stay bounded

If a chip starts with bounded integers and its host gives it no others, all integers in its locals
and in the fields of the world stay bounded, whatever the program, and so do the values of all
expressions. A program that is not well formed and a chip without a device are no exception: a line
that fails leaves a bounded memory too.

The bound does not rest on the memory alone. What an operator, a keyword or an increment makes of
its operands is bounded even if they are integers of any size, as a host may set them; only a value
that is copied, or left over by an increment that stands after its operand, is as large as it was.
-/

namespace ChipScript

theorem Action.Keeps.of_done {σ α : Type} {I : σ → Prop} {E : Fault → Prop} {Q : α → Prop}
    {x : Action σ α} (hx : Keeps I E Q x) {s : σ} (hs : I s) {a : α}
    (h : (x s).ending = .done a) : Q a := by
  have hmeets := (hx s hs).2
  rw [h] at hmeets
  exact hmeets

/-! ### Whatever the operands -/

/-- Operators give bounded values, whatever they get. -/
theorem Operator.bounded_applySymbol {σ : Type} {symbol : String} {a b v : Value} {s : σ}
    (h : (applySymbol symbol a b s).ending = .done v) : v.Bounded := by
  have hkeeps : Action.Keeps (fun _ : σ => True) (fun _ => True) Value.Bounded
      (applySymbol symbol a b) := keeps_applySymbol (.inr fun _ => trivial) a b
  exact hkeeps.of_done trivial h

/-- Keywords give bounded values, whatever they get. -/
theorem bounded_keyword {device : Option String} {word : String} {operand : Expr} {m : Memory}
    {v : Value} (h : (evaluate device (.keyword word operand) m).ending = .done v) :
    v.Bounded := by
  obtain ⟨keyword, _, h, _⟩ := Action.exists_of_bind_done h
  obtain ⟨u, _, h, _⟩ := Action.exists_of_bind_done h
  have hmeets := keyword.meets_apply (E := fun _ => False) u
  exact hmeets.of_done (Action.eq_done_of_ofEnding h).1

/-- An increment that is done has a new value, which is bounded, and writes it back; its own value
is the new or the old one. -/
theorem exists_new_of_increment {device : Option String} {fixity : Fixity} {operator : String}
    {operand : Expr} {m : Memory} {v : Value}
    (h : (evaluate device (.increment fixity operator operand) m).ending = .done v) :
    ∃ new old : Value, new.Bounded ∧ v = fixity.pick new old ∧
      (evaluate device operand m).ending = .done old ∧
      (evaluate device (.increment fixity operator operand) m).state =
        (writeBack device operand new (evaluate device operand m).state).state := by
  obtain ⟨step, hstep, h, hstate⟩ := Action.exists_of_bind_done h
  obtain ⟨hknown, hsame⟩ := Action.demand_done hstep
  rw [hsame] at h hstate
  obtain ⟨old, hold, h, hstate₁⟩ := Action.exists_of_bind_done h
  obtain ⟨a, ha, h, hstate₂⟩ := Action.exists_of_bind_done h
  obtain ⟨hnumber, hsame₂⟩ := Action.eq_done_of_ofEnding ha
  rw [hsame₂] at h hstate₂
  obtain ⟨new, hnew, h, hstate₃⟩ := Action.exists_of_bind_done h
  obtain ⟨hsum, hsame₃⟩ := Action.eq_done_of_ofEnding hnew
  rw [hsame₃] at h hstate₃
  obtain ⟨_, _, h, hstate₄⟩ := Action.exists_of_bind_done h
  cases h
  have ha_bounded := (old.meets_number (E := fun _ => False)).of_done hnumber
  obtain ⟨_, hb, hb_bounded⟩ := succeeds_of_stepOf? hknown ha_bounded
  rw [hb] at hsum
  cases hsum
  refine ⟨.num new, old, hb_bounded, rfl, hold, ?_⟩
  exact hstate.trans (hstate₁.trans (hstate₂.trans (hstate₃.trans hstate₄)))

/-! ### In a bounded memory -/

section

variable {device : Option String}

/-- In a bounded memory an expression has a bounded value and leaves a bounded memory, well formed
or not, and with a device or without. -/
theorem bounded_evaluate {m : Memory} (hm : m.Bounded) (e : Expr) :
    (evaluate device e m).state.Bounded ∧
      ∀ v, (evaluate device e m).ending = .done v → v.Bounded := by
  have hkeeps : Action.Keeps (Memory.Fit device False) (fun _ => True) Value.Bounded
      (evaluate device e) := keeps_evaluate (.inr fun _ => trivial) (.inr fun _ => trivial)
  have hfit : m.Fit device False := ⟨hm, False.elim⟩
  exact ⟨(hkeeps m hfit).1.bounded, fun v hv => hkeeps.of_done hfit hv⟩

theorem bounded_execute (limit : Int) {m : Machine} (hm : m.memory.Bounded) (s : Stmt) :
    (execute device limit s m).state.memory.Bounded := by
  have hkeeps : Action.Keeps (fun m : Machine => m.memory.Fit device False) (fun _ => True)
      (fun _ => True) (execute device limit s) :=
    (keeps_execute_and_executeBlock (.inr fun _ => trivial) (.inr trivial)).1 s
      (.inr fun _ => trivial)
  exact (hkeeps m ⟨hm, False.elim⟩).1.bounded

/-- In a bounded memory a block leaves a bounded one, however it ends. -/
theorem bounded_executeBlock (limit : Int) {m : Machine} (hm : m.memory.Bounded)
    (block : List Stmt) : (executeBlock device limit block m).state.memory.Bounded := by
  have hkeeps : Action.Keeps (fun m : Machine => m.memory.Fit device False) (fun _ => True)
      (fun _ => True) (executeBlock device limit block) :=
    (keeps_execute_and_executeBlock (.inr fun _ => trivial) (.inr trivial)).2 block
      (.inr fun _ => trivial)
  exact (hkeeps m ⟨hm, False.elim⟩).1.bounded

/-- Every statement that is executed starts from a bounded memory, at whatever depth it stands. -/
theorem bounded_visits (limit : Int) :
    (∀ (s : Stmt) (m : Machine), m.memory.Bounded →
      ∀ visit ∈ s.visits device limit m, visit.2.memory.Bounded) ∧
    ∀ (block : List Stmt) (m : Machine), m.memory.Bounded →
      ∀ visit ∈ blockVisits device limit block m, visit.2.memory.Bounded := by
  have hfirst {s : Stmt} {m : Machine} (hm : m.memory.Bounded) :
      ∀ visit ∈ [(s, m)], visit.2.memory.Bounded := by
    intro visit hvisit
    obtain rfl := List.mem_singleton.1 hvisit
    exact hm
  have hcondition (condition : Expr) {m : Machine} (hm : m.memory.Bounded) :
      (Machine.onMemory (evaluate device condition) m).state.memory.Bounded :=
    (bounded_evaluate hm condition).1
  apply Stmt.mutual_induction
  case assign =>
    intro target operator value m hm
    exact hfirst hm
  case goto =>
    intro target m hm
    exact hfirst hm
  case branch =>
    intro condition body ihBody m hm visit hvisit
    rw [Stmt.visits] at hvisit
    rcases List.mem_cons.1 hvisit with rfl | hvisit
    · exact hm
    · obtain ⟨v, _, hvisit⟩ := Run.exists_of_mem_followed hvisit
      split at hvisit
      · cases hvisit
      · exact ihBody _ (hcondition condition hm) visit hvisit
  case branchElse =>
    intro condition body other ihBody ihOther m hm visit hvisit
    rw [Stmt.visits] at hvisit
    rcases List.mem_cons.1 hvisit with rfl | hvisit
    · exact hm
    · obtain ⟨v, _, hvisit⟩ := Run.exists_of_mem_followed hvisit
      split at hvisit
      · exact ihOther _ (hcondition condition hm) visit hvisit
      · exact ihBody _ (hcondition condition hm) visit hvisit
  case comment =>
    intro text m hm
    exact hfirst hm
  case increment =>
    intro fixity operator operand m hm
    exact hfirst hm
  case nil =>
    intro m hm visit hvisit
    cases hvisit
  case cons =>
    intro s rest ihs ihrest m hm visit hvisit
    rw [blockVisits] at hvisit
    rcases List.mem_append.1 hvisit with hvisit | hvisit
    · exact ihs m hm visit hvisit
    · obtain ⟨_, _, hvisit⟩ := Run.exists_of_mem_followed hvisit
      exact ihrest _ (bounded_execute limit hm s) visit hvisit

end

/-! ### Runs -/

namespace Site

/-- A step leaves a bounded memory. -/
theorem bounded_step {site : Site} (hsound : site.chip.Sound) (h : site.memory.Bounded) :
    ∃ r, site.step = .ok r ∧ r.1.chip.Sound ∧ r.1.memory.Bounded := by
  rcases site.step_cases hsound.inRange with ⟨_, hstep⟩ | ⟨l, _, hne, _, hstep⟩
  · exact ⟨_, hstep, hsound, h⟩
  · refine ⟨_, hstep, sound_advanced_takeLine hsound hne l, ?_⟩
    show (site.takeLine site.chip.line l).1.memory.Bounded
    rw [memory_takeLine]
    exact bounded_executeBlock _ h l.runnable

/-- Any number of steps leaves a bounded memory. -/
theorem bounded_steps {site : Site} (hsound : site.chip.Sound) (h : site.memory.Bounded) (n : Nat) :
    ∃ r, site.steps n = .ok r ∧ r.1.chip.Sound ∧ r.1.memory.Bounded := by
  have hstep (site : Site) (hsite : site.chip.Sound ∧ site.memory.Bounded) :
      ∃ r, site.step = .ok r ∧ (r.1.chip.Sound ∧ r.1.memory.Bounded) ∧ ∀ e ∈ r.2, True := by
    obtain ⟨r, hr, hnext⟩ := bounded_step hsite.1 hsite.2
    exact ⟨r, hr, hnext, fun _ _ => trivial⟩
  obtain ⟨r, hr, hnext, _⟩ := steps_induction hstep n ⟨hsound, h⟩
  exact ⟨r, hr, hnext⟩

/-- A host that gives bounded values only keeps the memory bounded. -/
theorem bounded_after {site : Site} (hsound : site.chip.Sound) (h : site.memory.Bounded)
    {actions : List HostAction} (hactions : ∀ a ∈ actions, a.Bounded) :
    (site.after actions).chip.Sound ∧ (site.after actions).memory.Bounded := by
  induction actions generalizing site with
  | nil => exact ⟨hsound, h⟩
  | cons a rest ih =>
    have hsound' := ((invariant_sound site.chip.build).perform a ⟨hsound, rfl⟩).1.1
    have hsteps (n : Nat) (r : Site × Trace) (hr : site.steps n = .ok r) : r.1.memory.Bounded := by
      obtain ⟨r', hr', _, hbounded⟩ := bounded_steps hsound h n
      obtain rfl := Except.ok.inj (hr.symm.trans hr')
      exact hbounded
    have hbounded := HostAction.bounded_perform (hactions a List.mem_cons_self) h hsteps
    exact ih hsound' hbounded fun b hb => hactions b (List.mem_cons_of_mem a hb)

end Site

/-- From bounded locals and fields, and with a host that gives bounded values only, every integer in
the locals and fields stays bounded, at every step of every program and before every statement of a
step; in a bounded memory every expression has a bounded value. What operators, keywords and
increments give is bounded even for operands that are not. -/
theorem integers_stay_bounded {device : Option String} {program : Program} {settings : Settings}
    {chip : Chip} (hnew : Chip.new device program settings = .ok chip) {start : Memory}
    (hstart : start.Bounded) {actions : List HostAction} (hactions : ∀ a ∈ actions, a.Bounded) :
    let site := (chip.starting start).after actions
    site.memory.Bounded ∧
    (∀ n, ∃ r, site.steps n = .ok r ∧ r.1.memory.Bounded) ∧
    (∀ (block : List Stmt), ∀ visit ∈ blockVisits device settings.lineLimit block
      ⟨site.memory, site.chip.line⟩, visit.2.memory.Bounded) ∧
    (∀ (m : Memory), m.Bounded → ∀ (e : Expr), (evaluate device e m).state.Bounded ∧
      ∀ v, (evaluate device e m).ending = .done v → v.Bounded) ∧
    (∀ (symbol : String) (a b : Value) (m : Memory) (v : Value),
      (Operator.applySymbol symbol a b m).ending = .done v → v.Bounded) ∧
    (∀ (word : String) (operand : Expr) (m : Memory) (v : Value),
      (evaluate device (.keyword word operand) m).ending = .done v → v.Bounded) ∧
    (∀ (fixity : Fixity) (operator : String) (operand : Expr) (m : Memory) (v : Value),
      (evaluate device (.increment fixity operator operand) m).ending = .done v →
        ∃ new old : Value, new.Bounded ∧ v = fixity.pick new old ∧
          (evaluate device operand m).ending = .done old ∧
          (evaluate device (.increment fixity operator operand) m).state =
            (writeBack device operand new (evaluate device operand m).state).state) := by
  intro site
  have hsound : (chip.starting start).chip.Sound :=
    (Chip.sound_new hnew).of_build rfl (Chip.sound_new hnew).inRange
  obtain ⟨hsite, hbounded⟩ := Site.bounded_after hsound hstart hactions
  refine ⟨hbounded, ?_, ?_, ?_, ?_, ?_, ?_⟩
  · intro n
    obtain ⟨r, hr, _, hr_bounded⟩ := Site.bounded_steps hsite hbounded n
    exact ⟨r, hr, hr_bounded⟩
  · intro block visit hvisit
    exact (bounded_visits settings.lineLimit).2 block _ hbounded visit hvisit
  · intro m hm e
    exact bounded_evaluate hm e
  · intro symbol a b m v hv
    exact Operator.bounded_applySymbol hv
  · intro word operand m v hv
    exact bounded_keyword hv
  · intro fixity operator operand m v hv
    exact exists_new_of_increment hv

/-- A chip that squares a field, counts it up and then meets an operator that it does not know. -/
def squaringChip : Chip where
  device := some "tally"
  program := ⟨[{ statements := [.assign ⟨":total"⟩ "*=" (.name ⟨":TOTAL"⟩),
    .assign ⟨"last"⟩ "=" (.increment .post "++" (.name ⟨"count"⟩)),
    .assign ⟨"x"⟩ "?=" (.number "1")] }]⟩
  settings := {}
  errors := { maxPerLine := 16 }

/-- A memory in which the next square and the next count are beyond the bound. -/
def tallyMemory : Memory where
  locals := (∅ : Locals).insert "count" (.int 9007199254740992)
  world := some (World.empty.add (.new "tally" [("Total", .int (-9007199254740992))] "default"))

/-- The program is not well formed and every line fails, but no integer leaves its bounds. -/
theorem squaring_stays_bounded :
    squaringChip.program.wellFormed = false ∧
      let site := (squaringChip.starting tallyMemory).after
        [.run 3, .world (.write (some "tally") "total" (.int 9007199254740992)), .step]
      site.memory.Bounded ∧ ∀ n, ∃ r, site.steps n = .ok r ∧ r.1.memory.Bounded := by
  have hnew : Chip.new (some "tally") squaringChip.program {} = .ok squaringChip := rfl
  have hstart : tallyMemory.Bounded := by
    refine ⟨allBounded_empty.insert (by decide) "count", ?_⟩
    rintro _ ⟨⟩
    refine World.bounded_add (fun d hd => ?_) (Device.allBounded_new "tally" (by decide) "default")
    cases hd
  obtain ⟨hsite, hsteps, _⟩ := integers_stay_bounded hnew hstart
    (show ∀ a ∈ [HostAction.run 3, .world (.write (some "tally") "total" (.int 9007199254740992)),
      .step], a.Bounded by decide)
  exact ⟨by decide +kernel, hsite, hsteps⟩

end ChipScript
