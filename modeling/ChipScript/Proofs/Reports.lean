import ChipScript.Proofs.World

/-!
# What a run reports

A mistake of the script is reported where it is found, deep inside an expression or a nested
branch, and then has to travel up through every expression and statement around it. This module
shows that nothing is lost or added on the way: a run that halts has reported one mistake, the one
that it halts with, and a run that completes or fails has reported none (`Run.Reported`).

Reading and writing tell nothing but details (`Trace.Quiet`): no report, no jump, no warning, no
error.
-/

namespace ChipScript

/-- The mistakes that are reported, in order. -/
def Trace.reports (t : Trace) : List ScriptError :=
  t.filterMap Event.report?

theorem Trace.reports_append (t t' : Trace) :
    Trace.reports (t ++ t') = t.reports ++ t'.reports :=
  List.filterMap_append

/-- The line that an event says a goto leads to. -/
def Event.jump? : Event → Option Int
  | jump line _ => some line
  | _ => none

def Trace.jumps (t : Trace) : List Int :=
  t.filterMap Event.jump?

theorem Trace.jumps_append (t t' : Trace) : Trace.jumps (t ++ t') = t.jumps ++ t'.jumps :=
  List.filterMap_append

/-- Nothing is told but details, and they are neither reports nor jumps. -/
def Trace.Quiet (t : Trace) : Prop :=
  ∀ e ∈ t, e.level = .debug ∧ e.report? = none ∧ e.jump? = none

theorem Trace.quiet_nil : Trace.Quiet [] := by
  intro e he
  cases he

theorem Trace.quiet_singleton {e : Event}
    (h : e.level = .debug ∧ e.report? = none ∧ e.jump? = none) : Trace.Quiet [e] := by
  intro e' he'
  obtain rfl := List.mem_singleton.1 he'
  exact h

/-- A quiet trace reports nothing. -/
theorem Trace.Quiet.reports_eq_nil {t : Trace} (h : t.Quiet) : t.reports = [] :=
  List.filterMap_eq_nil_iff.2 fun e he => (h e he).2.1

theorem Trace.Quiet.jumps_eq_nil {t : Trace} (h : t.Quiet) : t.jumps = [] :=
  List.filterMap_eq_nil_iff.2 fun e he => (h e he).2.2

/-! ### Reading and writing -/

/-- Reading a field is quiet. -/
theorem World.quiet_read {w : World} {handle : Option String} {field : String}
    {r : FieldRead × Trace} (h : w.read handle field = .ok r) : r.2.Quiet := by
  obtain ⟨reader, _, rfl⟩ := World.read_eq_ok h
  unfold World.classify
  split
  · exact Trace.quiet_nil
  · exact Trace.quiet_nil
  · exact Trace.quiet_singleton ⟨rfl, rfl, rfl⟩

namespace Memory

variable (device : Option String) (name : Name) (m : Memory)

theorem quiet_read : (Memory.read device name m).trace.Quiet := by
  unfold Memory.read
  split
  · exact Trace.quiet_nil
  · exact Trace.quiet_singleton ⟨rfl, rfl, rfl⟩
  · split
    · next h => exact World.quiet_read h
    · next h => exact World.quiet_read h
    · exact Trace.quiet_nil

theorem quiet_write (value : Value) : (Memory.write device name value m).trace.Quiet := by
  unfold Memory.write
  split
  · exact Trace.quiet_nil
  · exact Trace.quiet_singleton ⟨rfl, rfl, rfl⟩
  · split <;> exact Trace.quiet_nil

/-- A read does not halt: a conflict is for whoever reads to judge. -/
theorem read_ne_halted (why : ScriptError) : (Memory.read device name m).ending ≠ .halted why := by
  unfold Memory.read
  split
  · simp
  · simp
  · split <;> simp

/-- A write does not halt. -/
theorem write_ne_halted (value : Value) (why : ScriptError) :
    (Memory.write device name value m).ending ≠ .halted why := by
  unfold Memory.write
  split
  · simp
  · simp
  · split <;> simp

end Memory

/-! ### Running -/

/-- The mistakes that a run with a given ending has to have reported. -/
def Ending.reports {α : Type} : Ending α → List ScriptError
  | halted why => [why]
  | _ => []

/-- There is one report at most, at the end. -/
theorem Ending.length_reports_le {α : Type} (ending : Ending α) : ending.reports.length ≤ 1 := by
  cases ending <;> simp [reports]

theorem Ending.reports_of_ne_halted {α : Type} {ending : Ending α}
    (h : ∀ why, ending ≠ .halted why) : ending.reports = [] := by
  cases ending with
  | done a => rfl
  | halted why => exact absurd rfl (h why)
  | failed why => rfl

/-- The run has reported the mistake that it halts with and no other, and has told nothing but
details besides. -/
structure Run.Reported {σ α : Type} (r : Run σ α) : Prop where
  reports : r.trace.reports = r.ending.reports
  debug : ∀ e ∈ r.trace, e.level = .debug

namespace Run

variable {σ α : Type}

/-- A quiet run that is not halted reports what it should, which is nothing. -/
theorem reported_of_quiet {r : Run σ α} (hquiet : r.trace.Quiet)
    (hending : ∀ why, r.ending ≠ .halted why) : r.Reported where
  reports := by rw [hquiet.reports_eq_nil, Ending.reports_of_ne_halted hending]
  debug := fun e he => (hquiet e he).1

/-- Two runs in sequence: whatever the first reports, it halts with, and then the second does not
run. -/
theorem reported_bind {β : Type} {x : Action σ α} {f : α → Action σ β} {s : σ}
    (hx : (x s).Reported) (hf : ∀ a s', (f a s').Reported) : ((x >>= f) s).Reported := by
  rw [Action.bind_apply]
  cases hending : (x s).ending with
  | done a =>
    -- Only here does the second run, and here the first has nothing to report.
    have hnone : (x s).trace.reports = [] := by rw [hx.reports, hending]; rfl
    have hrest := hf a (x s).state
    refine ⟨?_, ?_⟩
    · show Trace.reports ((x s).trace ++ (f a (x s).state).trace) = _
      rw [Trace.reports_append, hnone, hrest.reports, List.nil_append]
    · intro e he
      rcases List.mem_append.1 he with he | he
      · exact hx.debug e he
      · exact hrest.debug e he
  | halted why => exact ⟨by rw [hx.reports, hending]; rfl, hx.debug⟩
  | failed why => exact ⟨by rw [hx.reports, hending]; rfl, hx.debug⟩

end Run

/-- To report at the end only, once, is kept by every sequence. -/
theorem compositional_reported {σ : Type} :
    Compositional fun (α : Type) (x : Action σ α) => ∀ s, (x s).Reported where
  pure := fun a s => ⟨rfl, by simp⟩
  halt := fun why s => ⟨rfl, by simp [Event.level]⟩
  fail := fun why s => ⟨rfl, by simp⟩
  bind := fun hx hf s => Run.reported_bind (hx s) hf

section

variable (device : Option String)

theorem reported_read (name : Name) (m : Memory) : (Memory.read device name m).Reported :=
  Run.reported_of_quiet (Memory.quiet_read device name m) (Memory.read_ne_halted device name m)

theorem reported_write (name : Name) (v : Value) (m : Memory) :
    (Memory.write device name v m).Reported :=
  Run.reported_of_quiet (Memory.quiet_write device name m v)
    (Memory.write_ne_halted device name m v)

/-- Executing statements reports the mistake that it halts with and no other. -/
theorem executeBlock_reported (limit : Int) (block : List Stmt) (m : Machine) :
    (executeBlock device limit block m).Reported := by
  -- Acting on the memory of a machine ends as it does on the memory alone, and tells the same.
  have onMemory {α : Type} {x : Action Memory α} (hx : ∀ s, (x s).Reported) (m : Machine) :
      (Machine.onMemory x m).Reported := ⟨(hx m.memory).reports, (hx m.memory).debug⟩
  have hread := reported_read device
  have hwrite := reported_write device
  apply (Compositional.execute_and_executeBlock compositional_reported ?_ ?_ ?_ ?_).2
  · intro line text m
    exact ⟨rfl, by simp [Event.level]⟩
  · intro line m
    exact ⟨rfl, by simp [Machine.jump]⟩
  · intro e
    exact onMemory (compositional_reported.evaluate hread hwrite e)
  · intro target operator value
    exact onMemory (compositional_reported.assign hread hwrite target operator value)

end

end ChipScript
