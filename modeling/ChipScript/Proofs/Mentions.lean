import ChipScript.Proofs.Step
import ChipScript.Proofs.World

/-!
# What a step depends on

A line mentions names, in its statements and in the expressions inside them, and a step reads and
writes no others. So a chip does not notice a change to a local that its line does not mention, nor
the difference between a local that was never set and one that is zero: the step tells the same,
leaves the same records, counter and world, and the locals that the line mentions read alike
afterwards.

The names that are mentioned come from walking over the tree (`Line.names`), the reads and writes
from running it. The two meet in `Sequential.executeBlock`, which runs over both at once: what
reading and writing the names of a line respects, the line respects.
-/

namespace ChipScript

/-- The names that the line at the counter mentions, and none if there is no such line. -/
def Chip.mentioned (chip : Chip) : List Name :=
  match chip.program.line chip.line with
  | .ok l => l.names
  | .error _ => []

/-- The locals among some names read alike, where one that was never set reads as zero. -/
def ReadAlike (names : List Name) (locals locals' : Locals) : Prop :=
  ∀ name ∈ names, name.scope = .chip →
    locals.getD name.key (.int 0) = locals'.getD name.key (.int 0)

/-- Locals that read alike still do after equal writes. -/
theorem ReadAlike.insert {names : List Name} {locals locals' : Locals}
    (h : ReadAlike names locals locals') (key : String) (value : Value) :
    ReadAlike names (locals.insert key value) (locals'.insert key value) := by
  intro name hname hscope
  simp only [Std.ExtTreeMap.getD_insert, h name hname hscope]

/-! ### Actions on states that are alike -/

/-- From states that are alike the action ends alike, tells the same and leaves states that are
alike. -/
def Action.Respects {σ α : Type} (alike : σ → σ → Prop) (x : Action σ α) : Prop :=
  ∀ s s', alike s s' →
    (x s).ending = (x s').ending ∧ (x s).trace = (x s').trace ∧ alike (x s).state (x s').state

/-- Respecting what is alike is kept by every sequence. -/
theorem compositional_respects {σ : Type} (alike : σ → σ → Prop) :
    Compositional fun (α : Type) (x : Action σ α) => x.Respects alike where
  pure := fun _ _ _ h => ⟨rfl, rfl, h⟩
  halt := fun _ _ _ h => ⟨rfl, rfl, h⟩
  fail := fun _ _ _ h => ⟨rfl, rfl, h⟩
  bind := by
    intro α β x f hx hf s s' h
    obtain ⟨hending, htrace, hstate⟩ := hx s s' h
    rw [Action.bind_apply, Action.bind_apply, ← hending, ← htrace]
    split
    · next a _ =>
      obtain ⟨hending', htrace', hstate'⟩ := hf a _ _ hstate
      exact ⟨hending', by rw [htrace'], hstate'⟩
    · exact ⟨rfl, rfl, hstate⟩
    · exact ⟨rfl, rfl, hstate⟩

namespace Memory

/-- The locals among some names read alike, and the world is the same. -/
structure Alike (names : List Name) (m m' : Memory) : Prop where
  locals : ReadAlike names m.locals m'.locals
  world : m.world = m'.world

variable {names : List Name} {device : Option String} {name : Name}

/-- A read of a name that is mentioned respects it. -/
theorem respects_read (hname : name ∈ names) : (read device name).Respects (Alike names) := by
  intro m m' h
  rw [state_read, state_read]
  unfold read
  cases hscope : name.scope with
  | chip => exact ⟨by simp only [h.locals name hname hscope], rfl, h⟩
  | field =>
    simp only [← h.world]
    cases m.world with
    | none => exact ⟨rfl, rfl, h⟩
    | some w =>
      -- Both read the same world, so they find the same or are refused alike.
      dsimp only
      split <;> exact ⟨rfl, rfl, h⟩

/-- A write respects it, of whatever name. -/
theorem respects_write (name : Name) (value : Value) :
    (write device name value).Respects (Alike names) := by
  intro m m' h
  unfold write
  cases hscope : name.scope with
  | chip => exact ⟨rfl, rfl, h.locals.insert name.key value, h.world⟩
  | field =>
    simp only [← h.world]
    cases m.world with
    | none => exact ⟨rfl, rfl, h⟩
    | some w =>
      cases hwrite : w.write device name.key value with
      | error why =>
        simp only [hwrite]
        exact ⟨trivial, trivial, h⟩
      | ok w' =>
        simp only [hwrite]
        exact ⟨trivial, trivial, h.locals, rfl⟩

end Memory

structure Machine.Alike (names : List Name) (m m' : Machine) : Prop where
  memory : m.memory.Alike names m'.memory
  line : m.line = m'.line

/-- Statements do not tell machines apart that are alike on the names that they mention. -/
theorem Machine.respects_executeBlock {names : List Name} {block : List Stmt}
    (hblock : blockNames block ⊆ names) (device : Option String) (limit : Int) :
    (executeBlock device limit block).Respects (Machine.Alike names) := by
  have hmemory := compositional_respects (Memory.Alike names)
  refine (compositional_respects (Machine.Alike names)).sequential.executeBlock ?_ ?_
    hmemory.sequential ?_ ?_ ?_
  · intro line text m m' h
    exact ⟨rfl, rfl, h⟩
  · intro line m m' h
    exact ⟨rfl, rfl, h.memory, rfl⟩
  · intro α x hx m m' h
    obtain ⟨hending, htrace, hstate⟩ := hx m.memory m'.memory h.memory
    exact ⟨hending, htrace, hstate, h.line⟩
  · intro name hname
    exact hmemory.readName (Memory.respects_read (hblock hname))
  · intro name _ v
    exact Memory.respects_write name v

/-! ### Steps -/

namespace Site

def withLocals (site : Site) (locals : Locals) : Site :=
  { site with chip.locals := locals }

theorem skipLine_withLocals (site : Site) (locals : Locals) (number : Int) (errorCount : Nat) :
    (site.withLocals locals).skipLine number errorCount =
      ((site.skipLine number errorCount).1.withLocals locals,
        (site.skipLine number errorCount).2) := by
  by_cases h : number ∈ site.chip.skipped <;> simp [skipLine, withLocals, h]

/-- Runs that differ in the locals that they leave are settled alike but for these. -/
theorem settle_withLocals (site : Site) (locals : Locals) (number : Int)
    {run run' : Run Machine Unit} (hending : run.ending = run'.ending)
    (htrace : run.trace = run'.trace)
    (hworld : run.state.memory.world = run'.state.memory.world)
    (hline : run.state.line = run'.state.line) :
    (site.withLocals locals).settle number run' =
      ((site.settle number run).1.withLocals run'.state.memory.locals,
        (site.settle number run).2) := by
  obtain ⟨ending, ⟨⟨before, world⟩, line⟩, trace⟩ := run
  obtain ⟨ending', ⟨⟨after, world'⟩, line'⟩, trace'⟩ := run'
  subst hending htrace hworld hline
  rfl

/-- Taking a line with other locals comes to the same apart from the locals, if those that the line
mentions read alike; and these read alike again. -/
theorem takeLine_withLocals {site : Site} {l : Line} {locals : Locals}
    (h : ReadAlike l.names site.chip.locals locals) (number : Int) :
    ∃ after, (site.withLocals locals).takeLine number l =
        ((site.takeLine number l).1.withLocals after, (site.takeLine number l).2) ∧
      ReadAlike l.names (site.takeLine number l).1.chip.locals after := by
  cases hl : l.isFaulty with
  | true =>
    refine ⟨locals, ?_, ?_⟩
    · rw [takeLine, takeLine, if_pos hl, if_pos hl]
      exact skipLine_withLocals (site.cleared number) locals number l.syntaxFaults.length
    · obtain ⟨skipped, hskipped⟩ := takeLine_of_faulty hl site number
      rw [hskipped]
      exact h
  | false =>
    let run := site.execution l.statements
    let run' := (site.withLocals locals).execution l.statements
    have hblock : blockNames l.statements ⊆ l.names := by
      rw [Line.names_eq_blockNames]
      exact List.Subset.refl _
    obtain ⟨hending, htrace, hstate⟩ := Machine.respects_executeBlock hblock site.chip.device
      site.chip.settings.lineLimit ⟨site.memory, site.chip.line⟩
      ⟨(site.withLocals locals).memory, site.chip.line⟩ ⟨⟨h, rfl⟩, rfl⟩
    replace hending : run.ending = run'.ending := hending
    replace htrace : run.trace = run'.trace := htrace
    have hsettled := settle_withLocals (site.cleared number) locals number hending htrace
      hstate.memory.world hstate.line
    refine ⟨run'.state.memory.locals, ?_, ?_⟩
    · rw [takeLine_of_sound hl, takeLine_of_sound hl]
      exact congrArg (fun r => (r.1, Event.executing number :: r.2)) hsettled
    · have hlocals : (site.takeLine number l).1.chip.locals = run.state.memory.locals := by
        have hmemory := memory_takeLine site number l
        rw [runnable_of_sound hl] at hmemory
        exact congrArg Memory.locals hmemory
      rw [hlocals]
      exact hstate.memory.locals

end Site

/-- A step depends on no local but those that its line mentions. With any other locals among which
these read alike, the step comes to the same apart from the locals, and these read alike again. Only
a counter that is out of range is refused, and then with all locals alike. -/
theorem step_depends_on_mentioned_names {site : Site} {locals : Locals}
    (h : ReadAlike site.chip.mentioned site.chip.locals locals) :
    (∃ r after, site.step = .ok r ∧
        (site.withLocals locals).step = .ok (r.1.withLocals after, r.2) ∧
        ReadAlike site.chip.mentioned r.1.chip.locals after) ∨
      (¬ site.chip.InRange ∧
        ∃ why, site.step = .error why ∧ (site.withLocals locals).step = .error why) := by
  by_cases hempty : site.chip.program.length = 0
  · exact .inl ⟨_, locals, Site.step_of_empty hempty, Site.step_of_empty hempty, h⟩
  · cases hline : site.chip.program.line site.chip.line with
    | error why =>
      refine .inr ⟨fun hrange => ?_, why, Site.step_of_no_line hempty hline,
        Site.step_of_no_line hempty hline⟩
      have hle : site.chip.line ≤ site.chip.program.length := by
        have := hrange.2
        omega
      obtain ⟨l, hl⟩ := Program.exists_line hrange.1 hle
      cases hline.symm.trans hl
    | ok l =>
      have hmentioned : site.chip.mentioned = l.names := by rw [Chip.mentioned, hline]
      rw [hmentioned] at h ⊢
      obtain ⟨after, htake, hafter⟩ := Site.takeLine_withLocals h site.chip.line
      refine .inl ⟨_, after, Site.step_of_line hempty hline, ?_, hafter⟩
      have hstep : (site.withLocals locals).step = _ := Site.step_of_line hempty hline
      rw [hstep]
      show Except.ok (((site.withLocals locals).takeLine site.chip.line l).1.advanced,
        ((site.withLocals locals).takeLine site.chip.line l).2) = _
      rw [htake]
      rfl

/-- A chip that counts down into a field and then goes to a line that was never set. -/
def stocktaking : Site where
  chip :=
    { device := some "shelf"
      program := ⟨[{ statements := [
        .branch (.binary .neq ">" (.name ⟨"count"⟩) (.number "1"))
          [.assign ⟨":stock"⟩ "=" (.increment .post "--" (.name ⟨"count"⟩)),
            .goto (.name ⟨"low"⟩)] none] }, {}]⟩
      settings := {}
      errors := { maxPerLine := 16 }
      locals := (∅ : Locals).insert "count" (.int 2) }
  world := some (World.empty.add (.new "shelf" [] "store"))

/-- The same count, with a zero where nothing was set and a note that the line does not mention. -/
def notedLocals : Locals :=
  ((∅ : Locals).insert "note" (.text "two left")).insert "low" (.int 0) |>.insert "count" (.int 2)

/-- The step does not notice the note, nor the zero. -/
theorem stocktaking_ignores_the_note :
    stocktaking.chip.mentioned = [⟨"count"⟩, ⟨":stock"⟩, ⟨"count"⟩, ⟨"low"⟩] ∧
      ReadAlike stocktaking.chip.mentioned stocktaking.chip.locals notedLocals ∧
      ∃ r after, stocktaking.step = .ok r ∧
        (stocktaking.withLocals notedLocals).step = .ok (r.1.withLocals after, r.2) ∧
        ReadAlike stocktaking.chip.mentioned r.1.chip.locals after := by
  have hmentioned : stocktaking.chip.mentioned = [⟨"count"⟩, ⟨":stock"⟩, ⟨"count"⟩, ⟨"low"⟩] := by
    decide +kernel
  have halike : ReadAlike stocktaking.chip.mentioned stocktaking.chip.locals notedLocals := by
    rw [hmentioned]
    unfold ReadAlike
    decide +kernel
  refine ⟨hmentioned, halike, ?_⟩
  rcases step_depends_on_mentioned_names halike with h | ⟨hrange, _⟩
  · exact h
  · exact absurd (Chip.inRange_one rfl) hrange

end ChipScript
