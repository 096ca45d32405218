import ChipScript.Proofs.Halts
import ChipScript.Proofs.Records

/-!
# Lines with syntax errors

A line with syntax errors is never run, whatever statements came with it. So two programs that
differ only in the statements of such lines cannot be told apart: every action of a host has the
same answer and leaves the same site, and the same is told (`Program.GatedAlike.responses_eq`). Each
step is the same on both, so this is a simulation of one run by the other.

What is told of such a line is one warning, the first time that a step is taken at it. The chip
remembers the lines that it has warned of, and forgets them when it is reset. `Skips` says what
becomes of this memory between two sites for one line, and what is told meanwhile; it holds of each
action but a reset, and passes from one action to the next (`Skips.trans`).
-/

namespace ChipScript

/-! ### Programs that differ in lines that do not run -/

/-- The lines have the same syntax errors, and if there are none the same statements. -/
structure Line.GatedAlike (l l' : Line) : Prop where
  syntaxFaults : l.syntaxFaults = l'.syntaxFaults
  statements : l.syntaxFaults = [] → l.statements = l'.statements

/-- The programs have equally many lines, and these differ only in statements that never run. -/
def Program.GatedAlike (p p' : Program) : Prop :=
  List.Forall₂ Line.GatedAlike p.lines p'.lines

theorem Line.GatedAlike.isFaulty_eq {l l' : Line} (h : l.GatedAlike l') :
    l.isFaulty = l'.isFaulty := by
  unfold Line.isFaulty
  rw [h.syntaxFaults]

/-- Lines without syntax errors that are gated alike are the same. -/
theorem Line.GatedAlike.eq_of_sound {l l' : Line} (h : l.GatedAlike l')
    (hl : l.isFaulty = false) : l = l' := by
  have hnone : l.syntaxFaults = [] := by simpa [Line.isFaulty] using hl
  cases l
  cases l'
  simp only [Line.mk.injEq]
  exact ⟨h.statements hnone, h.syntaxFaults⟩

namespace Program.GatedAlike

variable {p p' : Program}

theorem length_eq (h : p.GatedAlike p') : p.length = p'.length :=
  List.Forall₂.length_eq h

/-- The lines of a number are alike, or neither program has one. -/
theorem line_cases (h : p.GatedAlike p') (number : Int) :
    (∃ l l', p.line number = .ok l ∧ p'.line number = .ok l' ∧ l.GatedAlike l') ∨
      ∃ why, p.line number = .error why ∧ p'.line number = .error why := by
  unfold Program.line
  rw [h.length_eq]
  by_cases hlow : number < 1
  · exact .inr ⟨_, if_pos hlow, if_pos hlow⟩
  · rw [if_neg hlow, if_neg hlow]
    by_cases hlt : number.toNat - 1 < p.lines.length
    · have hlt' : number.toNat - 1 < p'.lines.length := by
        rwa [← List.Forall₂.length_eq h]
      rw [List.getElem?_eq_getElem hlt, List.getElem?_eq_getElem hlt']
      exact .inl ⟨_, _, rfl, rfl, List.Forall₂.get h hlt hlt'⟩
    · have hge' : p'.lines.length ≤ number.toNat - 1 := by
        rw [← List.Forall₂.length_eq h]
        omega
      rw [List.getElem?_eq_none (by omega), List.getElem?_eq_none hge']
      exact .inr ⟨_, rfl, rfl⟩

end Program.GatedAlike

namespace Site

variable {site : Site} {p : Program}

/-- Lines that are gated alike are taken alike. -/
theorem takeLine_of_gatedAlike {l l' : Line} (h : l.GatedAlike l') (number : Int) :
    (site.withProgram p).takeLine number l' =
      ((site.takeLine number l).1.withProgram p, (site.takeLine number l).2) := by
  cases hl : l.isFaulty with
  | true =>
    have hl' : l'.isFaulty = true := h.isFaulty_eq ▸ hl
    rw [takeLine, takeLine, if_pos hl, if_pos hl', ← h.syntaxFaults]
    by_cases hmem : number ∈ site.chip.skipped <;> simp [skipLine, withProgram, hmem]
  | false =>
    obtain rfl := h.eq_of_sound hl
    exact takeLine_withProgram site p number hl rfl

/-- A step of one program is a step of the other. -/
theorem step_of_gatedAlike (h : site.chip.program.GatedAlike p) :
    (site.withProgram p).step = site.step.map fun r => (r.1.withProgram p, r.2) := by
  by_cases hempty : site.chip.program.length = 0
  · have hempty' : p.length = 0 := h.length_eq ▸ hempty
    rw [step_of_empty hempty, step_of_empty (show (site.withProgram p).chip.program.length = 0 from
      hempty')]
    rfl
  · have hne : (site.withProgram p).chip.program.length ≠ 0 := fun heq =>
      hempty (h.length_eq.trans heq)
    rcases h.line_cases site.chip.line with ⟨l, l', hl, hl', halike⟩ | ⟨why, hwhy, hwhy'⟩
    · have hstep : (site.withProgram p).step = _ := step_of_line hne hl'
      rw [hstep, step_of_line hempty hl]
      show Except.ok (((site.withProgram p).takeLine site.chip.line l').1.advanced,
        ((site.withProgram p).takeLine site.chip.line l').2) = _
      rw [takeLine_of_gatedAlike halike, advanced_withProgram]
      · rfl
      · rw [program_takeLine, h.length_eq]
    · have hstep : (site.withProgram p).step = .error why := step_of_no_line hne hwhy'
      rw [hstep, step_of_no_line hempty hwhy]
      rfl

/-- No step changes the program. -/
theorem program_step {r : Site × Trace} (h : site.step = .ok r) :
    r.1.chip.program = site.chip.program := by
  by_cases hempty : site.chip.program.length = 0
  · rw [step_of_empty hempty] at h
    cases h
    rfl
  · cases hl : site.chip.program.line site.chip.line with
    | error why =>
      rw [step_of_no_line hempty hl] at h
      cases h
    | ok l =>
      rw [step_of_line hempty hl] at h
      cases h
      exact program_takeLine site site.chip.line l

/-- Any number of steps goes alike. -/
theorem steps_of_gatedAlike (n : Nat) (h : site.chip.program.GatedAlike p) :
    (site.withProgram p).steps n = (site.steps n).map fun r => (r.1.withProgram p, r.2) := by
  induction n generalizing site with
  | zero => rfl
  | succ n ih =>
    rw [steps, steps, step_of_gatedAlike h]
    cases hstep : site.step with
    | error why => rfl
    | ok first =>
      have hfirst : first.1.chip.program.GatedAlike p := by rwa [program_step hstep]
      show ((first.1.withProgram p).steps n >>= _) = ((first.1.steps n >>= _) : Except _ _).map _
      rw [ih hfirst]
      cases first.1.steps n <;> rfl

end Site

/-! ### Hosts that cannot tell them apart -/

def Response.withProgram (r : Response) (p : Program) : Response :=
  { r with site := r.site.withProgram p }

/-- What actions come to, one after another. -/
def Site.responses (site : Site) : List HostAction → List Response
  | [] => []
  | a :: rest => a.perform site :: (a.perform site).site.responses rest

theorem HostAction.ofSteps_withProgram (site : Site) (p : Program)
    (r : Except LineError (Site × Trace)) :
    ofSteps (site.withProgram p) (r.map fun r => (r.1.withProgram p, r.2)) =
      (ofSteps site r).withProgram p := by
  cases r <;> rfl

/-- To every action the two programs give the same response. -/
theorem HostAction.perform_of_gatedAlike {site : Site} {p : Program}
    (h : site.chip.program.GatedAlike p) (a : HostAction) :
    a.perform (site.withProgram p) = (a.perform site).withProgram p := by
  cases a with
  | step => rw [perform, Site.step_of_gatedAlike h, ofSteps_withProgram, perform]
  | run count => rw [perform, Site.steps_of_gatedAlike _ h, ofSteps_withProgram, perform]
  | get name => rfl
  | set name value => rfl
  | setLine line =>
    have hlength : (site.withProgram p).chip.program.length = site.chip.program.length :=
      h.length_eq.symm
    simp only [perform, Chip.setLine, hlength]
    by_cases hline : 1 ≤ line ∧ line ≤ max site.chip.program.length 1 <;> simp only [hline] <;> rfl
  | reset => rfl
  | world action =>
    obtain ⟨chip, world⟩ := site
    cases world <;> rfl

theorem Chip.new_of_gatedAlike {p p' : Program} (h : p.GatedAlike p') (device : Option String)
    (settings : Settings) :
    Chip.new device p' settings =
      (Chip.new device p settings).map fun chip => { chip with program := p' } := by
  unfold Chip.new
  rw [h.length_eq]
  split <;> rfl

/-- No action changes the program. -/
theorem HostAction.program_perform (a : HostAction) {site : Site} (h : site.chip.Sound) :
    (a.perform site).site.chip.program = site.chip.program :=
  congrArg (·.2.1) ((invariant_sound site.chip.build).perform a ⟨h, rfl⟩).1.2

/-- Every action has the same answer, tells the same and leaves the same but for the program. -/
theorem Program.GatedAlike.responses_eq {site : Site} {p : Program}
    (h : site.chip.program.GatedAlike p) (hsound : site.chip.Sound) (actions : List HostAction) :
    (site.withProgram p).responses actions = (site.responses actions).map (·.withProgram p) := by
  induction actions generalizing site with
  | nil => rfl
  | cons a rest ih =>
    have hnext : (a.perform site).site.chip.program.GatedAlike p := by
      rwa [a.program_perform hsound]
    have hsound' := ((invariant_sound site.chip.build).perform a ⟨hsound, rfl⟩).1.1
    rw [Site.responses, Site.responses, List.map_cons, a.perform_of_gatedAlike h]
    exact congrArg _ (ih hnext hsound')

/-! ### Steps at a line -/

/-- The lines at which a number of steps is taken. -/
def Site.linesTaken : Nat → Site → List Int
  | 0, _ => []
  | n + 1, site =>
    match site.step with
    | .ok r => site.chip.line :: r.1.linesTaken n
    | .error _ => []

/-- The lines at which an action takes steps. -/
def HostAction.linesTaken : HostAction → Site → List Int
  | step, site => site.linesTaken 1
  | run count, site => site.linesTaken count.toNat
  | _, _ => []

def Site.linesTakenBy (site : Site) : List HostAction → List Int
  | [] => []
  | a :: rest => a.linesTaken site ++ (a.perform site).site.linesTakenBy rest

def Site.told (site : Site) (actions : List HostAction) : Trace :=
  (site.responses actions).flatMap Response.trace

/-! ### Warnings -/

/-- The line that an event says is skipped. -/
def Event.skipped? : Event → Option Int
  | lineSkipped line _ => some line
  | _ => none

/-- The events that say of a line that it is skipped. -/
def Trace.skipsOf (number : Int) (t : Trace) : Trace :=
  t.filter (·.skipped? = some number)

theorem Trace.skipsOf_append (number : Int) (t t' : Trace) :
    Trace.skipsOf number (t ++ t') = t.skipsOf number ++ t'.skipsOf number :=
  List.filter_append _ _

theorem Trace.skipsOf_eq_nil {number : Int} {t : Trace}
    (h : ∀ e ∈ t, e.skipped? ≠ some number) : t.skipsOf number = [] := by
  simpa [skipsOf, List.filter_eq_nil_iff] using h

theorem Event.skipped?_eq_none_of_debug {e : Event} (h : e.level = .debug) : e.skipped? = none := by
  cases e with
  | lineSkipped line errorCount => cases h
  | _ => rfl

theorem Trace.Quiet.skipsOf_eq_nil {number : Int} {t : Trace} (h : t.Quiet) :
    t.skipsOf number = [] := by
  refine Trace.skipsOf_eq_nil fun e he => ?_
  simp [Event.skipped?_eq_none_of_debug (h e he).1]

/-- Between two sites steps were taken at some lines. For one line, there was a warning if it was
among them and there had been no warning before; and the chip remembers that. -/
structure Skips (number : Int) (warning : Event) (site site' : Site) (taken : List Int)
    (t : Trace) : Prop where
  told : t.skipsOf number =
    if number ∉ site.chip.skipped ∧ number ∈ taken then [warning] else []
  skipped : number ∈ site'.chip.skipped ↔ number ∈ site.chip.skipped ∨ number ∈ taken

namespace Skips

variable {number : Int} {warning : Event} {site site' site'' : Site} {taken taken' : List Int}
  {t t' : Trace}

theorem of_no_step (htold : t.skipsOf number = []) (hskipped : site'.chip.skipped =
    site.chip.skipped) : Skips number warning site site' [] t := by
  refine ⟨?_, ?_⟩
  · simp [htold]
  · simp [hskipped]

/-- Two periods without a reset make a longer one. -/
theorem trans (h : Skips number warning site site' taken t)
    (h' : Skips number warning site' site'' taken' t') :
    Skips number warning site site'' (taken ++ taken') (t ++ t') := by
  refine ⟨?_, ?_⟩
  · -- Whoever warned first remembers it, so the second does not warn again.
    rw [Trace.skipsOf_append, h.told, h'.told]
    simp only [h.skipped]
    by_cases hbefore : number ∈ site.chip.skipped
    · simp [hbefore]
    · by_cases hfirst : number ∈ taken <;> simp [hbefore, hfirst]
  · rw [h'.skipped, h.skipped, List.mem_append, or_assoc]

end Skips

namespace Site

variable {site : Site} {number : Int} {l : Line}

/-- A line is marked as skipped when it is taken with syntax errors, and at no other time. -/
theorem mem_skipped_takeLine (site : Site) (number other : Int) (l : Line) :
    other ∈ (site.takeLine number l).1.chip.skipped ↔
      other ∈ site.chip.skipped ∨ (l.isFaulty = true ∧ other = number) := by
  cases hl : l.isFaulty with
  | true =>
    rw [takeLine, if_pos hl, skipLine]
    by_cases hmem : number ∈ site.chip.skipped
    · rw [if_pos hmem]
      show other ∈ site.chip.skipped ↔ _
      grind
    · rw [if_neg hmem]
      show other ∈ site.chip.skipped ++ [number] ↔ _
      simp
  | false =>
    have hsame : (site.takeLine number l).1.chip.skipped = site.chip.skipped := by
      rw [takeLine_of_sound hl, runLine]
      cases ((site.cleared number).execution l.statements).ending.record? <;> rfl
    rw [hsame]
    simp

/-- Taking a line warns of no other. -/
theorem skipsOf_takeLine_of_ne {other : Int} (h : other ≠ number) (l : Line) :
    (site.takeLine number l).2.skipsOf other = [] := by
  refine Trace.skipsOf_eq_nil fun e he => ?_
  rcases mem_trace_takeLine he with hdebug | rfl | ⟨why, _, rfl⟩ | ⟨_, r, rfl⟩
  · simp [Event.skipped?_eq_none_of_debug hdebug]
  · simpa [Event.skipped?] using h.symm
  · simp [Event.skipped?]
  · simp [Event.skipped?]

/-- A line with syntax errors warns when it is taken, unless it has done so before. -/
theorem skipsOf_takeLine_of_faulty (hl : l.isFaulty = true) :
    (site.takeLine number l).2.skipsOf number =
      if number ∈ site.chip.skipped then [] else [.lineSkipped number l.syntaxFaults.length] := by
  rw [takeLine, if_pos hl, skipLine]
  by_cases hmem : number ∈ site.chip.skipped
  · rw [if_pos hmem, if_pos hmem]
    rfl
  · rw [if_neg hmem, if_neg hmem]
    simp [Trace.skipsOf, Event.skipped?]

/-- A step warns of a line if it is taken there for the first time. -/
theorem skips_step (hrange : site.chip.InRange)
    (hline : site.chip.program.line number = .ok l) (hl : l.isFaulty = true) :
    ∃ r, site.step = .ok r ∧
      Skips number (.lineSkipped number l.syntaxFaults.length) site r.1 [site.chip.line] r.2 := by
  rcases site.step_cases hrange with ⟨hempty, _⟩ | ⟨current, _, hne, hcurrent, hstep⟩
  · have hmem := Program.mem_of_line_eq_ok hline
    rw [List.length_eq_zero_iff.1 hempty] at hmem
    cases hmem
  · refine ⟨_, hstep, ?_, ?_⟩
    · by_cases hnumber : number = site.chip.line
      · subst hnumber
        obtain rfl := Except.ok.inj (hline.symm.trans hcurrent)
        rw [skipsOf_takeLine_of_faulty hl]
        by_cases hmem : site.chip.line ∈ site.chip.skipped <;> simp [hmem]
      · rw [skipsOf_takeLine_of_ne hnumber]
        simp [hnumber]
    · show number ∈ (site.takeLine site.chip.line current).1.chip.skipped ↔ _
      rw [mem_skipped_takeLine, List.mem_singleton]
      by_cases hnumber : number = site.chip.line
      · subst hnumber
        obtain rfl := Except.ok.inj (hline.symm.trans hcurrent)
        simp [hl]
      · simp [hnumber]

/-- Any number of steps warns of the line once at most. -/
theorem skips_steps (n : Nat) (hsound : site.chip.Sound)
    (hline : site.chip.program.line number = .ok l) (hl : l.isFaulty = true) :
    ∃ r, site.steps n = .ok r ∧
      Skips number (.lineSkipped number l.syntaxFaults.length) site r.1 (site.linesTaken n)
        r.2 := by
  induction n generalizing site with
  | zero => exact ⟨_, rfl, .of_no_step rfl rfl⟩
  | succ n ih =>
    obtain ⟨first, hfirst, hskips⟩ := skips_step hsound.inRange hline hl
    obtain ⟨first', hfirst', hsound', _⟩ := step_sound hsound
    obtain rfl := Except.ok.inj (hfirst'.symm.trans hfirst)
    have hline' : first'.1.chip.program.line number = .ok l := by rwa [program_step hfirst]
    obtain ⟨rest, hrest, hskips'⟩ := ih hsound' hline'
    refine ⟨(rest.1, first'.2 ++ rest.2), steps_succ_of_ok hfirst hrest, ?_⟩
    have htaken : site.linesTaken (n + 1) = [site.chip.line] ++ first'.1.linesTaken n := by
      rw [linesTaken, hfirst]
      rfl
    rw [htaken]
    exact hskips.trans hskips'

end Site

section

variable {site : Site} {number : Int} {l : Line}

/-- Of every action but a reset the chip remembers what it has warned of. -/
theorem HostAction.skips_perform {a : HostAction} (ha : a ≠ .reset) (hsound : site.chip.Sound)
    (hline : site.chip.program.line number = .ok l) (hl : l.isFaulty = true) :
    Skips number (.lineSkipped number l.syntaxFaults.length) site (a.perform site).site
      (a.linesTaken site) (a.perform site).trace := by
  cases a with
  | step =>
    obtain ⟨r, hr, hskips⟩ := Site.skips_steps 1 hsound hline hl
    rw [site.steps_one] at hr
    rw [perform, hr]
    exact hskips
  | run count =>
    obtain ⟨r, hr, hskips⟩ := Site.skips_steps count.toNat hsound hline hl
    rw [perform, hr]
    exact hskips
  | get name => exact .of_no_step (Memory.quiet_get _ _ _).skipsOf_eq_nil rfl
  | set name value => exact .of_no_step (Memory.quiet_write _ _ _ _).skipsOf_eq_nil rfl
  | setLine line =>
    simp only [perform]
    split
    · next chip hchip =>
      obtain ⟨rfl, _⟩ := Chip.setLine_eq_ok hchip
      exact .of_no_step rfl rfl
    · exact .of_no_step rfl rfl
  | reset => exact absurd rfl ha
  | world action =>
    cases hw : site.world with
    | none =>
      simp only [perform, hw]
      exact .of_no_step rfl rfl
    | some w =>
      simp only [perform, hw]
      exact .of_no_step (action.quiet_perform w).skipsOf_eq_nil rfl

/-- As long as the chip is not reset there is one warning at most, and one if the line is taken. -/
theorem Site.skips_told (actions : List HostAction) (ha : .reset ∉ actions)
    (hsound : site.chip.Sound) (hline : site.chip.program.line number = .ok l)
    (hl : l.isFaulty = true) :
    Skips number (.lineSkipped number l.syntaxFaults.length) site (site.after actions)
      (site.linesTakenBy actions) (site.told actions) := by
  induction actions generalizing site with
  | nil => exact .of_no_step rfl rfl
  | cons a rest ih =>
    obtain ⟨hfirst, hrest⟩ := not_or.1 (List.mem_cons.not.1 ha)
    have hsound' := ((invariant_sound site.chip.build).perform a ⟨hsound, rfl⟩).1.1
    have hline' : (a.perform site).site.chip.program.line number = .ok l := by
      rwa [a.program_perform hsound]
    exact (HostAction.skips_perform (Ne.symm hfirst) hsound hline hl).trans
      (ih hrest hsound' hline')

end

theorem Site.after_append (site : Site) (actions actions' : List HostAction) :
    site.after (actions ++ actions') = (site.after actions).after actions' := by
  induction actions generalizing site with
  | nil => rfl
  | cons a rest ih => exact ih _

/-- Two programs that differ only in the statements of lines with syntax errors are accepted or
refused alike, and a host cannot tell chips with them apart by anything that it does, reads or is
told. Of each line with syntax errors there is one warning between the start or a reset and the next
reset if some step is taken at it in this time, and none if not. -/
theorem syntax_errors_gate_their_lines {p p' : Program} (h : p.GatedAlike p')
    (device : Option String) (settings : Settings) (world : Option World) :
    Chip.new device p' settings =
      (Chip.new device p settings).map (fun chip => { chip with program := p' }) ∧
    ∀ chip, Chip.new device p settings = .ok chip →
      (∀ actions, (Site.withProgram ⟨chip, world⟩ p').responses actions =
        (Site.responses ⟨chip, world⟩ actions).map (·.withProgram p')) ∧
      ∀ before period : List HostAction, (before = [] ∨ before.getLast? = some .reset) →
        .reset ∉ period → ∀ number l, p.line number = .ok l → l.isFaulty = true →
          let start := Site.after ⟨chip, world⟩ before
          (start.told period).skipsOf number =
            if number ∈ start.linesTakenBy period then
              [.lineSkipped number l.syntaxFaults.length]
            else [] := by
  refine ⟨Chip.new_of_gatedAlike h device settings, fun chip hchip => ?_⟩
  have hsound := Chip.sound_new hchip
  have hprogram : chip.program = p := by
    obtain ⟨_, rfl⟩ := Chip.new_eq_ok hchip
    rfl
  refine ⟨fun actions => ?_, ?_⟩
  · have halike : (Site.mk chip world).chip.program.GatedAlike p' := hprogram ▸ h
    exact halike.responses_eq hsound actions
  · intro before period hbefore hperiod number l hline hl start
    have hstart : start.chip.Sound ∧ start.chip.build = chip.build :=
      (invariant_sound chip.build).after ⟨chip, world⟩ ⟨hsound, rfl⟩ before
    have hline' : start.chip.program.line number = .ok l := by
      have hkept : start.chip.program = chip.program := congrArg (·.2.1) hstart.2
      rwa [hkept, hprogram]
    -- At the start and after a reset the chip remembers no warning.
    have hnone : start.chip.skipped = [] := by
      rcases hbefore with rfl | hreset
      · obtain ⟨_, rfl⟩ := Chip.new_eq_ok hchip
        rfl
      · obtain ⟨earlier, rfl⟩ := List.getLast?_eq_some_iff.1 hreset
        show (Site.after _ (earlier ++ [.reset])).chip.skipped = []
        rw [Site.after_append]
        rfl
    have htold := (Site.skips_told period hperiod hstart.1 hline' hl).told
    simpa [hnone] using htold

/-- A program whose second line is torn, with some scrap left of it. -/
def torn (scrap : List Stmt) : Program :=
  ⟨[{ statements := [.increment .pre "++" (.name ⟨"x"⟩), .goto (.number "2")] },
    { statements := scrap, syntaxFaults := [⟨"unexpected end", .int 4⟩, ⟨"no such word", .null⟩] }]⟩

def tornChip (scrap : List Stmt) : Chip where
  device := none
  program := torn scrap
  settings := {}
  errors := { maxPerLine := 16 }

/-- Whether the torn line has nothing left or would go back to the first, nobody can tell. It was
skipped before the reset and is skipped three times after it, with one warning. -/
theorem torn_line_warns_once_after_reset :
    let scrap : List Stmt := [.assign ⟨"x"⟩ "=" (.text "torn"), .goto (.number "1")]
    let period : List HostAction := [.step, .step, .setLine 2, .run 3]
    (torn scrap).GatedAlike (torn []) ∧
      Site.responses ⟨tornChip [], none⟩ (.run 4 :: .reset :: period) =
        (Site.responses ⟨tornChip scrap, none⟩ (.run 4 :: .reset :: period)).map
          (·.withProgram (torn [])) ∧
      (Site.told (Site.after ⟨tornChip scrap, none⟩ [.run 4, .reset]) period).skipsOf 2 =
        [.lineSkipped 2 2] := by
  intro scrap period
  have halike : (torn scrap).GatedAlike (torn []) :=
    .cons ⟨rfl, fun _ => rfl⟩ (.cons ⟨rfl, nofun⟩ .nil)
  obtain ⟨_, hchip⟩ := syntax_errors_gate_their_lines halike none {} none
  obtain ⟨hresponses, hwarnings⟩ := hchip (tornChip scrap) rfl
  have htaken : 2 ∈ (Site.after ⟨tornChip scrap, none⟩ [.run 4, .reset]).linesTakenBy period := by
    decide +kernel
  refine ⟨halike, hresponses _, ?_⟩
  rw [hwarnings [.run 4, .reset] period (.inr rfl) (by simp [period]) 2 _ rfl rfl, if_pos htaken]
  rfl

end ChipScript
