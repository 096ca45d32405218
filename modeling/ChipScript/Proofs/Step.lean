import ChipScript.Chip
import ChipScript.Proofs.Reports

/-!
# What a step does

`Site.step` takes the current line and advances the counter. The theorems here say so once, for
every use: which line is taken and when (`step_cases`), what taking a line does to the counter, the
memory and the records (`line_takeLine`, `memory_takeLine`, `errors_takeLine`), and what no step
ever changes (`build_takeLine`).

A line with syntax errors is taken like a line without statements, except for what is told of it.
`Line.runnable` is the list of statements that taking a line runs, so that both kinds of line fall
under the same equations.

The log hears the reports of a line one by one (`ErrorLog.hear`). Since a run reports what it halts
with and nothing else, it comes to one record at most, the one that the ending calls for
(`Ending.record?`).
-/

namespace ChipScript

/-! ### Lines of a program -/

/-- The statements that run when a line is taken: none if the line has syntax errors. -/
def Line.runnable (l : Line) : List Stmt :=
  if l.isFaulty then [] else l.statements

namespace Program

/-- A program has a line for every number from one to its length. -/
theorem exists_line {p : Program} {n : Int} (h₁ : 1 ≤ n) (h₂ : n ≤ p.length) :
    ∃ l, p.line n = .ok l := by
  have hlt : n.toNat - 1 < p.lines.length := by
    change n ≤ (p.lines.length : Int) at h₂
    omega
  refine ⟨p.lines[n.toNat - 1], ?_⟩
  rw [line, if_neg (by omega), List.getElem?_eq_getElem hlt]

theorem mem_of_line_eq_ok {p : Program} {n : Int} {l : Line} (h : p.line n = .ok l) :
    l ∈ p.lines := by
  unfold line at h
  split at h
  · cases h
  · split at h
    · next l' hl' =>
      cases h
      exact List.mem_of_getElem? hl'
    · cases h

end Program

/-! ### Recording what is reported -/

/-- The record that an ending calls for. -/
def Ending.record? {α : Type} : Ending α → Option Record
  | done _ => none
  | halted why => some (.ofMistake why)
  | failed _ => some .ofFailure

namespace ErrorLog

/-- A log hears what is reported, one mistake after the other. -/
theorem hear_fst (log : ErrorLog) (line : Int) (t : Trace) :
    (log.hear line t).1 =
      t.reports.foldl (fun log why => log.push line (.ofMistake why)) log := by
  induction t generalizing log with
  | nil => rfl
  | cons e rest ih =>
    cases he : e.report? with
    | none =>
      rw [hear, he, Trace.reports, List.filterMap_cons_none he]
      exact ih log
    | some why =>
      rw [hear, he, Trace.reports, List.filterMap_cons_some he]
      exact ih _

theorem maxPerLine_hear (log : ErrorLog) (line : Int) (t : Trace) :
    (log.hear line t).1.maxPerLine = log.maxPerLine := by
  rw [hear_fst]
  exact List.foldlRecOn (motive := fun log' : ErrorLog => log'.maxPerLine = log.maxPerLine)
    t.reports _ rfl fun _ h _ _ => h

/-- A push tells nothing but that a record was dropped. -/
theorem mem_pushTrace {log : ErrorLog} {line : Int} {r : Record} {e : Event}
    (h : e ∈ log.pushTrace line r) :
    log.isFull line = true ∧ e = .recordDropped line r.message := by
  unfold pushTrace at h
  split at h
  · next hfull => exact ⟨hfull, List.mem_singleton.1 h⟩
  · cases h

theorem filterMap_pushTrace {β : Type} {g : Event → Option β}
    (hdropped : ∀ n message, g (.recordDropped n message) = none) (log : ErrorLog) (line : Int)
    (r : Record) : (log.pushTrace line r).filterMap g = [] := by
  refine List.filterMap_eq_nil_iff.2 fun e he => ?_
  obtain ⟨_, rfl⟩ := mem_pushTrace he
  exact hdropped line r.message

/-- Recording adds to a trace only what is told of records that were dropped. -/
theorem filterMap_hear {β : Type} {g : Event → Option β}
    (hdropped : ∀ n message, g (.recordDropped n message) = none) (log : ErrorLog) (line : Int)
    (t : Trace) : (log.hear line t).2.filterMap g = t.filterMap g := by
  induction t generalizing log with
  | nil => rfl
  | cons e rest ih =>
    unfold hear
    cases e.report? with
    | none =>
      show List.filterMap g (e :: _) = _
      rw [List.filterMap_cons, List.filterMap_cons, ih]
    | some why =>
      show List.filterMap g (e :: log.pushTrace line _ ++ _) = _
      rw [List.cons_append, List.filterMap_cons, List.filterMap_cons, List.filterMap_append,
        filterMap_pushTrace hdropped, List.nil_append, ih]

/-- What is told while a log hears a trace: the trace, and that records were dropped. -/
theorem mem_hear {log : ErrorLog} {line : Int} {t : Trace} {e : Event}
    (h : e ∈ (log.hear line t).2) : e ∈ t ∨ ∃ r : Record, e = .recordDropped line r.message := by
  induction t generalizing log with
  | nil => exact .inl h
  | cons e' rest ih =>
    unfold hear at h
    cases hreport : e'.report? with
    | none =>
      rw [hreport] at h
      rcases List.mem_cons.1 h with rfl | h
      · exact .inl List.mem_cons_self
      · exact (ih h).imp_left (List.mem_cons_of_mem _)
    | some why =>
      rw [hreport] at h
      rcases List.mem_cons.1 h with rfl | h
      · exact .inl List.mem_cons_self
      · rcases List.mem_append.1 h with h | h
        · exact .inr ⟨_, (mem_pushTrace h).2⟩
        · exact (ih h).imp_left (List.mem_cons_of_mem _)

/-- While there is room for every report, no record is dropped. -/
theorem hear_snd_of_room {log : ErrorLog} {line : Int} {t : Trace}
    (h : (log.get line).length + t.reports.length ≤ log.maxPerLine) :
    (log.hear line t).2 = t := by
  induction t generalizing log with
  | nil => rfl
  | cons e rest ih =>
    unfold hear
    cases hreport : e.report? with
    | none =>
      rw [Trace.reports, List.filterMap_cons_none hreport] at h
      exact congrArg (e :: ·) (ih h)
    | some why =>
      rw [Trace.reports, List.filterMap_cons_some hreport, List.length_cons] at h
      have hroom : log.isFull line = false := decide_eq_false (by omega)
      have hpushed : (log.push line (.ofMistake why)).get line =
          log.get line ++ [.ofMistake why] := by
        rw [get_push, if_pos ⟨rfl, hroom⟩]
      have hrest : ((log.push line (.ofMistake why)).hear line rest).2 = rest := by
        refine ih ?_
        rw [hpushed, List.length_append, List.length_singleton]
        show _ ≤ log.maxPerLine
        rw [Trace.reports]
        omega
      show e :: log.pushTrace line _ ++ ((log.push line _).hear line rest).2 = e :: rest
      rw [hrest, pushTrace, hroom]
      rfl

end ErrorLog

/-! ### Advancing -/

/-- The last line is followed by the first. -/
theorem nextLine_eq_ok (line : Int) {count : Nat} (h : count ≠ 0) :
    nextLine line count = .ok (line % count + 1) := by
  have hcount : (count : Int) ≠ 0 := by exact_mod_cast h
  rw [nextLine, if_neg hcount, Int.fmod_eq_emod_of_nonneg line (Int.natCast_nonneg count)]

namespace Chip

/-- What a chip is made with. -/
def build (chip : Chip) : Option String × Program × Settings × Int :=
  (chip.device, chip.program, chip.settings, chip.errors.maxPerLine)

/-- The counter stands on a line of the program, or on line one if the program has none. -/
def InRange (chip : Chip) : Prop :=
  1 ≤ chip.line ∧ chip.line ≤ max chip.program.length 1

theorem inRange_one {chip : Chip} (h : chip.line = 1) : chip.InRange := by
  unfold InRange
  omega

end Chip

namespace Site

def advanced (site : Site) : Site :=
  { site with chip.line := site.chip.line % site.chip.program.length + 1 }

/-- Going on to the next line gets the counter back into range. -/
theorem inRange_advanced {site : Site} (h : site.chip.program.length ≠ 0) :
    site.advanced.chip.InRange := by
  have hpos : (0 : Int) < site.chip.program.length := by omega
  have hlow := Int.emod_nonneg site.chip.line (Int.ne_of_gt hpos)
  have hhigh := Int.emod_lt_of_pos site.chip.line hpos
  refine ⟨?_, ?_⟩
  · show 1 ≤ site.chip.line % site.chip.program.length + 1
    omega
  · show site.chip.line % site.chip.program.length + 1 ≤ max site.chip.program.length 1
    omega

/-! ### Taking a line -/

/-- Running a line keeps what the chip is made with. -/
theorem build_runLine (site : Site) (number : Int) (statements : List Stmt) :
    (site.runLine number statements).1.chip.build = site.chip.build := by
  have hlog (log : ErrorLog) (ending : Ending Unit) :
      (noteFailure log number ending).1.maxPerLine = log.maxPerLine := by
    cases ending <;> rfl
  show (_, _, _, (noteFailure _ number _).1.maxPerLine) = _
  rw [hlog, ErrorLog.maxPerLine_hear]
  rfl

/-- Running a line makes the record that its ending calls for. -/
theorem errors_runLine (site : Site) (number : Int) (statements : List Stmt) :
    (site.runLine number statements).1.chip.errors =
      match (site.execution statements).ending.record? with
      | none => site.chip.errors
      | some r => site.chip.errors.push number r := by
  have hreports : (site.execution statements).trace.reports =
      (site.execution statements).ending.reports :=
    (executeBlock_reported _ _ _ _).reports
  show (noteFailure (site.chip.errors.hear number (site.execution statements).trace).1 number
    (site.execution statements).ending).1 = _
  rw [ErrorLog.hear_fst, hreports]
  cases (site.execution statements).ending <;> rfl

def cleared (site : Site) (number : Int) : Site :=
  { site with chip.errors := site.chip.errors.reset number }

/-- A line with syntax errors loses its records and is marked as skipped. -/
theorem takeLine_of_faulty {l : Line} (h : l.isFaulty = true) (site : Site) (number : Int) :
    ∃ skipped, (site.takeLine number l).1 =
      { site.cleared number with chip.skipped := skipped } := by
  rw [takeLine, if_pos h]
  by_cases hmem : number ∈ site.chip.skipped
  · exact ⟨site.chip.skipped, by rw [skipLine, if_pos hmem]; rfl⟩
  · exact ⟨site.chip.skipped ++ [number], by rw [skipLine, if_neg hmem]; rfl⟩

/-- A line without syntax errors is run. -/
theorem takeLine_of_sound {l : Line} (h : l.isFaulty = false) (site : Site) (number : Int) :
    site.takeLine number l = (site.cleared number).runLine number l.statements := by
  rw [takeLine, if_neg (by simp [h])]
  rfl

/-- A chip that runs a line gets its locals and its counter from the run, and a record that the
ending calls for. -/
theorem chip_takeLine_of_sound {l : Line} (h : l.isFaulty = false) (site : Site) (number : Int) :
    let run := site.execution l.statements
    (site.takeLine number l).1.chip =
      { site.chip with
        locals := run.state.memory.locals
        line := run.state.line
        errors := match run.ending.record? with
          | none => site.chip.errors.reset number
          | some r => (site.chip.errors.reset number).push number r } := by
  intro run
  have herrors := errors_runLine (site.cleared number) number l.statements
  change _ = match run.ending.record? with
    | none => site.chip.errors.reset number
    | some r => (site.chip.errors.reset number).push number r at herrors
  rw [takeLine_of_sound h, ← herrors]
  rfl

theorem runnable_of_faulty {l : Line} (h : l.isFaulty = true) : l.runnable = [] := by
  rw [Line.runnable, if_pos h]

theorem runnable_of_sound {l : Line} (h : l.isFaulty = false) : l.runnable = l.statements := by
  rw [Line.runnable, if_neg (by simp [h])]

/-- What a chip is made with, taking a line does not change. -/
theorem build_takeLine (site : Site) (number : Int) (l : Line) :
    (site.takeLine number l).1.chip.build = site.chip.build := by
  cases h : l.isFaulty with
  | true =>
    obtain ⟨skipped, hs⟩ := takeLine_of_faulty h site number
    rw [hs]
    rfl
  | false =>
    rw [takeLine_of_sound h]
    exact build_runLine _ _ _

/-- Taking a line does not change the program. -/
theorem program_takeLine (site : Site) (number : Int) (l : Line) :
    (site.takeLine number l).1.chip.program = site.chip.program :=
  congrArg (·.2.1) (build_takeLine site number l)

/-- Taking a line leaves the memory that its statements leave. -/
theorem memory_takeLine (site : Site) (number : Int) (l : Line) :
    (site.takeLine number l).1.memory = (site.execution l.runnable).state.memory := by
  cases h : l.isFaulty with
  | true =>
    obtain ⟨skipped, hs⟩ := takeLine_of_faulty h site number
    rw [hs, runnable_of_faulty h]
    rfl
  | false =>
    rw [takeLine_of_sound h, runnable_of_sound h]
    rfl

/-- Taking a line leaves the counter where its statements leave it. -/
theorem line_takeLine (site : Site) (number : Int) (l : Line) :
    (site.takeLine number l).1.chip.line = (site.execution l.runnable).state.line := by
  cases h : l.isFaulty with
  | true =>
    obtain ⟨skipped, hs⟩ := takeLine_of_faulty h site number
    rw [hs, runnable_of_faulty h]
    rfl
  | false =>
    rw [takeLine_of_sound h, runnable_of_sound h]
    rfl

/-- Taking a line discards its records and makes the one that the ending calls for. -/
theorem errors_takeLine (site : Site) (number : Int) (l : Line) :
    (site.takeLine number l).1.chip.errors =
      match (site.execution l.runnable).ending.record? with
      | none => site.chip.errors.reset number
      | some r => (site.chip.errors.reset number).push number r := by
  cases h : l.isFaulty with
  | true =>
    obtain ⟨skipped, hs⟩ := takeLine_of_faulty h site number
    rw [hs, runnable_of_faulty h]
    rfl
  | false =>
    rw [takeLine_of_sound h, runnable_of_sound h]
    exact errors_runLine _ _ _

theorem filterMap_runLine {β : Type} {g : Event → Option β} (site : Site) (number : Int)
    (statements : List Stmt) (hexecuting : ∀ n, g (.executing n) = none)
    (hfailed : ∀ n why, g (.lineFailed n why) = none)
    (hdropped : ∀ n message, g (.recordDropped n message) = none) :
    (site.runLine number statements).2.filterMap g =
      (site.execution statements).trace.filterMap g := by
  have hnoted (log : ErrorLog) (ending : Ending Unit) :
      (noteFailure log number ending).2.filterMap g = [] := by
    cases ending with
    | done a => rfl
    | halted why => rfl
    | failed why =>
      show List.filterMap g (.lineFailed number why :: log.pushTrace number .ofFailure) = []
      rw [List.filterMap_cons_none (hfailed number why)]
      exact ErrorLog.filterMap_pushTrace hdropped log number .ofFailure
  rw [runLine, List.filterMap_cons_none (hexecuting number), settle, List.filterMap_append, hnoted,
    List.append_nil, ErrorLog.filterMap_hear hdropped]

/-- Of what is told while a line is taken, all but the announcement, the failure and the record of
the line is told by its statements. -/
theorem filterMap_takeLine {β : Type} {g : Event → Option β} (site : Site) (number : Int)
    (l : Line) (hexecuting : ∀ n, g (.executing n) = none)
    (hskipped : ∀ n count, g (.lineSkipped n count) = none)
    (hfailed : ∀ n why, g (.lineFailed n why) = none)
    (hdropped : ∀ n message, g (.recordDropped n message) = none) :
    (site.takeLine number l).2.filterMap g = (site.execution l.runnable).trace.filterMap g := by
  cases h : l.isFaulty with
  | true =>
    rw [runnable_of_faulty h, takeLine, if_pos h, skipLine]
    split
    · rfl
    · exact List.filterMap_cons_none (hskipped number _)
  | false =>
    rw [takeLine_of_sound h, runnable_of_sound h]
    exact filterMap_runLine _ number l.statements hexecuting hfailed hdropped

/-! ### Steps -/

/-- Without lines a step does nothing. -/
theorem step_of_empty {site : Site} (h : site.chip.program.length = 0) :
    site.step = .ok (site, [.emptyProgram]) := by
  rw [step, if_pos h]

/-- With a line at the counter a step takes it and goes on to the next. -/
theorem step_of_line {site : Site} {l : Line} (h : site.chip.program.length ≠ 0)
    (hl : site.chip.program.line site.chip.line = .ok l) :
    site.step = .ok ((site.takeLine site.chip.line l).1.advanced,
      (site.takeLine site.chip.line l).2) := by
  rw [step, if_neg h, hl]
  -- The length that the counter is taken modulo is read before the line is taken.
  show (nextLine _ _ >>= _) = _
  rw [nextLine_eq_ok _ h, advanced, program_takeLine]
  rfl

theorem step_of_no_line {site : Site} {why : LineError} (h : site.chip.program.length ≠ 0)
    (hl : site.chip.program.line site.chip.line = .error why) : site.step = .error why := by
  rw [step, if_neg h, hl]
  rfl

/-- From a counter in range a step succeeds: on an empty program it does nothing, and otherwise it
takes the line at the counter and advances. -/
theorem step_cases {site : Site} (h : site.chip.InRange) :
    (site.chip.program.length = 0 ∧ site.step = .ok (site, [.emptyProgram])) ∨
      ∃ l ∈ site.chip.program.lines, site.chip.program.length ≠ 0 ∧
        site.chip.program.line site.chip.line = .ok l ∧
        site.step = .ok ((site.takeLine site.chip.line l).1.advanced,
          (site.takeLine site.chip.line l).2) := by
  by_cases hempty : site.chip.program.length = 0
  · exact .inl ⟨hempty, step_of_empty hempty⟩
  · have hle : site.chip.line ≤ site.chip.program.length := by
      have := h.2
      omega
    obtain ⟨l, hl⟩ := Program.exists_line h.1 hle
    exact .inr ⟨l, Program.mem_of_line_eq_ok hl, hempty, hl, step_of_line hempty hl⟩

theorem steps_succ_of_ok {site : Site} {n : Nat} {first rest : Site × Trace}
    (hfirst : site.step = .ok first) (hrest : first.1.steps n = .ok rest) :
    site.steps (n + 1) = .ok (rest.1, first.2 ++ rest.2) := by
  rw [steps, hfirst]
  show (first.1.steps n >>= _) = _
  rw [hrest]
  rfl

/-- What every step keeps, many steps keep: each succeeds, the last site satisfies `P` and every
event on the way satisfies `Q`. -/
theorem steps_induction {P : Site → Prop} {Q : Event → Prop}
    (hstep : ∀ site, P site → ∃ r, site.step = .ok r ∧ P r.1 ∧ ∀ e ∈ r.2, Q e) (n : Nat)
    {site : Site} (h : P site) : ∃ r, site.steps n = .ok r ∧ P r.1 ∧ ∀ e ∈ r.2, Q e := by
  -- The site changes with every step, so the induction is for all of them.
  induction n generalizing site with
  | zero => exact ⟨(site, []), rfl, h, by simp⟩
  | succ n ih =>
    obtain ⟨first, hfirst, hP, hQ⟩ := hstep site h
    obtain ⟨rest, hrest, hP', hQ'⟩ := ih hP
    refine ⟨(rest.1, first.2 ++ rest.2), steps_succ_of_ok hfirst hrest, hP', ?_⟩
    intro e he
    rcases List.mem_append.1 he with he | he
    · exact hQ e he
    · exact hQ' e he

end Site

end ChipScript
