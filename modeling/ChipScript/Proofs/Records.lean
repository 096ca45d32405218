import ChipScript.Proofs.Counter

/-!
# The records of a line

Each step discards the records of the line that it takes and makes at most one new record, for the
same line, whatever a goto has done to the counter in between. The record says what the statements
reported if they halted, and no more than that something failed if they failed. So in every
reachable site the log describes the last run of each line: one record for a line at most, none for
a number that is no line of the program, and unless the log may not hold any record, none is ever
dropped.
-/

namespace ChipScript

/-- The records that a line keeps of a single one. -/
def ErrorLog.keeping (maxPerLine : Int) (r? : Option Record) : List Record :=
  if 1 ≤ maxPerLine then r?.toList else []

theorem ErrorLog.length_keeping_le (maxPerLine : Int) (r? : Option Record) :
    (ErrorLog.keeping maxPerLine r?).length ≤ 1 := by
  unfold ErrorLog.keeping
  split
  · cases r? <;> simp
  · simp

/-- What is kept of a record is the record itself. -/
theorem ErrorLog.mem_keeping {maxPerLine : Int} {r? : Option Record} {r : Record}
    (h : r ∈ ErrorLog.keeping maxPerLine r?) : r? = some r := by
  unfold ErrorLog.keeping at h
  split at h
  · exact Option.mem_toList.1 h
  · cases h

theorem ErrorLog.isFull_reset (log : ErrorLog) (line : Int) :
    (log.reset line).isFull line = decide (log.maxPerLine ≤ 0) := by
  rw [isFull, get_reset, if_pos rfl]
  rfl

/-- After a reset there is room for one report, unless the log may not hold any record. -/
theorem ErrorLog.mem_hear_reset {log : ErrorLog} {line : Int} {t : Trace} {e : Event}
    (ht : t.reports.length ≤ 1) (he : e ∈ ((log.reset line).hear line t).2) :
    e ∈ t ∨ log.maxPerLine ≤ 0 ∧ ∃ r : Record, e = .recordDropped line r.message := by
  by_cases hmax : log.maxPerLine ≤ 0
  · exact (mem_hear he).imp_right fun hdropped => ⟨hmax, hdropped⟩
  · have hroom : (((log.reset line).get line).length + t.reports.length : Int) ≤
        (log.reset line).maxPerLine := by
      rw [get_reset, if_pos rfl, List.length_nil]
      show _ ≤ log.maxPerLine
      omega
    rw [hear_snd_of_room hroom] at he
    exact .inl he

namespace Site

/-- The records after a line was taken: the line has the one that its ending calls for, and all
other lines have theirs. -/
theorem get_errors_takeLine (site : Site) (number other : Int) (l : Line) :
    (site.takeLine number l).1.chip.errors.get other =
      if number = other then
        ErrorLog.keeping site.chip.errors.maxPerLine (site.execution l.runnable).ending.record?
      else site.chip.errors.get other := by
  rw [errors_takeLine]
  cases (site.execution l.runnable).ending.record? with
  | none =>
    show (site.chip.errors.reset number).get other = _
    rw [ErrorLog.get_reset, ErrorLog.keeping]
    simp
  | some r =>
    show ((site.chip.errors.reset number).push number r).get other = _
    rw [ErrorLog.get_push, ErrorLog.isFull_reset, ErrorLog.get_reset, ErrorLog.get_reset,
      ErrorLog.keeping]
    by_cases hn : number = other
    · by_cases hmax : 1 ≤ site.chip.errors.maxPerLine
      · have : ¬ site.chip.errors.maxPerLine ≤ 0 := by omega
        simp [hn, hmax, this]
      · have : site.chip.errors.maxPerLine ≤ 0 := by omega
        simp [hn, hmax, this]
    · simp [hn]

/-- Taking a line reports what its statements report. -/
theorem reports_takeLine (site : Site) (number : Int) (l : Line) :
    (site.takeLine number l).2.reports = (site.execution l.runnable).ending.reports := by
  have hrun : (site.execution l.runnable).Reported := executeBlock_reported _ _ _ _
  rw [← hrun.reports]
  exact site.filterMap_takeLine number l (fun _ => rfl) (fun _ _ => rfl) (fun _ _ => rfl)
    fun _ _ => rfl

/-- A failure is told, and after it that its record was dropped, if it was. -/
theorem mem_noteFailure {log : ErrorLog} {number : Int} {ending : Ending Unit} {e : Event}
    (he : e ∈ (noteFailure log number ending).2) :
    ∃ why, ending = .failed why ∧ (e = .lineFailed number why ∨
      (log.isFull number = true ∧ ∃ r : Record, e = .recordDropped number r.message)) := by
  cases ending with
  | done a => cases he
  | halted why => cases he
  | failed why =>
    refine ⟨why, rfl, ?_⟩
    rcases List.mem_cons.1 he with rfl | he
    · exact .inl rfl
    · obtain ⟨hfull, rfl⟩ := ErrorLog.mem_pushTrace he
      exact .inr ⟨hfull, _, rfl⟩

/-- What may be told while a line is taken, besides details. -/
theorem mem_trace_takeLine {site : Site} {number : Int} {l : Line} {e : Event}
    (he : e ∈ (site.takeLine number l).2) :
    e.level = .debug ∨ e = .lineSkipped number l.syntaxFaults.length ∨
      (∃ why, (site.execution l.runnable).ending = .failed why ∧ e = .lineFailed number why) ∨
      (site.chip.errors.maxPerLine ≤ 0 ∧ ∃ r : Record, e = .recordDropped number r.message) := by
  cases h : l.isFaulty with
  | true =>
    rw [takeLine, if_pos h, skipLine] at he
    split at he
    · cases he
    · exact .inr (.inl (List.mem_singleton.1 he))
  | false =>
    rw [takeLine_of_sound h] at he
    rw [runnable_of_sound h]
    have hrun : (site.execution l.statements).Reported := executeBlock_reported _ _ _ _
    rcases List.mem_cons.1 he with rfl | he
    · exact .inl rfl
    · rcases List.mem_append.1 he with he | he
      · have hone := Ending.length_reports_le (site.execution l.statements).ending
        rw [← hrun.reports] at hone
        rcases ErrorLog.mem_hear_reset hone he with he | hdropped
        · exact .inl (hrun.debug e he)
        · exact .inr (.inr (.inr hdropped))
      · obtain ⟨why, hfailed, rfl | ⟨hfull', hdropped⟩⟩ := mem_noteFailure he
        · exact .inr (.inr (.inl ⟨why, hfailed, rfl⟩))
        · change (site.execution l.statements).ending = .failed why at hfailed
          change ((site.chip.errors.reset number).hear number
            (site.execution l.statements).trace).1.isFull number = true at hfull'
          -- A line that fails has reported nothing, so nothing was recorded before.
          rw [ErrorLog.hear_fst, hrun.reports, hfailed] at hfull'
          change (site.chip.errors.reset number).isFull number = true at hfull'
          rw [ErrorLog.isFull_reset] at hfull'
          exact .inr (.inr (.inr ⟨of_decide_eq_true hfull', hdropped⟩))

/-- A record is dropped only by a log that may not hold any. -/
theorem not_dropped_takeLine {site : Site} (hmax : 1 ≤ site.chip.errors.maxPerLine)
    {number : Int} {l : Line} (line : Int) (message : String) :
    .recordDropped line message ∉ (site.takeLine number l).2 := by
  intro he
  rcases mem_trace_takeLine he with h | h | ⟨why, _, h⟩ | ⟨hle, _⟩
  · cases h
  · cases h
  · cases h
  · omega

end Site

/-! ### Reachable sites -/

/-- A sound chip whose log holds at most one record for each line, and none for other numbers. -/
structure Chip.Recorded (chip : Chip) : Prop where
  sound : chip.Sound
  length_le_one : ∀ n, (chip.errors.get n).length ≤ 1
  get_eq_nil : ∀ n, ¬ (1 ≤ n ∧ n ≤ chip.program.length) → chip.errors.get n = []

/-- A log that is not told to drop records drops none. -/
def Event.KeepsRecords (maxPerLine : Int) (e : Event) : Prop :=
  1 ≤ maxPerLine → ∀ line message, e ≠ .recordDropped line message

/-- A step leaves one record for a line at most, and succeeds. -/
theorem Chip.Recorded.step {site : Site} (h : site.chip.Recorded) :
    ∃ r, site.step = .ok r ∧ r.1.chip.Recorded ∧ r.1.chip.build = site.chip.build ∧
      ∀ e ∈ r.2, e.KeepsRecords site.chip.errors.maxPerLine := by
  rcases site.step_cases h.sound.inRange with ⟨_, hstep⟩ | ⟨l, _, hne, hline, hstep⟩
  · refine ⟨_, hstep, h, rfl, ?_⟩
    intro e he hmax line message hdrop
    obtain rfl := List.mem_singleton.1 he
    cases hdrop
  · have hbuild := site.build_takeLine site.chip.line l
    refine ⟨_, hstep, ⟨Site.sound_advanced_takeLine h.sound hne l, ?_, ?_⟩, hbuild, ?_⟩
    · intro n
      show ((site.takeLine site.chip.line l).1.chip.errors.get n).length ≤ 1
      rw [Site.get_errors_takeLine]
      split
      · exact ErrorLog.length_keeping_le _ _
      · exact h.length_le_one n
    · intro n hn
      show (site.takeLine site.chip.line l).1.chip.errors.get n = []
      change ¬ (1 ≤ n ∧ n ≤ (site.takeLine site.chip.line l).1.chip.program.length) at hn
      rw [Site.program_takeLine] at hn
      -- The line that is taken is one of the program's, so `n` is another one.
      have hother : site.chip.line ≠ n := by
        have hrange := h.sound.inRange
        unfold Chip.InRange at hrange
        omega
      rw [Site.get_errors_takeLine, if_neg hother]
      exact h.get_eq_nil n hn
    · intro e he hmax line message hdrop
      subst hdrop
      exact Site.not_dropped_takeLine hmax line message he

theorem invariant_recorded (build : Option String × Program × Settings × Int) :
    Invariant (fun site => site.chip.Recorded ∧ site.chip.build = build)
      (fun e => e.KeepsRecords build.2.2.2) where
  step := by
    rintro site ⟨h, rfl⟩
    obtain ⟨r, hr, hrecorded, hbuild, hkeeps⟩ := h.step
    exact ⟨r, hr, ⟨hrecorded, hbuild⟩, hkeeps⟩
  memory := by
    rintro site m ⟨h, hbuild⟩
    exact ⟨⟨h.sound.of_build rfl h.sound.inRange, h.length_le_one, h.get_eq_nil⟩, hbuild⟩
  line := by
    rintro site n hn ⟨h, hbuild⟩
    exact ⟨⟨h.sound.of_build rfl hn, h.length_le_one, h.get_eq_nil⟩, hbuild⟩
  reset := by
    rintro site ⟨h, hbuild⟩
    refine ⟨⟨h.sound.of_build rfl (Chip.inRange_one rfl), ?_, ?_⟩, hbuild⟩
    · intro n
      show (site.chip.errors.clear.get n).length ≤ 1
      simp
    · intro n _
      exact ErrorLog.get_clear _ _
  quiet := by
    rintro e hlevel _ hmax line message rfl
    cases hlevel

/-- A chip has no records when it is new. -/
theorem Chip.errors_new {device : Option String} {program : Program} {settings : Settings}
    {chip : Chip} (h : Chip.new device program settings = .ok chip) (n : Int) :
    chip.errors.get n = [] := by
  obtain ⟨_, rfl⟩ := Chip.new_eq_ok h
  simp [ErrorLog.get]

/-- However a chip got to where it is, every line has one record at most. -/
theorem Reachable.recorded {site : Site} (h : Reachable site) : site.chip.Recorded := by
  induction h with
  | start hnew =>
    refine ⟨Chip.sound_new hnew, ?_, fun n _ => Chip.errors_new hnew n⟩
    intro n
    rw [Chip.errors_new hnew]
    exact Nat.zero_le 1
  | act a _ ih => exact ((invariant_recorded _).perform a ⟨ih, rfl⟩).1.1

/-- What a step at a line reports and leaves in the records of the line, by how the line ends. Only
the number of records that a line may hold can keep the record out. -/
def Site.LeavesRecord (site : Site) (l : Line) (reports : List ScriptError)
    (records : List Record) : Prop :=
  let keep (r : Record) := if 1 ≤ site.chip.settings.maxErrorsPerLine then [r] else []
  if l.isFaulty then reports = [] ∧ records = []
  else match (site.execution l.statements).ending with
    | .done _ => reports = [] ∧ records = []
    | .halted why => reports = [why] ∧ records = keep ⟨.error, why.message, none⟩
    | .failed _ => reports = [] ∧ records = keep ⟨.error, "CRITICAL VM ERROR", none⟩

/-- A line that is taken leaves the record that its ending calls for. -/
theorem Site.leavesRecord_takeLine {site : Site} (h : site.chip.Sound) (l : Line) :
    site.LeavesRecord l (site.takeLine site.chip.line l).2.reports
      ((site.takeLine site.chip.line l).1.chip.errors.get site.chip.line) := by
  rw [Site.reports_takeLine, Site.get_errors_takeLine, if_pos rfl, h.maxPerLine_eq,
    ErrorLog.keeping]
  unfold Site.LeavesRecord
  cases hfaulty : l.isFaulty with
  | true =>
    rw [Site.runnable_of_faulty hfaulty]
    refine ⟨rfl, ?_⟩
    show (if _ then [] else []) = []
    exact ite_self _
  | false =>
    rw [Site.runnable_of_sound hfaulty]
    cases (site.execution l.statements).ending with
    | done a => exact ⟨rfl, ite_self _⟩
    | halted why => exact ⟨rfl, rfl⟩
    | failed why => exact ⟨rfl, rfl⟩

/-- Every step makes the record that its line calls for, for that line and for no other. In every
reachable site each line of the program holds one record at most, no other number holds any, and no
record is dropped unless the log may not hold one. -/
theorem one_record_for_each_line {site : Site} (h : Reachable site) :
    (site.chip.program.length ≠ 0 →
      ∃ l r, site.chip.program.line site.chip.line = .ok l ∧ site.step = .ok r ∧
        (∀ n, n ≠ site.chip.line → r.1.chip.errors.get n = site.chip.errors.get n) ∧
        site.LeavesRecord l r.2.reports (r.1.chip.errors.get site.chip.line)) ∧
    (∀ n, (site.chip.errors.get n).length ≤ 1) ∧
    (∀ n, ¬ (1 ≤ n ∧ n ≤ site.chip.program.length) → site.chip.errors.get n = []) ∧
    (1 ≤ site.chip.settings.maxErrorsPerLine → ∀ (a : HostAction) (line : Int) (message : String),
      .recordDropped line message ∉ (a.perform site).trace) := by
  have hrecorded := h.recorded
  refine ⟨?_, hrecorded.length_le_one, hrecorded.get_eq_nil, ?_⟩
  · intro hne
    rcases site.step_cases hrecorded.sound.inRange with ⟨hempty, _⟩ | ⟨l, _, _, hline, hstep⟩
    · exact absurd hempty hne
    · refine ⟨l, _, hline, hstep, ?_, site.leavesRecord_takeLine hrecorded.sound l⟩
      intro n hn
      show (site.takeLine site.chip.line l).1.chip.errors.get n = _
      rw [Site.get_errors_takeLine, if_neg hn.symm]
  · intro hmax a line message he
    have hkeeps := ((invariant_recorded site.chip.build).perform a ⟨hrecorded, rfl⟩).2 _ he
    rw [← hrecorded.sound.maxPerLine_eq] at hmax
    exact hkeeps hmax line message rfl

/-- The first line of `leap` divides by zero after a goto has moved the counter away; the record is
the first line's. -/
theorem one_record_for_line_left_by_leap :
    Reachable ⟨leapingChip, none⟩ ∧
      ∃ r, Site.step ⟨leapingChip, none⟩ = .ok r ∧ r.2.reports = [.divisionByZero] ∧
        r.1.chip.errors.get 1 = [⟨.error, "Attempted division by zero.", none⟩] := by
  have hreachable : Reachable ⟨leapingChip, none⟩ :=
    .start (show Chip.new (some "chip") leap {} = .ok leapingChip from rfl)
  obtain ⟨l, r, hline, hstep, _, hleaves⟩ := (one_record_for_each_line hreachable).1 (by decide)
  obtain rfl : _ = l := Except.ok.inj hline
  have hhalted : (Site.execution ⟨leapingChip, none⟩
      [.goto (.number "9"), .assign ⟨"x"⟩ "/=" (.number "0")]).ending =
        .halted .divisionByZero := by
    decide +kernel
  unfold Site.LeavesRecord at hleaves
  simp only [hhalted] at hleaves
  exact ⟨hreachable, r, hstep, hleaves⟩

end ChipScript
