import ChipScript.Proofs.Host

/-!
# The counter stays in range

A goto leaves the counter one line before its target, which may be line zero or lie far beyond the
program, and a halt or a failure after it leaves the counter there. Only the advance at the end of
the step brings it back: whatever the statements did, the counter is taken modulo the length of the
program. So between steps the counter always stands on a line of the program, every step finds its
line, and no step is refused.
-/

namespace ChipScript

/-- What holds of a chip between two actions of its host. -/
structure Chip.Sound (chip : Chip) : Prop where
  inRange : chip.InRange
  length_le : chip.program.length ≤ chip.settings.lineLimit
  maxPerLine_eq : chip.errors.maxPerLine = chip.settings.maxErrorsPerLine

namespace Chip

theorem new_eq_ok {device : Option String} {program : Program} {settings : Settings} {chip : Chip}
    (h : Chip.new device program settings = .ok chip) :
    program.length ≤ settings.lineLimit ∧
      chip =
        { device, program, settings, errors := { maxPerLine := settings.maxErrorsPerLine } } := by
  unfold Chip.new at h
  split at h
  · cases h
  · next hle =>
    cases h
    exact ⟨by omega, rfl⟩

/-- A chip is sound when it is new. -/
theorem sound_new {device : Option String} {program : Program} {settings : Settings} {chip : Chip}
    (h : Chip.new device program settings = .ok chip) : chip.Sound := by
  obtain ⟨hle, rfl⟩ := new_eq_ok h
  exact ⟨inRange_one rfl, hle, rfl⟩

/-- A chip that is made like a sound one is sound if its counter is in range. -/
theorem Sound.of_build {chip chip' : Chip} (h : chip.Sound) (hbuild : chip'.build = chip.build)
    (hrange : chip'.InRange) : chip'.Sound := by
  have hprogram : chip'.program = chip.program := congrArg (·.2.1) hbuild
  have hsettings : chip'.settings = chip.settings := congrArg (·.2.2.1) hbuild
  have hmax : chip'.errors.maxPerLine = chip.errors.maxPerLine := congrArg (·.2.2.2) hbuild
  refine ⟨hrange, ?_, ?_⟩
  · rw [hprogram, hsettings]
    exact h.length_le
  · rw [hmax, hsettings]
    exact h.maxPerLine_eq

end Chip

/-- Taking the line at the counter and advancing leaves a sound chip sound. -/
theorem Site.sound_advanced_takeLine {site : Site} (h : site.chip.Sound)
    (hne : site.chip.program.length ≠ 0) (l : Line) :
    (site.takeLine site.chip.line l).1.advanced.chip.Sound := by
  refine h.of_build (site.build_takeLine site.chip.line l) (Site.inRange_advanced ?_)
  rw [Site.program_takeLine]
  exact hne

/-- A step of a sound chip succeeds, leaves it sound, and keeps what it is made with. -/
theorem Site.step_sound {site : Site} (h : site.chip.Sound) :
    ∃ r, site.step = .ok r ∧ r.1.chip.Sound ∧ r.1.chip.build = site.chip.build := by
  rcases site.step_cases h.inRange with ⟨_, hstep⟩ | ⟨l, _, hne, _, hstep⟩
  · exact ⟨_, hstep, h, rfl⟩
  · exact ⟨_, hstep, Site.sound_advanced_takeLine h hne l, site.build_takeLine site.chip.line l⟩

/-- Sound chips that are made in a given way form an invariant. -/
theorem invariant_sound (build : Option String × Program × Settings × Int) :
    Invariant (fun site => site.chip.Sound ∧ site.chip.build = build) (fun _ => True) where
  step := by
    rintro site ⟨hsound, hbuild⟩
    obtain ⟨r, hr, hsound', hkept⟩ := Site.step_sound hsound
    exact ⟨r, hr, ⟨hsound', hkept.trans hbuild⟩, fun _ _ => trivial⟩
  memory := fun _ _ h => ⟨⟨h.1.inRange, h.1.length_le, h.1.maxPerLine_eq⟩, h.2⟩
  line := fun _ _ hn h => ⟨⟨hn, h.1.length_le, h.1.maxPerLine_eq⟩, h.2⟩
  reset := by
    rintro site ⟨hsound, hbuild⟩
    exact ⟨hsound.of_build rfl (Chip.inRange_one rfl), hbuild⟩
  quiet := fun _ _ _ => trivial

/-- Whatever a host does, the chip stays sound. -/
theorem Reachable.sound {site : Site} (h : Reachable site) : site.chip.Sound := by
  induction h with
  | start hnew => exact Chip.sound_new hnew
  | act a _ ih => exact ((invariant_sound _).perform a ⟨ih, rfl⟩).1.1

/-- Whatever a host does with a new chip and the world around it, and in whatever order, the counter
is in range afterwards and every further step or run of steps succeeds. -/
theorem counter_in_range_and_steps_succeed {device : Option String} {program : Program}
    {settings : Settings} {chip : Chip} (h : Chip.new device program settings = .ok chip)
    (world : Option World) (actions : List HostAction) :
    let site := Site.after ⟨chip, world⟩ actions
    (1 ≤ site.chip.line ∧ site.chip.line ≤ max program.length 1) ∧
      (∃ r, site.step = .ok r) ∧ ∀ n, ∃ r, site.steps n = .ok r := by
  intro site
  -- What the chip is made with is part of the invariant: the program is the one it started with.
  have hstart : chip.Sound ∧ chip.build = chip.build := ⟨Chip.sound_new h, rfl⟩
  obtain ⟨hsound, hbuild⟩ := (invariant_sound chip.build).after ⟨chip, world⟩ hstart actions
  have hprogram : site.chip.program = program := by
    obtain ⟨_, rfl⟩ := Chip.new_eq_ok h
    exact congrArg (·.2.1) hbuild
  have hsteps (n : Nat) : ∃ r, site.steps n = .ok r := by
    obtain ⟨r, hr, _⟩ := Site.steps_induction (invariant_sound chip.build).step n ⟨hsound, hbuild⟩
    exact ⟨r, hr⟩
  refine ⟨hprogram ▸ hsound.inRange, ?_, hsteps⟩
  rw [← site.steps_one]
  exact hsteps 1

/-- A program whose first line jumps beyond its end and then divides by zero. -/
def leap : Program :=
  ⟨[{ statements := [.goto (.number "9"), .assign ⟨"x"⟩ "/=" (.number "0")] }, {}]⟩

def leapingChip : Chip where
  device := some "chip"
  program := leap
  settings := {}
  errors := { maxPerLine := 16 }

/-- The device of the chip is not registered, line seven does not exist, and the first line leaves
the counter beyond the program: the next step still succeeds. -/
theorem counter_in_range_after_leap :
    Chip.new (some "chip") leap {} = .ok leapingChip ∧
      let site := Site.after ⟨leapingChip, some World.empty⟩
        [.step, .setLine 7, .set ⟨":door"⟩ (.int 1), .reset, .run 3]
      (1 ≤ site.chip.line ∧ site.chip.line ≤ max leap.length 1) ∧
        (∃ r, site.step = .ok r) ∧ ∀ n, ∃ r, site.steps n = .ok r := by
  have hnew : Chip.new (some "chip") leap {} = .ok leapingChip := rfl
  exact ⟨hnew, counter_in_range_and_steps_succeed hnew _ _⟩

end ChipScript
