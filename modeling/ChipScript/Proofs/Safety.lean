import ChipScript.Proofs.Guarantee
import ChipScript.Proofs.Records

/-!
# Well-formed programs never fail

A chip with a well-formed program, wired to a registered device or to none, never fails: from a
bounded memory every run of every line completes or halts, and leaves a bounded memory behind. As
long as its host writes bounded values only and does not take the device away, this goes on forever,
and the log never holds another record than one of a mistake of the script.

There is one escape, for a host that gives a chip a line limit of more than 4300 digits. A goto that
ends up at such a limit fails, since the number of the line cannot be written (`Fault.OverLimit`).
An environment cannot set such a limit (`writesLines_ofEnvironment`).
-/

namespace ChipScript

/-! ### What a host writes -/

/-- A device that is made of bounded values is bounded. -/
theorem Device.allBounded_new (name : String) {initial : List (String × Value)}
    (h : ∀ field ∈ initial, field.2.Bounded) (network : String) :
    AllBounded (Device.new name initial network).fields := by
  -- The fields that are there already are bounded, and each further one is.
  have aux : ∀ (rest : List (String × Value)) (fields : Fields),
      (∀ field ∈ rest, field.2.Bounded) → AllBounded fields →
        AllBounded (rest.foldl (fun fields field => fields.insert (Text.lower field.1) field.2)
          fields) := by
    intro rest
    induction rest with
    | nil => exact fun fields _ hfields => hfields
    | cons field rest ih =>
      intro fields hrest hfields
      have hfirst := hrest field List.mem_cons_self
      exact ih _ (fun f hf => hrest f (List.mem_cons_of_mem _ hf)) (hfields.insert hfirst _)
  exact aux initial ∅ h allBounded_empty

namespace World

/-- Adding a bounded device keeps a world bounded. -/
theorem bounded_add {w : World} (hw : w.Bounded) {device : Device}
    (hdevice : AllBounded device.fields) : (w.add device).Bounded := by
  unfold add
  split
  · refine bounded_mapDevices _ fun d hd => ?_
    split
    · exact hdevice
    · exact hw d hd
  · intro d hd
    rcases List.mem_append.1 hd with hd | hd
    · exact hw d hd
    · obtain rfl := List.mem_singleton.1 hd
      exact hdevice

theorem bounded_remove {w w' : World} (hw : w.Bounded) {handle : Option String}
    (h : w.remove handle = .ok w') : w'.Bounded := by
  obtain ⟨device, _, h⟩ := exists_of_bind_eq_ok h
  obtain rfl := Except.ok.inj h
  intro d hd
  exact hw d (List.mem_filter.1 hd).1

end World

/-- The host gives no value that is not bounded. -/
def WorldAction.Bounded : WorldAction → Prop
  | add _ initial _ => ∀ field ∈ initial, field.2.Bounded
  | write _ _ value => value.Bounded
  | remove _ | read _ _ => True

instance : DecidablePred WorldAction.Bounded
  | .add _ initial _ => inferInstanceAs (Decidable (∀ field ∈ initial, field.2.Bounded))
  | .write _ _ value => inferInstanceAs (Decidable value.Bounded)
  | .remove _ | .read _ _ => inferInstanceAs (Decidable True)

/-- An action with bounded values leaves a bounded world. -/
theorem WorldAction.bounded_perform {a : WorldAction} (ha : a.Bounded) {w : World}
    (hw : w.Bounded) : (a.perform w).2.1.Bounded := by
  cases a with
  | add name initial network => exact World.bounded_add hw (Device.allBounded_new name ha network)
  | remove handle =>
    simp only [perform]
    split
    · next h => exact World.bounded_remove hw h
    · exact hw
  | read handle field =>
    simp only [perform]
    split <;> exact hw
  | write handle field value =>
    simp only [perform]
    split
    · next h => exact World.bounded_write hw ha h
    · exact hw

theorem Memory.state_get (device : Option String) (name : Name) (m : Memory) :
    (Memory.get device name m).state = m := by
  unfold Memory.get
  rw [Action.bind_apply]
  split <;> exact Memory.state_read device name m

def HostAction.Bounded : HostAction → Prop
  | set _ value => value.Bounded
  | world action => action.Bounded
  | step | run _ | get _ | setLine _ | reset => True

instance : DecidablePred HostAction.Bounded
  | .set _ value => inferInstanceAs (Decidable value.Bounded)
  | .world action => inferInstanceAs (Decidable action.Bounded)
  | .step | .run _ | .get _ | .setLine _ | .reset => inferInstanceAs (Decidable True)

/-- An action that gives bounded values leaves a bounded memory, if the steps that it takes do. -/
theorem HostAction.bounded_perform {a : HostAction} (ha : a.Bounded) {site : Site}
    (h : site.memory.Bounded) (hsteps : ∀ n r, site.steps n = .ok r → r.1.memory.Bounded) :
    (a.perform site).site.memory.Bounded := by
  have hofSteps {n : Nat} {r : Except LineError (Site × Trace)} (hr : site.steps n = r) :
      (ofSteps site r).site.memory.Bounded := by
    cases r with
    | ok r => exact hsteps n r hr
    | error why => exact h
  cases a with
  | step => exact hofSteps site.steps_one
  | run count => exact hofSteps rfl
  | get name =>
    show (Memory.get site.chip.device name site.memory).state.Bounded
    rw [Memory.state_get]
    exact h
  | set name value => exact Memory.bounded_write h name ha
  | setLine line =>
    simp only [perform]
    split
    · next chip hchip =>
      obtain ⟨rfl, _⟩ := Chip.setLine_eq_ok hchip
      exact h
    · exact h
  | reset => exact ⟨allBounded_empty, h.world⟩
  | world action =>
    cases hw : site.world with
    | none =>
      simp only [perform, hw]
      exact h
    | some w =>
      simp only [perform, hw]
      refine ⟨h.locals, ?_⟩
      rintro _ ⟨⟩
      exact WorldAction.bounded_perform ha (h.world w hw)

/-! ### Steps -/

/-- The fault is over a line that has too many digits to be written, and the limit allows for such
lines. -/
def Fault.OverLimit (limit : Int) (why : Fault) : Prop :=
  why = .arithmetic (.tooManyDigits Numeral.maxDigits) ∧ ¬ WritesLines limit

/-- The record is one of a mistake of the script, unless lines may have too many digits. -/
def Record.Expected (limit : Int) (r : Record) : Prop :=
  (∃ why : ScriptError, r = .ofMistake why) ∨ r = .ofFailure ∧ ¬ WritesLines limit

/-- The message of a conflict names the field, so only its length is known. -/
theorem ScriptError.length_message_ambiguousField (key : String) :
    (ambiguousField key).message.length = 57 + key.length + 1 := by
  have hbefore : "Found multiple different values for the name data field '".length = 57 := by
    decide
  have hafter : "'".length = 1 := by decide
  rw [← hbefore, ← hafter, ← String.length_append, ← String.length_append]
  rfl

/-- No mistake of a script has the message of a failure. -/
theorem ScriptError.message_ne_critical (why : ScriptError) : why.message ≠ criticalMessage := by
  cases why with
  | ambiguousField key =>
    have hlong := length_message_ambiguousField key
    have hshort : criticalMessage.length = 17 := by decide
    intro h
    rw [h, hshort] at hlong
    omega
  | _ => decide

/-- The record of a run that fails over the limit at most is an expected one. -/
theorem Ending.expected_record? {α : Type} {ending : Ending α} {limit : Int}
    (hfails : ∀ why, ending = .failed why → why.OverLimit limit) {r : Record}
    (hr : ending.record? = some r) : r.Expected limit := by
  cases ending with
  | done a => cases hr
  | halted why => exact .inl ⟨why, (Option.some.inj hr).symm⟩
  | failed why => exact .inr ⟨(Option.some.inj hr).symm, (hfails why rfl).2⟩

/-- A site whose program cannot fail, where nothing but mistakes of the script are on record. -/
structure Site.Safe (limit : Int) (site : Site) : Prop where
  sound : site.chip.Sound
  wellFormed : site.chip.program.wellFormed = true
  bounded : site.memory.Bounded
  lineLimit : site.chip.settings.lineLimit = limit
  records : ∀ n, ∀ r ∈ site.chip.errors.get n, r.Expected limit

/-- The chip's device is registered, if there is a world. -/
def Site.Connected (site : Site) : Prop :=
  site.memory.Connected site.chip.device

instance (site : Site) : Decidable site.Connected :=
  inferInstanceAs (Decidable (site.memory.Connected site.chip.device))

/-- If the event is the failure of a line, it is one over the limit. -/
def Event.FailsOverLimit (limit : Int) (e : Event) : Prop :=
  ∀ line why, e = .lineFailed line why → why.OverLimit limit

namespace Site

/-- Well-formed statements complete or halt, unless a line has too many digits, and leave a fit
memory. -/
theorem execution_meets {site : Site} (hbounded : site.memory.Bounded) (hconnected : site.Connected)
    {block : List Stmt} (hblock : blockWellFormed block = true) :
    (site.execution block).state.memory.Fit site.chip.device True ∧
      ∀ why, (site.execution block).ending = .failed why →
        why.OverLimit site.chip.settings.lineLimit := by
  have hlimit : WritesLines site.chip.settings.lineLimit ∨
      Fault.OverLimit site.chip.settings.lineLimit
        (.arithmetic (.tooManyDigits Numeral.maxDigits)) :=
    (em _).imp_right fun h => ⟨rfl, h⟩
  have hkeeps : Action.Keeps (fun m : Machine => m.memory.Fit site.chip.device True)
      (Fault.OverLimit site.chip.settings.lineLimit) (fun _ => True)
      (executeBlock site.chip.device site.chip.settings.lineLimit block) :=
    (keeps_execute_and_executeBlock (.inl trivial) hlimit).2 block (.inl hblock)
  obtain ⟨hfit, hmeets⟩ := hkeeps ⟨site.memory, site.chip.line⟩ ⟨hbounded, fun _ => hconnected⟩
  refine ⟨hfit, fun why hfailed => ?_⟩
  change (site.execution block).ending.Meets _ _ at hmeets
  rw [hfailed] at hmeets
  exact hmeets

theorem blockWellFormed_runnable {l : Line} (h : blockWellFormed l.statements = true) :
    blockWellFormed l.runnable = true := by
  unfold Line.runnable
  split
  · rfl
  · exact h

/-- A step of a safe and connected site leads to another one, and no line fails on the way but over
the limit. -/
theorem Safe.step {limit : Int} {site : Site} (h : site.Safe limit) (hconnected : site.Connected) :
    ∃ r, site.step = .ok r ∧ (r.1.Safe limit ∧ r.1.Connected) ∧
      ∀ e ∈ r.2, e.FailsOverLimit limit := by
  rcases site.step_cases h.sound.inRange with ⟨_, hstep⟩ | ⟨l, hl, hne, _, hstep⟩
  · refine ⟨_, hstep, ⟨h, hconnected⟩, ?_⟩
    rintro e he line why rfl
    cases List.mem_singleton.1 he
  · -- The run of the line gives everything: its memory, its ending, and with it its record.
    have hblock := blockWellFormed_runnable (Program.blockWellFormed_of_mem h.wellFormed hl)
    obtain ⟨hfit, hfails⟩ := execution_meets h.bounded hconnected hblock
    rw [h.lineLimit] at hfails
    have hbuild := site.build_takeLine site.chip.line l
    refine ⟨_, hstep, ⟨⟨sound_advanced_takeLine h.sound hne l, ?_, ?_, ?_, ?_⟩, ?_⟩, ?_⟩
    · show (site.takeLine site.chip.line l).1.chip.program.wellFormed = true
      rw [program_takeLine]
      exact h.wellFormed
    · show (site.takeLine site.chip.line l).1.memory.Bounded
      rw [memory_takeLine]
      exact hfit.bounded
    · exact (congrArg (·.2.2.1.lineLimit) hbuild).trans h.lineLimit
    · intro n r hr
      change r ∈ (site.takeLine site.chip.line l).1.chip.errors.get n at hr
      rw [get_errors_takeLine] at hr
      split at hr
      · exact Ending.expected_record? hfails (ErrorLog.mem_keeping hr)
      · exact h.records n r hr
    · have hdevice : (site.takeLine site.chip.line l).1.chip.device = site.chip.device :=
        congrArg (·.1) hbuild
      show (site.takeLine site.chip.line l).1.memory.Connected
        (site.takeLine site.chip.line l).1.chip.device
      rw [memory_takeLine, hdevice]
      exact hfit.connected trivial
    · rintro e he line why rfl
      rcases mem_trace_takeLine he with h | h | ⟨why', hfailed, h⟩ | ⟨_, r, h⟩
      · cases h
      · cases h
      · cases h
        exact hfails why hfailed
      · cases h

/-- Any number of steps succeeds, and none of them fails on its line but over the limit. -/
theorem Safe.steps {limit : Int} {site : Site} (h : site.Safe limit) (hconnected : site.Connected)
    (n : Nat) :
    ∃ r, site.steps n = .ok r ∧ (r.1.Safe limit ∧ r.1.Connected) ∧
      ∀ e ∈ r.2, e.FailsOverLimit limit := by
  have hstep : ∀ site : Site, site.Safe limit ∧ site.Connected →
      ∃ r, site.step = .ok r ∧ (r.1.Safe limit ∧ r.1.Connected) ∧
        ∀ e ∈ r.2, e.FailsOverLimit limit := by
    rintro site ⟨h, hconnected⟩
    exact h.step hconnected
  exact steps_induction hstep n ⟨h, hconnected⟩

/-- A safe and connected site stays safe, whatever bounded values its host writes. -/
theorem Safe.perform {limit : Int} {site : Site} (h : site.Safe limit)
    (hconnected : site.Connected) {a : HostAction} (ha : a.Bounded) :
    (a.perform site).site.Safe limit := by
  have hsteps (n : Nat) (r : Site × Trace) (hr : site.steps n = .ok r) : r.1.Safe limit := by
    obtain ⟨r', hr', ⟨hsafe, _⟩, _⟩ := h.steps hconnected n
    obtain rfl := Except.ok.inj (hr.symm.trans hr')
    exact hsafe
  obtain ⟨hsound, hbuild⟩ := ((invariant_sound site.chip.build).perform a ⟨h.sound, rfl⟩).1
  have hprogram : (a.perform site).site.chip.program = site.chip.program := congrArg (·.2.1) hbuild
  have hrecords {site' : Site} {t : Trace} (he : Effect site site' t) :
      ∀ n, ∀ r ∈ site'.chip.errors.get n, r.Expected limit := by
    -- Only steps make records, and only a reset takes some away.
    cases he with
    | steps hr => exact (hsteps _ _ hr).records
    | memory m _ => exact h.records
    | line _ => exact h.records
    | reset =>
      intro n r hr
      change r ∈ site.chip.errors.clear.get n at hr
      rw [ErrorLog.get_clear] at hr
      cases hr
  exact ⟨hsound, hprogram ▸ h.wellFormed,
    HostAction.bounded_perform ha h.bounded fun n r hr => (hsteps n r hr).bounded,
    (congrArg (·.2.2.1.lineLimit) hbuild).trans h.lineLimit, hrecords (a.perform_effect site)⟩

/-- The chip's device is registered, if there is a world, before and after every action. -/
def StaysConnected (site : Site) : List HostAction → Prop
  | [] => site.Connected
  | a :: rest => site.Connected ∧ (a.perform site).site.StaysConnected rest

instance decidableStaysConnected :
    ∀ (site : Site) (actions : List HostAction), Decidable (site.StaysConnected actions)
  | site, [] => inferInstanceAs (Decidable site.Connected)
  | site, a :: rest =>
    have := decidableStaysConnected (a.perform site).site rest
    inferInstanceAs (Decidable (site.Connected ∧ (a.perform site).site.StaysConnected rest))

/-- A safe site stays safe under any actions of bounded values that leave it connected. -/
theorem Safe.after {limit : Int} {site : Site} (h : site.Safe limit) {actions : List HostAction}
    (hactions : ∀ a ∈ actions, a.Bounded) (hconnected : site.StaysConnected actions) :
    (site.after actions).Safe limit ∧ (site.after actions).Connected := by
  induction actions generalizing site with
  | nil => exact ⟨h, hconnected⟩
  | cons a rest ih =>
    obtain ⟨hnow, hlater⟩ := hconnected
    have hsafe := h.perform hnow (hactions a List.mem_cons_self)
    exact ih hsafe (fun b hb => hactions b (List.mem_cons_of_mem a hb)) hlater

end Site

/-- An environment sets no limit that cannot be written. -/
theorem writesLines_ofEnvironment (environment : String → Option String) :
    WritesLines (Settings.ofEnvironment environment).1.lineLimit := by
  have hdefault : WritesLines ({} : Settings).lineLimit := by decide +kernel
  show WritesLines (Settings.wholeNumber environment "YOLOL_VM_LINE_LIMIT" _).1
  unfold Settings.wholeNumber
  split
  · exact hdefault
  · split
    · next n hn =>
      have hdigits := Numeral.natAbs_lt_of_whole? hn
      unfold WritesLines
      omega
    · exact hdefault

/-- A chip that finds the locals and the world of a memory. -/
def Chip.starting (chip : Chip) (m : Memory) : Site :=
  ⟨{ chip with locals := m.locals }, m.world⟩

/-- The escape is there: a goto beyond a limit of 4301 digits leads to a line that cannot be
written. -/
example :
    (executeBlock none (Binary64.pow10 Numeral.maxDigits) [.goto (.number "inf")] {}).ending =
      .failed (.arithmetic (.tooManyDigits 4300)) := by
  decide +kernel

/-- A program that counts the visitors at a door and greets them. Its second line jumps to the first
and then halts. -/
def doorkeeper : Program :=
  ⟨[{ statements := [.assign ⟨":visits"⟩ "+=" (.number "1"),
        .branch (.binary .eq ">" (.name ⟨":visits"⟩) (.number "2"))
          [.assign ⟨"greeting"⟩ "=" (.binary .add "+" (.text "hello ") (.name ⟨":visits"⟩))]
          (some [.increment .post "++" (.name ⟨"early"⟩)])] },
    { statements := [.goto (.keyword "ABS" (.number "-1.5")),
        .assign ⟨"x"⟩ "=" (.binary .mul "%" (.number "7") (.name ⟨"nothing"⟩))] }]⟩

/-- A new chip with that program, on the device of the door. -/
def doorkeeperChip : Chip where
  device := some "door"
  program := doorkeeper
  settings := {}
  errors := { maxPerLine := 16 }

def doorWorld : World :=
  World.empty.add (.new "door" [("Visits", .int 9007199254740992)] "default")

/-- What a host does there: it writes to the door and to the chip between steps. -/
def doorVisit : List HostAction :=
  [.step, .world (.write (some "door") "VISITS" (.int 1)), .set ⟨"x"⟩ (.text "3"), .run 4]

end ChipScript
