import ChipScript.Proofs.Reports
import ChipScript.Proofs.Step

/-!
# Hosts

A host owns a chip and the world around it. It steps the chip, reads and writes names, moves the
counter and resets the chip, and between any two of these it may register, remove, read and write
the devices of the world, whether or not the chip's own device is among them.

* `HostAction.perform` says what one action does to a site and what the host is told in return.
* `Site.after` is the site after a list of actions, and `Reachable` says that a site is one of those
  that a new chip can come to.
* `Effect` sorts what an action can do to a site into four cases, and `HostAction.perform_effect`
  says that there are no others. An invariant of reachable sites is proved case by case from it,
  never by opening `perform` again.
-/

namespace ChipScript

inductive WorldAction where
  | add (name : String) (initial : List (String × Value)) (network : String)
  | remove (handle : Option String)
  | read (handle : Option String) (field : String)
  | write (handle : Option String) (field : String) (value : Value)

/-- What a host does with a chip and the world around it. -/
inductive HostAction where
  | step
  | run (count : Int)
  | get (name : Name)
  | set (name : Name) (value : Value)
  | setLine (line : Int)
  | reset
  | world (action : WorldAction)

/-- What a host is told in return. -/
inductive Answer where
  | done
  | got (ending : Ending (Option Value))
  | written (ending : Ending Unit)
  | found (read : FieldRead)
  | badLine (why : LineError)
  | badDevice (why : DeviceError)

/-- What an action comes to: an answer, the site that it leaves, and what is told. -/
structure Response where
  answer : Answer
  site : Site
  trace : Trace := []

namespace WorldAction

/-- Acts on a world. A refused action leaves the world as it is. -/
def perform : WorldAction → World → Answer × World × Trace
  | add name initial network, w => (.done, w.register (.new name initial network))
  | remove handle, w =>
    match w.remove handle with
    | .ok w' => (.done, w', [])
    | .error why => (.badDevice why, w, [])
  | read handle field, w =>
    match w.read handle field with
    | .ok (r, trace) => (.found r, w, trace)
    | .error why => (.badDevice why, w, [])
  | write handle field value, w =>
    match w.write handle field value with
    | .ok w' => (.done, w', [])
    | .error why => (.badDevice why, w, [])

end WorldAction

namespace HostAction

/-- What a number of steps comes to. A step that is refused would leave the site as it is. -/
def ofSteps (site : Site) : Except LineError (Site × Trace) → Response
  | .ok r => ⟨.done, r.1, r.2⟩
  | .error why => ⟨.badLine why, site, []⟩

/-- Acts on a site. Running fewer than one step does nothing, and so does acting on a world where
there is none. -/
def perform : HostAction → Site → Response
  | step, site => ofSteps site site.step
  | run count, site => ofSteps site (site.steps count.toNat)
  | get name, site =>
    let r := Site.get name site
    ⟨.got r.ending, r.state, r.trace⟩
  | set name value, site =>
    let r := Site.set name value site
    ⟨.written r.ending, r.state, r.trace⟩
  | setLine line, site =>
    match site.chip.setLine line with
    | .ok chip => ⟨.done, { site with chip }, []⟩
    | .error why => ⟨.badLine why, site, []⟩
  | reset, site => ⟨.done, { site with chip := site.chip.reset }, []⟩
  | world action, site =>
    match site.world with
    | some w =>
      let r := action.perform w
      ⟨r.1, { site with world := some r.2.1 }, r.2.2⟩
    | none => ⟨.done, site, []⟩

end HostAction

def Site.after (site : Site) : List HostAction → Site
  | [] => site
  | a :: rest => (a.perform site).site.after rest

/-- The sites that a host can bring a new chip to. -/
inductive Reachable : Site → Prop where
  | start {device : Option String} {program : Program} {settings : Settings} {chip : Chip}
      {world : Option World} (h : Chip.new device program settings = .ok chip) :
      Reachable ⟨chip, world⟩
  | act {site : Site} (a : HostAction) (h : Reachable site) : Reachable (a.perform site).site

/-! ### What an action can do -/

/-- Reading is quiet for a host too. -/
theorem Memory.quiet_get (device : Option String) (name : Name) (m : Memory) :
    (Memory.get device name m).trace.Quiet := by
  have hread := Memory.quiet_read device name m
  unfold Memory.get
  rw [Action.bind_apply]
  split
  · simpa using hread
  · exact hread
  · exact hread

/-- Acting on the world is quiet. -/
theorem WorldAction.quiet_perform (a : WorldAction) (w : World) : (a.perform w).2.2.Quiet := by
  cases a with
  | add name initial network => exact Trace.quiet_singleton ⟨rfl, rfl, rfl⟩
  | remove handle =>
    simp only [perform]
    split <;> exact Trace.quiet_nil
  | read handle field =>
    simp only [perform]
    split
    · next h => exact World.quiet_read h
    · exact Trace.quiet_nil
  | write handle field value =>
    simp only [perform]
    split <;> exact Trace.quiet_nil

/-- What a host can do to a site: take steps, change the memory, move the counter within the
program, and reset the chip. -/
inductive Effect (site : Site) : Site → Trace → Prop where
  | steps {n : Nat} {r : Site × Trace} (h : site.steps n = .ok r) : Effect site r.1 r.2
  | memory (m : Memory) {t : Trace} (h : t.Quiet) : Effect site (site.withMemory m) t
  | line {n : Int} (h : Chip.InRange { site.chip with line := n }) :
      Effect site { site with chip.line := n } []
  | reset : Effect site { site with chip := site.chip.reset } []

theorem Effect.refl (site : Site) : Effect site site [] :=
  .steps (show site.steps 0 = .ok (site, []) from rfl)

theorem HostAction.effect_ofSteps {site : Site} {n : Nat} {r : Except LineError (Site × Trace)}
    (h : site.steps n = r) : Effect site (ofSteps site r).site (ofSteps site r).trace := by
  cases r with
  | ok r => exact .steps h
  | error why => exact .refl site

theorem Site.steps_one (site : Site) : site.steps 1 = site.step := by
  rw [steps]
  cases h : site.step with
  | error why => rfl
  | ok r =>
    show Except.ok (r.1, r.2 ++ []) = .ok r
    rw [List.append_nil]

theorem Chip.setLine_eq_ok {chip chip' : Chip} {n : Int} (h : chip.setLine n = .ok chip') :
    chip' = { chip with line := n } ∧ chip'.InRange := by
  unfold Chip.setLine at h
  split at h
  · next hline =>
    cases h
    exact ⟨rfl, hline⟩
  · cases h

/-- An action has one of the four effects. -/
theorem HostAction.perform_effect (a : HostAction) (site : Site) :
    Effect site (a.perform site).site (a.perform site).trace := by
  cases a with
  | step => exact effect_ofSteps site.steps_one
  | run count => exact effect_ofSteps rfl
  | get name => exact .memory _ (Memory.quiet_get _ _ _)
  | set name value => exact .memory _ (Memory.quiet_write _ _ _ _)
  | setLine line =>
    simp only [perform]
    split
    · next chip hchip =>
      obtain ⟨rfl, hline⟩ := Chip.setLine_eq_ok hchip
      exact .line hline
    · exact .refl site
  | reset => exact .reset
  | world action =>
    -- To the chip, an action on the world is another memory with the same locals.
    cases hw : site.world with
    | none =>
      simp only [perform, hw]
      exact .refl site
    | some w =>
      simp only [perform, hw]
      exact .memory ⟨site.chip.locals, some (action.perform w).2.1⟩ (action.quiet_perform w)

/-! ### Invariants -/

/-- A property `P` of sites that no host can break, together with a property `Q` of every event that
is told meanwhile. -/
structure Invariant (P : Site → Prop) (Q : Event → Prop) : Prop where
  step : ∀ site, P site → ∃ r, site.step = .ok r ∧ P r.1 ∧ ∀ e ∈ r.2, Q e
  memory : ∀ site m, P site → P (site.withMemory m)
  line : ∀ site n, Chip.InRange { site.chip with line := n } → P site →
    P { site with chip.line := n }
  reset : ∀ site, P site → P { site with chip := site.chip.reset }
  quiet : ∀ e : Event, e.level = .debug → e.report? = none → Q e

namespace Invariant

variable {P : Site → Prop} {Q : Event → Prop}

/-- An invariant is kept by whatever an action can do. -/
theorem effect (hP : Invariant P Q) {site site' : Site} {t : Trace} (he : Effect site site' t)
    (h : P site) : P site' ∧ ∀ e ∈ t, Q e := by
  cases he with
  | @steps n r hr =>
    obtain ⟨r', hr', hP', hQ'⟩ := Site.steps_induction hP.step n h
    obtain rfl : r = r' := Except.ok.inj (hr.symm.trans hr')
    exact ⟨hP', hQ'⟩
  | memory m hquiet =>
    refine ⟨hP.memory site m h, fun e he => ?_⟩
    obtain ⟨hlevel, hreport, _⟩ := hquiet e he
    exact hP.quiet e hlevel hreport
  | line hn => exact ⟨hP.line site _ hn h, by simp⟩
  | reset => exact ⟨hP.reset site h, by simp⟩

/-- An invariant is kept by every action. -/
theorem perform (hP : Invariant P Q) (a : HostAction) {site : Site} (h : P site) :
    P (a.perform site).site ∧ ∀ e ∈ (a.perform site).trace, Q e :=
  hP.effect (a.perform_effect site) h

/-- An invariant is kept by any list of actions. -/
theorem after (hP : Invariant P Q) (site : Site) (h : P site) (actions : List HostAction) :
    P (site.after actions) := by
  induction actions generalizing site with
  | nil => exact h
  | cons a rest ih => exact ih _ (hP.perform a h).1

end Invariant

end ChipScript
