import ChipScript.Proofs.Counter
import ChipScript.Proofs.Footprint

/-!
# What a step leaves alone

A line writes its targets: the names that it assigns to and the names that it increments, however
deep in a condition or in the target of a goto. A step at the line changes no other local and no
field with another key, it changes fields on the network of the chip's device only, and it neither
adds, removes nor renames a device. That is so whether the line completes, halts or fails.

`Memory.KeptBut` says this of two memories. It is reflexive and transitive, so it passes from
writing a target to all statements with the same targets (`keptBut_executeBlock`), and from them to
a step.
-/

namespace ChipScript

def Line.targets (l : Line) : List Name :=
  blockTargets l.statements

/-- The statements that are run have no other targets than the line. -/
theorem Line.blockTargets_runnable_subset (l : Line) : blockTargets l.runnable ⊆ l.targets := by
  unfold Line.runnable
  split
  · simp [blockTargets]
  · exact List.Subset.refl _

/-- The names that the next step of a chip may write: those of the line at the counter, and none if
the program has no lines. -/
def Chip.targets (chip : Chip) : List Name :=
  match chip.program.line chip.line with
  | .ok l => l.targets
  | .error _ => []

/-- The lower-case keys of the fields among some names. -/
def fieldKeys (names : List Name) : List String :=
  (names.filter Name.isField).map fun name => Text.lower name.key

theorem mem_fieldKeys {names : List Name} {name : Name} (h : name ∈ names)
    (hfield : name.scope = .field) : Text.lower name.key ∈ fieldKeys names := by
  have hisField : name.isField = true := by simp [Name.isField, hfield]
  exact List.mem_map_of_mem (List.mem_filter.2 ⟨h, hisField⟩)

/-! ### Memories -/

/-- The fields with the keys of some names, on the network that a handle is on. -/
def World.inReach (w : World) (handle : Option String) (names : List Name) : Region :=
  {field | w.Joins handle field.1 ∧ field.2 ∈ fieldKeys names}

/-- What is in reach of a handle is the same in worlds that agree. -/
theorem World.AgreesOn.inReach_eq {R : Region} {w w' : World} (h : w.AgreesOn R w')
    (handle : Option String) (names : List Name) :
    w.inReach handle names = w'.inReach handle names := by
  ext field
  exact and_congr_left fun _ => ⟨h.joins, h.symm.joins⟩

namespace Memory

/-- Of two memories the second has the locals of the first except for some names, and its fields
except for those that these names reach. -/
structure KeptBut (device : Option String) (names : List Name) (m m' : Memory) : Prop where
  locals : ∀ name ∉ names, m'.locals[name.text]? = m.locals[name.text]?
  world : Option.Rel (fun w w' => w.AgreesOn (w.inReach device names)ᶜ w') m.world m'.world

variable {device : Option String} {names : List Name}

theorem keptBut_refl (m : Memory) : m.KeptBut device names m := by
  refine ⟨fun _ _ => rfl, ?_⟩
  cases m.world with
  | none => exact .none
  | some w => exact .some (.refl _ w)

theorem KeptBut.trans {m m' m'' : Memory} (h : m.KeptBut device names m')
    (h' : m'.KeptBut device names m'') : m.KeptBut device names m'' := by
  refine ⟨fun name hname => (h'.locals name hname).trans (h.locals name hname), ?_⟩
  have hfirst := h.world
  have hsecond := h'.world
  generalize m.world = w at *
  generalize m'.world = w' at *
  generalize m''.world = w'' at *
  cases hfirst with
  | none => exact hsecond
  | some hfirst =>
    cases hsecond with
    | some hsecond =>
      rw [← hfirst.inReach_eq] at hsecond
      exact .some (hfirst.trans hsecond)

/-- A write changes its target only. -/
theorem keptBut_write {name : Name} (hname : name ∈ names) (value : Value) (m : Memory) :
    m.KeptBut device names (write device name value m).state := by
  obtain ⟨locals, world⟩ := m
  unfold write
  cases hscope : name.scope with
  | chip =>
    have hsame : KeptBut device names ⟨locals, world⟩ ⟨locals, world⟩ := keptBut_refl _
    refine ⟨fun other hother => ?_, hsame.world⟩
    have hkey : name.key = name.text := by simp [Name.key, hscope]
    have hne : name.key ≠ other.text := by
      rw [hkey]
      intro htext
      obtain rfl : name = other := Name.mk.injEq _ _ ▸ htext
      exact hother hname
    simp [Std.ExtTreeMap.getElem?_insert, hne]
  | field =>
    cases world with
    | none => exact keptBut_refl _
    | some w =>
      cases hwrite : w.write device name.key value with
      | error why =>
        simp only [hwrite]
        exact keptBut_refl _
      | ok w' =>
        simp only [hwrite]
        refine ⟨fun _ _ => rfl, .some ?_⟩
        obtain ⟨writer, hwriter, rfl⟩ := World.write_eq_ok hwrite
        refine World.agreesOn_put (World.mem_of_resolve hwriter) (not_not.2 ⟨?_, ?_⟩) value
        · exact ⟨writer, hwriter, rfl⟩
        · exact mem_fieldKeys hname hscope

end Memory

/-! ### Statements and steps -/

/-- What an action leaves behind is related to what it started from, if the relation is reflexive
and transitive and so is every part of the action. -/
theorem compositional_kept {σ : Type} (kept : σ → σ → Prop) (hrefl : ∀ s, kept s s)
    (htrans : ∀ s s' s'', kept s s' → kept s' s'' → kept s s'') :
    Compositional fun (α : Type) (x : Action σ α) => ∀ s, kept s (x s).state where
  pure := fun _ s => hrefl s
  halt := fun _ s => hrefl s
  fail := fun _ s => hrefl s
  bind := by
    intro α β x f hx hf s
    rw [Action.bind_apply]
    split
    · next a _ => exact htrans _ _ _ (hx s) (hf a _)
    · exact hx s
    · exact hx s

/-- Statements leave a memory behind that is related to the one they started from, if the relation
is reflexive and transitive and so is writing a target. -/
theorem kept_executeBlock {kept : Memory → Memory → Prop} (hrefl : ∀ m, kept m m)
    (htrans : ∀ m m' m'', kept m m' → kept m' m'' → kept m m'') {device : Option String}
    {block : List Stmt}
    (hwrite : ∀ name ∈ blockTargets block, ∀ v m, kept m (Memory.write device name v m).state)
    (limit : Int) (m : Machine) :
    kept m.memory (executeBlock device limit block m).state.memory := by
  have hmemory : Compositional fun (α : Type) (x : Action Memory α) => ∀ m, kept m (x m).state :=
    compositional_kept kept hrefl htrans
  have hmachine : Compositional fun (α : Type) (x : Action Machine α) =>
      ∀ m : Machine, kept m.memory (x m).state.memory :=
    compositional_kept (fun m m' : Machine => kept m.memory m'.memory) (fun m => hrefl m.memory)
      fun _ _ _ h h' => htrans _ _ _ h h'
  refine hmachine.sequential.executeBlock ?_ ?_ hmemory.sequential ?_ ?_ hwrite m
  · intro line text m
    exact hrefl m.memory
  · intro line m
    exact hrefl m.memory
  · intro α x hx m
    exact hx m.memory
  · intro name _
    refine hmemory.readName fun m => ?_
    rw [Memory.state_read]
    exact hrefl m

/-- Statements change nothing but their targets. -/
theorem keptBut_executeBlock {device : Option String} {names : List Name} {block : List Stmt}
    (hblock : blockTargets block ⊆ names) (limit : Int) (m : Machine) :
    m.memory.KeptBut device names (executeBlock device limit block m).state.memory :=
  kept_executeBlock Memory.keptBut_refl (fun _ _ _ h h' => h.trans h')
    (fun _ hname v m => Memory.keptBut_write (hblock hname) v m) limit m

/-- Taking a line changes its targets only. -/
theorem Site.keptBut_takeLine (site : Site) (number : Int) (l : Line) :
    site.memory.KeptBut site.chip.device l.targets (site.takeLine number l).1.memory := by
  rw [Site.memory_takeLine]
  exact keptBut_executeBlock l.blockTargets_runnable_subset _ ⟨site.memory, site.chip.line⟩

/-- A step succeeds, and it changes at most the targets of the line at the counter. -/
theorem Site.exists_step_keptBut {site : Site} (h : site.chip.InRange) :
    ∃ r, site.step = .ok r ∧
      site.memory.KeptBut site.chip.device site.chip.targets r.1.memory := by
  rcases site.step_cases h with ⟨_, hstep⟩ | ⟨l, _, _, hl, hstep⟩
  · exact ⟨_, hstep, Memory.keptBut_refl _⟩
  · have htargets : site.chip.targets = l.targets := by rw [Chip.targets, hl]
    refine ⟨_, hstep, ?_⟩
    rw [htargets]
    exact site.keptBut_takeLine site.chip.line l

/-- A device before and after a change to no more than the fields with some keys. -/
structure Device.KeptBut (keys : List String) (d d' : Device) : Prop where
  name : d'.name = d.name
  network : d'.network = d.network
  fields : ∀ key ∉ keys, d'.fields[key]? = d.fields[key]?

/-- Device by device, what is out of reach is kept. -/
theorem World.AgreesOn.forall₂_keptBut {w w' : World} {handle : Option String} {names : List Name}
    (h : w.AgreesOn (w.inReach handle names)ᶜ w') :
    List.Forall₂ (fun d d' : Device => d.KeptBut (fieldKeys names) d' ∧
      (¬ w.Joins handle d.network → d' = d)) w.devices w'.devices := by
  refine List.Forall₂.imp (fun d d' hd => ⟨⟨hd.name.symm, hd.network.symm, ?_⟩, ?_⟩) h
  · intro key hkey
    exact (hd.fields key fun hreach => hkey hreach.2).symm
  · -- On another network nothing is in reach, so the devices agree on every field.
    intro hforeign
    have hall : d.AgreesOn Set.univ d' :=
      ⟨hd.name, hd.network, fun key _ => hd.fields key fun hreach => hforeign hreach.1⟩
    exact hall.eq.symm

theorem Memory.KeptBut.world_eq_none {device : Option String} {names : List Name} {m m' : Memory}
    (h : m.KeptBut device names m') (hnone : m.world = none) : m'.world = none := by
  have hrel := h.world
  rw [hnone] at hrel
  generalize m'.world = w' at hrel ⊢
  cases hrel with
  | none => rfl

theorem Memory.KeptBut.exists_world {device : Option String} {names : List Name} {m m' : Memory}
    (h : m.KeptBut device names m') {w : World} (hw : m.world = some w) :
    ∃ w', m'.world = some w' ∧ w.AgreesOn (w.inReach device names)ᶜ w' := by
  have hrel := h.world
  rw [hw] at hrel
  obtain ⟨w', hw', hagree⟩ := exists_of_rel_some hrel
  exact ⟨w', hw', hagree⟩

/-- With nothing in reach, nothing changes. -/
theorem Memory.KeptBut.eq_of_nil {device : Option String} {m m' : Memory}
    (h : m.KeptBut device [] m') : m' = m := by
  have hlocals : m'.locals = m.locals :=
    Std.ExtTreeMap.ext_getElem? fun key => h.locals ⟨key⟩ List.not_mem_nil
  have hworld : m'.world = m.world := by
    have hrel := h.world
    generalize m.world = w at hrel ⊢
    generalize m'.world = w' at hrel ⊢
    cases hrel with
    | none => rfl
    | @some w w' hagree =>
      have hall : Set.univ ⊆ (w.inReach device [])ᶜ := fun _ _ hreach => List.not_mem_nil hreach.2
      rw [(hagree.mono hall).eq]
  cases m
  cases m'
  simp only [Memory.mk.injEq]
  exact ⟨hlocals, hworld⟩

/-- A step changes at most the targets of the line that it takes: no other local is set, changed or
removed, no field with another key is, nothing is on another network than that of the chip's device,
and the devices remain the same in the same order. A line without targets changes no local and
nothing in the world. -/
theorem step_changes_only_targets {site : Site} (h : Reachable site) :
    ∃ r, site.step = .ok r ∧
      (∀ name ∉ site.chip.targets,
        r.1.chip.locals[name.text]? = site.chip.locals[name.text]?) ∧
      (site.world = none → r.1.world = none) ∧
      (∀ w, site.world = some w → ∃ w', r.1.world = some w' ∧
        List.Forall₂ (fun d d' : Device => d.KeptBut (fieldKeys site.chip.targets) d' ∧
          (¬ w.Joins site.chip.device d.network → d' = d)) w.devices w'.devices) ∧
      (site.chip.targets = [] →
        r.1.chip.locals = site.chip.locals ∧ r.1.world = site.world) := by
  obtain ⟨r, hstep, hkept⟩ := site.exists_step_keptBut h.sound.inRange
  refine ⟨r, hstep, hkept.locals, ?_, ?_, ?_⟩
  · intro hnone
    exact hkept.world_eq_none hnone
  · intro w hw
    obtain ⟨w', hw', hagree⟩ := hkept.exists_world hw
    exact ⟨w', hw', hagree.forall₂_keptBut⟩
  · intro hnil
    rw [hnil] at hkept
    have heq := hkept.eq_of_nil
    exact ⟨congrArg Memory.locals heq, congrArg Memory.world heq⟩

/-- A gate that counts those who pass in the condition of a branch, and then divides by zero. -/
def gateChip : Chip where
  device := some "gate"
  program := ⟨[{ statements := [
    .branch (.keyword "not" (.increment .post "++" (.name ⟨":Passed"⟩)))
      [.assign ⟨"share"⟩ "/=" (.number "0")] none] }]⟩
  settings := {}
  errors := { maxPerLine := 16 }

/-- A gate and a door on one network, and a tower on another that counts too. -/
def yard : World :=
  ((World.empty.add (.new "gate" [("open", .int 1)] "yard")).add
    (.new "door" [("PASSED", .int 0), ("open", .int 1)] "yard")).add
    (.new "tower" [("passed", .int 7)] "hill")

/-- What the gate counts is on the door. The step changes nothing else, and nothing on the hill. -/
theorem gate_changes_only_passed :
    Reachable ⟨gateChip, some yard⟩ ∧ gateChip.targets = [⟨":Passed"⟩, ⟨"share"⟩] ∧
      ∃ r w', Site.step ⟨gateChip, some yard⟩ = .ok r ∧ r.1.world = some w' ∧
        r.1.chip.locals["other"]? = none ∧
        List.Forall₂ (fun d d' : Device => d.KeptBut ["passed"] d' ∧
          (d.network = "hill" → d' = d)) yard.devices w'.devices := by
  have hreachable : Reachable ⟨gateChip, some yard⟩ :=
    .start (show Chip.new (some "gate") gateChip.program {} = .ok gateChip from rfl)
  have htargets : gateChip.targets = [⟨":Passed"⟩, ⟨"share"⟩] := by decide +kernel
  obtain ⟨r, hstep, hlocals, _, hworld, _⟩ := step_changes_only_targets hreachable
  obtain ⟨w', hw', hdevices⟩ := hworld yard rfl
  have hother : (⟨"other"⟩ : Name) ∉ gateChip.targets := by
    rw [htargets]
    decide
  have hkeys : fieldKeys gateChip.targets = ["passed"] := by
    rw [htargets]
    decide +kernel
  have hforeign : ¬ yard.Joins (some "gate") "hill" := by
    rintro ⟨d, hd, hnetwork⟩
    cases hd
    exact absurd hnetwork (by decide)
  refine ⟨hreachable, htargets, r, w', hstep, hw', hlocals ⟨"other"⟩ hother, ?_⟩
  refine hdevices.imp fun d d' hd => ⟨?_, fun hhill => hd.2 (hhill ▸ hforeign)⟩
  rw [← hkeys]
  exact hd.1

end ChipScript
