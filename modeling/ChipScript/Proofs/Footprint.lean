import Mathlib.Data.List.Forall2
import Mathlib.Data.List.Nodup
import Mathlib.Data.Set.Basic
import ChipScript.Proofs.World

/-!
# What a chip sees and changes

A field of the world is a key on the devices of a network, and a `Region` is a set of such fields.
Two worlds agree on a region if they have the same devices, in the same order and on the same
networks, and these hold the same values in the fields of the region.

A chip sees and changes no more than the region of its own network and of the fields that its
program mentions. `Action.Confined` says so of an action, in two halves: from states that agree on
the region it ends alike and leaves states that agree on the region, and outside the region it
changes nothing. Reading and writing a name of the region are confined, and with them everything
that is made of them (`confined_executeBlock`).
-/

namespace ChipScript

/-- A set of fields, given by their networks and lower-case keys. -/
abbrev Region := Set (String × String)

/-! ### Worlds that agree -/

structure Device.AgreesOn (R : Region) (d d' : Device) : Prop where
  name : d.name = d'.name
  network : d.network = d'.network
  fields : ∀ key, (d.network, key) ∈ R → d.fields[key]? = d'.fields[key]?

namespace Device.AgreesOn

variable {R : Region} {d d' d'' : Device}

theorem refl (R : Region) (d : Device) : d.AgreesOn R d :=
  ⟨rfl, rfl, fun _ _ => rfl⟩

theorem symm (h : d.AgreesOn R d') : d'.AgreesOn R d := by
  refine ⟨h.name.symm, h.network.symm, fun key hkey => ?_⟩
  rw [← h.network] at hkey
  exact (h.fields key hkey).symm

theorem trans (h : d.AgreesOn R d') (h' : d'.AgreesOn R d'') : d.AgreesOn R d'' := by
  refine ⟨h.name.trans h'.name, h.network.trans h'.network, fun key hkey => ?_⟩
  rw [h.fields key hkey]
  rw [h.network] at hkey
  exact h'.fields key hkey

/-- On a key of the region both devices show the field or neither. -/
theorem exposes_eq (h : d.AgreesOn R d') {key : String} (hkey : (d.network, key) ∈ R) :
    d.exposes key = d'.exposes key := by
  unfold exposes
  rw [Std.ExtTreeMap.contains_eq_isSome_getElem?, Std.ExtTreeMap.contains_eq_isSome_getElem?,
    h.fields key hkey]

/-- Equal writes keep devices in agreement. -/
theorem put (h : d.AgreesOn R d') (key : String) (value : Value) :
    (d.put key value).AgreesOn R (d'.put key value) := by
  refine ⟨h.name, h.network, fun key' hkey' => ?_⟩
  simp only [Device.put, Std.ExtTreeMap.getElem?_insert]
  split
  · rfl
  · exact h.fields key' hkey'

theorem union {R' : Region} (h : d.AgreesOn R d') (h' : d.AgreesOn R' d') :
    d.AgreesOn (R ∪ R') d' := by
  refine ⟨h.name, h.network, fun key hkey => ?_⟩
  rcases hkey with hkey | hkey
  · exact h.fields key hkey
  · exact h'.fields key hkey

/-- Devices that agree on everything are equal. -/
theorem eq (h : d.AgreesOn Set.univ d') : d = d' := by
  have hfields : d.fields = d'.fields :=
    Std.ExtTreeMap.ext_getElem? fun key => h.fields key (Set.mem_univ _)
  cases d
  cases d'
  simp only [Device.mk.injEq]
  exact ⟨h.name, h.network, hfields⟩

end Device.AgreesOn

namespace World

def AgreesOn (R : Region) (w w' : World) : Prop :=
  List.Forall₂ (Device.AgreesOn R) w.devices w'.devices

/-- The handle stands for a device on a given network. -/
def Joins (w : World) (handle : Option String) (network : String) : Prop :=
  ∃ d, w.resolve handle = .ok d ∧ d.network = network

theorem resolve_eq_ok {w : World} {handle : Option String} {d : Device}
    (h : w.resolve handle = .ok d) : ∃ name, handle = some name ∧ w.find? name = some d := by
  unfold resolve at h
  split at h
  · next hfound =>
    cases h
    exact Option.bind_eq_some_iff.1 hfound
  · cases h

/-- A handle stands for a device of the world. -/
theorem mem_of_resolve {w : World} {handle : Option String} {d : Device}
    (h : w.resolve handle = .ok d) : d ∈ w.devices := by
  obtain ⟨name, _, hfind⟩ := resolve_eq_ok h
  exact List.mem_of_find?_eq_some hfind

/-- No two devices of a world have the same name. -/
theorem eq_of_name_eq {w : World} {d e : Device} (hd : d ∈ w.devices) (he : e ∈ w.devices)
    (hname : d.name = e.name) : d = e :=
  List.inj_on_of_nodup_map w.names_nodup hd he hname

namespace AgreesOn

variable {R : Region} {w w' w'' : World}

theorem refl (R : Region) (w : World) : w.AgreesOn R w :=
  List.forall₂_same.2 fun d _ => .refl R d

theorem symm (h : w.AgreesOn R w') : w'.AgreesOn R w :=
  (h.imp fun _ _ hd => hd.symm).flip

theorem trans (h : w.AgreesOn R w') (h' : w'.AgreesOn R w'') : w.AgreesOn R w'' := by
  have aux : ∀ {l l' l'' : List Device}, List.Forall₂ (Device.AgreesOn R) l l' →
      List.Forall₂ (Device.AgreesOn R) l' l'' → List.Forall₂ (Device.AgreesOn R) l l'' := by
    intro l l' l'' h h'
    induction h generalizing l'' with
    | nil => exact h'
    | cons hd _ ih =>
      cases h' with
      | cons hd' hl' => exact .cons (hd.trans hd') (ih hl')
  exact aux h h'

/-- Worlds that agree on a region agree on any part of it. -/
theorem mono {R' : Region} (hR : R' ⊆ R) (h : w.AgreesOn R w') : w.AgreesOn R' w' :=
  h.imp fun _ _ hd => ⟨hd.name, hd.network, fun key hkey => hd.fields key (hR hkey)⟩

/-- Agreement on two regions is agreement on both together. -/
theorem union {R' : Region} (h : w.AgreesOn R w') (h' : w.AgreesOn R' w') :
    w.AgreesOn (R ∪ R') w' :=
  h.mp (fun _ _ hd hd' => hd.union hd') h'

/-- Worlds that agree on all fields are the same. -/
theorem eq (h : w.AgreesOn Set.univ w') : w = w' := by
  have hdevices : List.Forall₂ Eq w.devices w'.devices := h.imp fun _ _ hd => hd.eq
  rw [List.forall₂_eq_eq_eq] at hdevices
  cases w
  cases w'
  simp only [World.mk.injEq]
  exact hdevices

theorem find? (h : w.AgreesOn R w') {name : String} {d : Device} (hd : w.find? name = some d) :
    ∃ d', w'.find? name = some d' ∧ d.AgreesOn R d' := by
  unfold World.find? at hd ⊢
  unfold AgreesOn at h
  generalize w.devices = l at h hd
  generalize w'.devices = l' at h ⊢
  induction h with
  | nil => cases hd
  | @cons e e' _ _ he _ ih =>
    by_cases hname : e.name = name
    · rw [List.find?_cons_of_pos (by simpa using hname)] at hd
      cases hd
      exact ⟨e', List.find?_cons_of_pos (by simpa [← he.name] using hname), he⟩
    · rw [List.find?_cons_of_neg (by simpa using hname)] at hd
      rw [List.find?_cons_of_neg (by simpa [← he.name] using hname)]
      exact ih hd

/-- In worlds that agree a handle stands for devices that agree. -/
theorem resolve (h : w.AgreesOn R w') {handle : Option String} {d : Device}
    (hd : w.resolve handle = .ok d) :
    ∃ d', w'.resolve handle = .ok d' ∧ d.AgreesOn R d' := by
  obtain ⟨name, rfl, hfind⟩ := resolve_eq_ok hd
  obtain ⟨d', hd', hagree⟩ := h.find? hfind
  refine ⟨d', ?_, hagree⟩
  unfold World.resolve
  rw [Option.bind_some, hd']

/-- A handle joins the same network in both worlds. -/
theorem joins (h : w.AgreesOn R w') {handle : Option String} {network : String}
    (hj : w.Joins handle network) : w'.Joins handle network := by
  obtain ⟨d, hd, hnetwork⟩ := hj
  obtain ⟨d', hd', hagree⟩ := h.resolve hd
  exact ⟨d', hd', hagree.network ▸ hnetwork⟩

/-! ### Reading and writing -/

/-- In worlds that agree the same values are exposed. -/
theorem exposed_eq (h : w.AgreesOn R w') {network key : String} (hkey : (network, key) ∈ R) :
    w.exposed network key = w'.exposed network key := by
  unfold exposed
  unfold AgreesOn at h
  generalize w.devices = l at h ⊢
  generalize w'.devices = l' at h ⊢
  induction h with
  | nil => rfl
  | @cons d d' _ _ hd _ ih =>
    rw [List.filter_cons, List.filter_cons, ← hd.network]
    by_cases hn : d.network = network
    · rw [if_pos (by simpa using hn), if_pos (by simpa using hn), List.filterMap_cons,
        List.filterMap_cons, ih, hd.fields key (hn ▸ hkey)]
    · rw [if_neg (by simpa using hn), if_neg (by simpa using hn), ih]

/-- A read inside the region answers the same in both worlds. -/
theorem read_eq (h : w.AgreesOn R w') {handle : Option String} {network field : String}
    (hj : w.Joins handle network) (hkey : (network, Text.lower field) ∈ R) :
    w.read handle field = w'.read handle field := by
  obtain ⟨d, hd, rfl⟩ := hj
  obtain ⟨d', hd', hagree⟩ := h.resolve hd
  rw [read_of_resolve hd, read_of_resolve hd', ← hagree.network, h.exposed_eq hkey]

theorem any_exposes_eq (h : w.AgreesOn R w') {network key : String} (hkey : (network, key) ∈ R) :
    w.devices.any (fun e => e.network = network && e.exposes key) =
      w'.devices.any (fun e => e.network = network && e.exposes key) := by
  unfold AgreesOn at h
  generalize w.devices = l at h ⊢
  generalize w'.devices = l' at h ⊢
  induction h with
  | nil => rfl
  | @cons d d' _ _ hd _ ih =>
    rw [List.any_cons, List.any_cons, ih, ← hd.network]
    by_cases hn : d.network = network
    · rw [hd.exposes_eq (hn ▸ hkey)]
    · simp [hn]

/-- A write inside the region has the same targets in both worlds. -/
theorem isTarget_eq (h : w.AgreesOn R w') {writer writer' d d' : Device}
    (hwriter : writer.AgreesOn R writer') (hd : d.AgreesOn R d') {key : String}
    (hkey : (writer.network, key) ∈ R) :
    w.isTarget writer key d = w'.isTarget writer' key d' := by
  unfold isTarget
  rw [h.any_exposes_eq hkey, ← hwriter.network, ← hwriter.name, ← hd.network, ← hd.name]
  by_cases hn : d.network = writer.network
  · rw [hd.exposes_eq (hn ▸ hkey)]
  · simp [hn]

/-- Writing the same inside the region keeps worlds in agreement. -/
theorem put (h : w.AgreesOn R w') {writer writer' : Device}
    (hwriter : writer.AgreesOn R writer') {key : String} (hkey : (writer.network, key) ∈ R)
    (value : Value) : (w.put writer key value).AgreesOn R (w'.put writer' key value) := by
  show List.Forall₂ _ (w.devices.map (w.written writer key value))
    (w'.devices.map (w'.written writer' key value))
  rw [List.forall₂_map_left_iff, List.forall₂_map_right_iff]
  refine h.imp fun d d' hd => ?_
  unfold written
  rw [h.isTarget_eq hwriter hd hkey]
  split
  · exact hd.put key value
  · exact hd

end AgreesOn

/-- A write does not leave the network of its writer. -/
theorem network_eq_of_isTarget {w : World} {writer d : Device} (hwriter : writer ∈ w.devices)
    (hd : d ∈ w.devices) {key : String} (h : w.isTarget writer key d = true) :
    d.network = writer.network := by
  unfold isTarget at h
  split at h
  · simp only [Bool.and_eq_true, decide_eq_true_eq] at h
    exact h.1
  · -- Nothing exposes the field: the target has the name of the writer, and so it is the writer.
    rw [eq_of_name_eq hd hwriter (by simpa using h)]

/-- A write changes no field but its own, on no network but the writer's. -/
theorem agreesOn_put {w : World} {writer : Device} (hwriter : writer ∈ w.devices) {key : String}
    {R : Region} (hkey : (writer.network, key) ∉ R) (value : Value) :
    w.AgreesOn R (w.put writer key value) := by
  show List.Forall₂ _ w.devices (w.devices.map (w.written writer key value))
  rw [List.forall₂_map_right_iff]
  refine List.forall₂_same.2 fun d hd => ?_
  unfold written
  split
  · next htarget =>
    refine ⟨rfl, rfl, fun key' hkey' => ?_⟩
    have hne : key ≠ key' := by
      rintro rfl
      rw [network_eq_of_isTarget hwriter hd htarget] at hkey'
      exact hkey hkey'
    simp [Device.put, Std.ExtTreeMap.getElem?_insert, hne]
  · exact .refl R d

/-- A write through a device of the region's network leads from agreeing worlds to agreeing ones,
and changes nothing outside the region. -/
theorem AgreesOn.write {R : Region} {w w' : World} (h : w.AgreesOn R w') {handle : Option String}
    {network field : String} (hj : w.Joins handle network)
    (hkey : (network, Text.lower field) ∈ R) (value : Value) :
    ∃ v v', w.write handle field value = .ok v ∧ w'.write handle field value = .ok v' ∧
      v.AgreesOn R v' ∧ w.AgreesOn Rᶜ v := by
  obtain ⟨d, hd, rfl⟩ := hj
  obtain ⟨d', hd', hagree⟩ := h.resolve hd
  exact ⟨_, _, write_of_resolve hd field value, write_of_resolve hd' field value,
    h.put hagree hkey value, agreesOn_put (mem_of_resolve hd) (not_not.2 hkey) value⟩

end World

/-! ### Actions that stay inside a region -/

/-- From states that are the same to it the action ends alike and leaves states that are the same to
it, and it keeps the rest. All this is asked only of states that satisfy `I`. -/
structure Action.Confined {σ α : Type} (I : σ → Prop) (same kept : σ → σ → Prop) (x : Action σ α) :
    Prop where
  alike : ∀ s s', I s → same s s' →
    (x s).ending = (x s').ending ∧ same (x s).state (x s').state
  kept : ∀ s, I s → kept s (x s).state

/-- Staying inside a region is kept by every sequence. -/
theorem compositional_confined {σ : Type} {I : σ → Prop} {same kept : σ → σ → Prop}
    (hrefl : ∀ s, kept s s) (htrans : ∀ s s' s'', kept s s' → kept s' s'' → kept s s'')
    (hI : ∀ s s', I s → kept s s' → I s') :
    Compositional fun (α : Type) (x : Action σ α) => x.Confined I same kept where
  pure := fun a => ⟨fun s s' _ h => ⟨rfl, h⟩, fun s _ => hrefl s⟩
  halt := fun why => ⟨fun s s' _ h => ⟨rfl, h⟩, fun s _ => hrefl s⟩
  fail := fun why => ⟨fun s s' _ h => ⟨rfl, h⟩, fun s _ => hrefl s⟩
  bind := by
    intro α β x f hx hf
    refine ⟨fun s s' hs hsame => ?_, fun s hs => ?_⟩
    · obtain ⟨hending, hstate⟩ := hx.alike s s' hs hsame
      rw [Action.bind_apply, Action.bind_apply, ← hending]
      split
      · next a _ => exact (hf a).alike _ _ (hI _ _ hs (hx.kept s hs)) hstate
      · exact ⟨rfl, hstate⟩
      · exact ⟨rfl, hstate⟩
    · have hfirst := hx.kept s hs
      rw [Action.bind_apply]
      split
      · next a _ => exact htrans _ _ _ hfirst ((hf a).kept _ (hI _ _ hs hfirst))
      · exact hfirst
      · exact hfirst

/-- A local is in every region, and a field is in a region if its key on the network is. -/
def Name.Within (R : Region) (network : String) (name : Name) : Prop :=
  name.isField = true → (network, Text.lower name.key) ∈ R

theorem exists_of_rel_some {α β : Type} {r : α → β → Prop} {a : α} {b? : Option β}
    (h : Option.Rel r (some a) b?) : ∃ b, b? = some b ∧ r a b := by
  cases h with
  | some h => exact ⟨_, rfl, h⟩

namespace Memory

/-- The device is on the network, if there is a world. -/
def Joins (device : Option String) (network : String) (m : Memory) : Prop :=
  ∀ w, m.world = some w → w.Joins device network

structure AgreesOn (R : Region) (m m' : Memory) : Prop where
  locals : m.locals = m'.locals
  world : Option.Rel (World.AgreesOn R) m.world m'.world

/-- Nothing but fields of the region and locals is different. -/
def KeptOutside (R : Region) (m m' : Memory) : Prop :=
  Option.Rel (World.AgreesOn Rᶜ) m.world m'.world

variable {R : Region} {device : Option String} {network : String}

theorem keptOutside_refl (m : Memory) : m.KeptOutside R m := by
  unfold KeptOutside
  cases m.world with
  | none => exact .none
  | some w => exact .some (.refl _ w)

theorem KeptOutside.trans {m m' m'' : Memory} (h : m.KeptOutside R m') (h' : m'.KeptOutside R m'') :
    m.KeptOutside R m'' := by
  unfold KeptOutside at *
  generalize m.world = w at *
  generalize m'.world = w' at *
  generalize m''.world = w'' at *
  cases h with
  | none => exact h'
  | some h =>
    cases h' with
    | some h' => exact .some (h.trans h')

/-- A chip stays on its network when no more than a region is changed. -/
theorem Joins.of_keptOutside {m m' : Memory} (hj : m.Joins device network)
    (h : m.KeptOutside R m') : m'.Joins device network := by
  intro w' hw'
  unfold KeptOutside at h
  rw [hw'] at h
  generalize hw : m.world = w at h
  cases h with
  | some h => exact h.joins (hj _ hw)

/-- A read stays inside a region that has its field. -/
theorem confined_read {name : Name} (hname : name.Within R network) :
    (read device name).Confined (Joins device network) (AgreesOn R) (KeptOutside R) := by
  refine ⟨fun m m' hj hsame => ?_, fun m _ => ?_⟩
  · rw [state_read, state_read]
    refine ⟨?_, hsame⟩
    unfold read
    cases hscope : name.scope with
    | chip => simp only [hsame.locals]
    | field =>
      obtain ⟨locals, world⟩ := m
      obtain ⟨locals', world'⟩ := m'
      cases hsame.world with
      | none => rfl
      | @some w w' hagree =>
        have hread := hagree.read_eq (hj w rfl) (hname (by simp [Name.isField, hscope]))
        simp only [hread]
        split <;> rfl
  · rw [state_read]
    exact keptOutside_refl m

/-- A write stays inside a region that has its field. -/
theorem confined_write {name : Name} (hname : name.Within R network) (value : Value) :
    (write device name value).Confined (Joins device network) (AgreesOn R) (KeptOutside R) := by
  refine ⟨?_, ?_⟩
  · rintro ⟨locals, world⟩ ⟨locals', world'⟩ hj ⟨hlocals, hworld⟩
    unfold write
    cases hscope : name.scope with
    | chip => exact ⟨rfl, congrArg (·.insert name.key value) hlocals, hworld⟩
    | field =>
      cases hworld with
      | none => exact ⟨rfl, hlocals, .none⟩
      | @some w w' hagree =>
        have hkey := hname (by simp [Name.isField, hscope])
        obtain ⟨v, v', hv, hv', hafter, _⟩ := hagree.write (hj w rfl) hkey value
        simp only [hv, hv']
        exact ⟨trivial, hlocals, .some hafter⟩
  · rintro ⟨locals, world⟩ hj
    unfold write
    cases hscope : name.scope with
    | chip => exact keptOutside_refl (R := R) ⟨locals, world⟩
    | field =>
      cases world with
      | none => exact .none
      | some w =>
        have hkey := hname (by simp [Name.isField, hscope])
        obtain ⟨v, _, hv, _, _, hkept⟩ := (World.AgreesOn.refl R w).write (hj w rfl) hkey value
        simp only [hv]
        exact .some hkept

end Memory

/-! ### Statements -/

namespace Machine

structure AgreesOn (R : Region) (m m' : Machine) : Prop where
  memory : m.memory.AgreesOn R m'.memory
  line : m.line = m'.line

variable {R : Region} {device : Option String} {network : String}

theorem compositional_confined : Compositional fun (α : Type) (x : Action Machine α) =>
    x.Confined (·.memory.Joins device network) (AgreesOn R) (·.memory.KeptOutside R ·.memory) :=
  ChipScript.compositional_confined (fun m => Memory.keptOutside_refl m.memory)
    (fun _ _ _ h h' => h.trans h') (fun _ _ hj h => hj.of_keptOutside h)

theorem confined_onMemory {α : Type} {x : Action Memory α}
    (hx : x.Confined (Memory.Joins device network) (Memory.AgreesOn R) (Memory.KeptOutside R)) :
    (onMemory x).Confined (·.memory.Joins device network) (AgreesOn R)
      (·.memory.KeptOutside R ·.memory) := by
  refine ⟨fun m m' hj hsame => ?_, fun m hj => hx.kept m.memory hj⟩
  obtain ⟨hending, hstate⟩ := hx.alike m.memory m'.memory hj hsame.memory
  exact ⟨hending, hstate, hsame.line⟩

/-- Statements see and change nothing but the fields that they mention, on the network of the chip's
device. -/
theorem confined_executeBlock (limit : Int) {block : List Stmt}
    (hblock : ∀ name ∈ blockNames block, name.Within R network) :
    (executeBlock device limit block).Confined (·.memory.Joins device network) (AgreesOn R)
      (·.memory.KeptOutside R ·.memory) := by
  have hmemory : Compositional fun (α : Type) (x : Action Memory α) =>
      x.Confined (Memory.Joins device network) (Memory.AgreesOn R) (Memory.KeptOutside R) :=
    ChipScript.compositional_confined Memory.keptOutside_refl (fun _ _ _ h h' => h.trans h')
      fun _ _ hj h => hj.of_keptOutside h
  refine (compositional_confined.execute_and_executeBlock_of_names ?_ ?_ ?_ ?_).2 block hblock
  · intro line text
    exact ⟨fun m m' _ h => ⟨rfl, h⟩, fun m _ => Memory.keptOutside_refl m.memory⟩
  · intro line
    exact ⟨fun m m' _ h => ⟨rfl, h.memory, rfl⟩, fun m _ => Memory.keptOutside_refl m.memory⟩
  · intro e he
    exact confined_onMemory (hmemory.evaluate_of_names (fun _ => Memory.confined_read)
      (fun _ v hname => Memory.confined_write hname v) he)
  · intro target operator value ht hvalue
    exact confined_onMemory (hmemory.assign_of_names (fun _ => Memory.confined_read)
      (fun _ v hname => Memory.confined_write hname v) operator ht hvalue)

end Machine

end ChipScript
