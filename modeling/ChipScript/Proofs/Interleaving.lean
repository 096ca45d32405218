import ChipScript.Proofs.Counter
import ChipScript.Proofs.Footprint

/-!
# Chips that do not get in each other's way

Chips of one world take turns in any order. If no two of them share both a network and a field that
their programs mention, the order does not matter: two schedules that let every chip take equally
many steps lead to the same chips in the same world.

The reason is that the regions of two such chips are disjoint (`Apart.region_subset_compl`). What
one chip does in its step, it does also after the other's step (`StepsTo.of_agreesOn`), so two steps
of different chips can change places (`StepsTo.swap`), and any schedule can be sorted into any other
with the same number of steps for each chip (`Calm.run_eq_of_perm`).
-/

namespace ChipScript

/-! ### Schedules -/

namespace Fleet

/-- Lets the chip with a given index take a step, if there is one. -/
def step (fleet : Fleet) (index : Nat) : Except LineError Fleet :=
  match fleet.site? index with
  | some site => do
    let r ← site.step
    return fleet.put index r.1
  | none => .ok fleet

def run (fleet : Fleet) : List Nat → Except LineError Fleet
  | [] => .ok fleet
  | index :: rest => do
    let next ← fleet.step index
    next.run rest

end Fleet

/-! ### The region of a chip -/

def Program.fieldKeys (p : Program) : List String :=
  (p.names.filter Name.isField).map fun name => Text.lower name.key

/-- The fields that a program mentions, on a network. -/
def Program.region (p : Program) (network : String) : Region :=
  {field | field.1 = network ∧ field.2 ∈ p.fieldKeys}

/-- The devices of two chips are on different networks, or their programs mention no field in
common. -/
def World.Apart (w : World) (a b : Chip) : Prop :=
  (∀ network, w.Joins a.device network → ¬ w.Joins b.device network) ∨
    List.Disjoint a.program.fieldKeys b.program.fieldKeys

/-- The names in a line of a program are within its region. -/
theorem Program.within_region {p : Program} {network : String} {l : Line} (hl : l ∈ p.lines) :
    ∀ name ∈ blockNames l.runnable, name.Within (p.region network) network := by
  intro name hname hfield
  have hline : name ∈ l.names := by
    rw [Line.names_eq_blockNames]
    unfold Line.runnable at hname
    split at hname
    · cases hname
    · exact hname
  have hmem : name ∈ p.names := by
    rw [Program.names_eq_flatMap]
    exact List.mem_flatMap.2 ⟨l, hl, hline⟩
  exact ⟨rfl, List.mem_map.2 ⟨name, List.mem_filter.2 ⟨hmem, hfield⟩, rfl⟩⟩

namespace World.Apart

variable {w : World} {a b : Chip}

theorem symm (h : w.Apart a b) : w.Apart b a :=
  h.imp (fun hn network hb ha => hn network ha hb) fun hd => List.disjoint_symm hd

/-- Of chips that are apart, the region of one lies outside that of the other. -/
theorem region_subset_compl (h : w.Apart a b) {n n' : String} (ha : w.Joins a.device n)
    (hb : w.Joins b.device n') : a.program.region n ⊆ (b.program.region n')ᶜ := by
  rintro ⟨network, key⟩ ⟨rfl, hkey⟩ ⟨rfl, hkey'⟩
  rcases h with hn | hd
  · exact hn network ha hb
  · exact hd hkey hkey'

end World.Apart

/-! ### One step -/

/-- What a chip becomes when a line is taken depends on the chip and on the run of the line, not on
the world. -/
theorem Site.chip_takeLine_congr {site site' : Site} {l : Line} (number : Int)
    (hchip : site.chip = site'.chip)
    (hending : (site.execution l.runnable).ending = (site'.execution l.runnable).ending)
    (hlocals : (site.execution l.runnable).state.memory.locals =
      (site'.execution l.runnable).state.memory.locals)
    (hline : (site.execution l.runnable).state.line = (site'.execution l.runnable).state.line) :
    (site.takeLine number l).1.chip = (site'.takeLine number l).1.chip := by
  cases h : l.isFaulty with
  | true =>
    rw [takeLine, takeLine, if_pos h, if_pos h, skipLine, skipLine, hchip]
    split <;> rfl
  | false =>
    rw [runnable_of_sound h] at hending hlocals hline
    rw [chip_takeLine_of_sound h, chip_takeLine_of_sound h, hending, hlocals, hline, hchip]

/-- In a world the chip takes a step and leaves another world. -/
def Chip.StepsTo (chip : Chip) (w : World) (chip' : Chip) (w' : World) : Prop :=
  ∃ t, Site.step ⟨chip, some w⟩ = .ok (⟨chip', some w'⟩, t)

/-- A step leads to one chip and one world. -/
theorem Chip.StepsTo.unique {chip next next' : Chip} {w v v' : World} (h : chip.StepsTo w next v)
    (h' : chip.StepsTo w next' v') : next' = next ∧ v' = v := by
  obtain ⟨t, ht⟩ := h
  obtain ⟨t', ht'⟩ := h'
  rw [ht] at ht'
  cases ht'
  exact ⟨rfl, rfl⟩

section

variable {chip : Chip} {network : String} {w w' v : World} {l : Line}

theorem Chip.stepsTo_of_empty (hempty : chip.program.length = 0) (w : World) :
    chip.StepsTo w chip w :=
  ⟨_, Site.step_of_empty hempty⟩

theorem Chip.stepsTo_of_line (hne : chip.program.length ≠ 0)
    (hl : chip.program.line chip.line = .ok l)
    (hv : (Site.execution ⟨chip, some w⟩ l.runnable).state.memory.world = some v) :
    chip.StepsTo w (Site.takeLine ⟨chip, some w⟩ chip.line l).1.advanced.chip v := by
  refine ⟨(Site.takeLine ⟨chip, some w⟩ chip.line l).2, ?_⟩
  have hworld : (Site.takeLine ⟨chip, some w⟩ chip.line l).1.world = some v :=
    (congrArg Memory.world (Site.memory_takeLine _ chip.line l)).trans hv
  rw [Site.step_of_line hne hl, ← hworld]
  rfl

/-- A line stays within the region of its program. -/
theorem Chip.confined_execution (hl : l ∈ chip.program.lines) :
    (executeBlock chip.device chip.settings.lineLimit l.runnable).Confined
      (·.memory.Joins chip.device network) (Machine.AgreesOn (chip.program.region network))
      (·.memory.KeptOutside (chip.program.region network) ·.memory) :=
  Machine.confined_executeBlock chip.settings.lineLimit (Program.within_region hl)

/-- A step of a chip in range succeeds, and changes nothing outside its region. -/
theorem Chip.exists_stepsTo (hrange : chip.InRange) (hj : w.Joins chip.device network) :
    ∃ next v, chip.StepsTo w next v ∧ w.AgreesOn (chip.program.region network)ᶜ v ∧
      next.InRange ∧ next.build = chip.build := by
  have hsite : Chip.InRange (Site.mk chip (some w)).chip := hrange
  rcases Site.step_cases hsite with ⟨hempty, _⟩ | ⟨l, hmem, hne, hl, _⟩
  · exact ⟨chip, w, stepsTo_of_empty hempty w, .refl _ w, hrange, rfl⟩
  · have hkept := (Chip.confined_execution hmem).kept ⟨⟨chip.locals, some w⟩, chip.line⟩ (by
      rintro _ ⟨⟩
      exact hj)
    obtain ⟨v, hv, hagree⟩ := exists_of_rel_some hkept
    refine ⟨_, v, stepsTo_of_line hne hl hv, hagree, Site.inRange_advanced ?_,
      Site.build_takeLine _ chip.line l⟩
    rw [Site.program_takeLine]
    exact hne

/-- In worlds that agree on its region a chip becomes the same, and the worlds agree there after. -/
theorem Chip.StepsTo.of_agreesOn {next : Chip} (h : chip.StepsTo w next v)
    (hrange : chip.InRange) (hj : w.Joins chip.device network)
    (hagree : w.AgreesOn (chip.program.region network) w') :
    ∃ v', chip.StepsTo w' next v' ∧ v.AgreesOn (chip.program.region network) v' := by
  have hsite : Chip.InRange (Site.mk chip (some w)).chip := hrange
  rcases Site.step_cases hsite with ⟨hempty, _⟩ | ⟨l, hmem, hne, hl, _⟩
  · obtain ⟨rfl, rfl⟩ := (stepsTo_of_empty hempty w).unique h
    exact ⟨w', stepsTo_of_empty hempty w', hagree⟩
  · obtain ⟨hending, hstate⟩ := (Chip.confined_execution hmem).alike
      ⟨⟨chip.locals, some w⟩, chip.line⟩ ⟨⟨chip.locals, some w'⟩, chip.line⟩
      (by rintro _ ⟨⟩; exact hj) ⟨⟨rfl, .some hagree⟩, rfl⟩
    -- The worlds that the two runs leave: the first is `v`, since a step leaves only one world.
    have hkept := (Chip.confined_execution hmem).kept ⟨⟨chip.locals, some w⟩, chip.line⟩ (by
      rintro _ ⟨⟩
      exact hj)
    obtain ⟨v₀, hv₀, _⟩ := exists_of_rel_some hkept
    obtain ⟨rfl, rfl⟩ := (stepsTo_of_line hne hl hv₀).unique h
    have hrel := hstate.memory.world
    rw [hv₀] at hrel
    obtain ⟨v', hv', hafter⟩ := exists_of_rel_some hrel
    refine ⟨v', ?_, hafter⟩
    have hchip := Site.chip_takeLine_congr chip.line
      (show (Site.mk chip (some w)).chip = (Site.mk chip (some w')).chip from rfl)
      hending hstate.memory.locals hstate.line
    have hstep : chip.StepsTo w' (Site.takeLine ⟨chip, some w'⟩ chip.line l).1.advanced.chip v' :=
      stepsTo_of_line hne hl hv'
    simp only [Site.advanced, ← hchip] at hstep
    exact hstep

/-- A step leaves the world alone outside of the region. -/
theorem Chip.StepsTo.kept {next : Chip} (h : chip.StepsTo w next v) (hrange : chip.InRange)
    (hj : w.Joins chip.device network) :
    w.AgreesOn (chip.program.region network)ᶜ v ∧ next.InRange ∧ next.build = chip.build := by
  obtain ⟨next', v', h', hkept⟩ := Chip.exists_stepsTo hrange hj
  obtain ⟨rfl, rfl⟩ := h.unique h'
  exact hkept

end

/-! ### Two steps -/

/-- Two steps of chips that are apart can change places. -/
theorem Chip.StepsTo.swap {a b a' b' : Chip} {w wa v : World} (ha : a.InRange) (hb : b.InRange)
    {n n' : String} (hja : w.Joins a.device n) (hjb : w.Joins b.device n') (hapart : w.Apart a b)
    (h₁ : a.StepsTo w a' wa) (h₂ : b.StepsTo wa b' v) :
    ∃ wb, b.StepsTo w b' wb ∧ a.StepsTo wb a' v := by
  have hab : a.program.region n ⊆ (b.program.region n')ᶜ := hapart.region_subset_compl hja hjb
  have hba : b.program.region n' ⊆ (a.program.region n)ᶜ :=
    hapart.symm.region_subset_compl hjb hja
  -- Before the step of `a`, the other chip would have done the same.
  have hwa := (h₁.kept ha hja).1
  obtain ⟨wb, hwb, hb_agree⟩ := h₂.of_agreesOn hb (hwa.joins hjb) (hwa.mono hba).symm
  have hwb_kept := (hwb.kept hb hjb).1
  -- After the step of `b`, the first chip still does the same.
  obtain ⟨v', hv', ha_agree⟩ := h₁.of_agreesOn ha hja (hwb_kept.mono hab)
  have hv_kept := (h₂.kept hb (hwa.joins hjb)).1
  have hv'_kept := (hv'.kept ha (hwb_kept.joins hja)).1
  refine ⟨wb, hwb, ?_⟩
  -- A field belongs to `a`, to `b` or to neither, and in each case both worlds hold the same.
  have hon_a : v.AgreesOn (a.program.region n) v' := (hv_kept.mono hab).symm.trans ha_agree
  have hon_b : v.AgreesOn (b.program.region n') v' := hb_agree.trans (hv'_kept.mono hba)
  have hon_rest : v.AgreesOn ((a.program.region n)ᶜ ∩ (b.program.region n')ᶜ) v' := by
    have hfirst := (hwa.mono Set.inter_subset_left).trans (hv_kept.mono Set.inter_subset_right)
    have hsecond := (hwb_kept.mono Set.inter_subset_right).trans
      (hv'_kept.mono Set.inter_subset_left)
    exact hfirst.symm.trans hsecond
  have hcover : Set.univ ⊆ a.program.region n ∪ b.program.region n' ∪
      ((a.program.region n)ᶜ ∩ (b.program.region n')ᶜ) := by
    intro field _
    by_cases hfa : field ∈ a.program.region n
    · exact .inl (.inl hfa)
    · by_cases hfb : field ∈ b.program.region n'
      · exact .inl (.inr hfb)
      · exact .inr ⟨hfa, hfb⟩
  rw [(((hon_a.union hon_b).union hon_rest).mono hcover).eq]
  exact hv'

/-! ### Fleets -/

namespace Fleet

theorem step_of_none {fleet : Fleet} {i : Nat} (h : fleet.chips[i]? = none) :
    fleet.step i = .ok fleet := by
  unfold step site?
  rw [h]
  rfl

theorem step_of_stepsTo {chips : List Chip} {w w' : World} {i : Nat} {a a' : Chip}
    (ha : chips[i]? = some a) (h : a.StepsTo w a' w') :
    step ⟨chips, some w⟩ i = .ok ⟨chips.set i a', some w'⟩ := by
  obtain ⟨t, ht⟩ := h
  unfold step site?
  simp only [ha, Option.map_some, ht]
  rfl

end Fleet

/-- All chips are in range and on registered devices, and no two of them get in each other's way. -/
structure World.Calm (w : World) (chips : List Chip) : Prop where
  inRange : ∀ (i : Nat) (a : Chip), chips[i]? = some a → a.InRange
  joins : ∀ (i : Nat) (a : Chip), chips[i]? = some a → ∃ network, w.Joins a.device network
  apart : ∀ (i j : Nat) (a b : Chip), i ≠ j → chips[i]? = some a → chips[j]? = some b →
    w.Apart a b

namespace World.Calm

variable {w : World} {chips : List Chip}

/-- Two chips that are apart are calm together. -/
theorem pair {a b : Chip} (ha : a.InRange) (hb : b.InRange) (hra : w.Registers a.device)
    (hrb : w.Registers b.device) (hapart : w.Apart a b) : w.Calm [a, b] := by
  have hcases {i : Nat} {chip : Chip} (hi : [a, b][i]? = some chip) :
      (i = 0 ∧ chip = a) ∨ (i = 1 ∧ chip = b) := by
    match i with
    | 0 => exact .inl ⟨rfl, (Option.some.inj hi).symm⟩
    | 1 => exact .inr ⟨rfl, (Option.some.inj hi).symm⟩
    | n + 2 => cases hi
  obtain ⟨d, hd⟩ := hra
  obtain ⟨e, he⟩ := hrb
  refine ⟨?_, ?_, ?_⟩
  · intro i chip hi
    rcases hcases hi with ⟨_, rfl⟩ | ⟨_, rfl⟩
    · exact ha
    · exact hb
  · intro i chip hi
    rcases hcases hi with ⟨_, rfl⟩ | ⟨_, rfl⟩
    · exact ⟨d.network, d, hd, rfl⟩
    · exact ⟨e.network, e, he, rfl⟩
  · intro i j chip chip' hij hi hj
    rcases hcases hi with ⟨rfl, rfl⟩ | ⟨rfl, rfl⟩ <;> rcases hcases hj with ⟨rfl, rfl⟩ | ⟨rfl, rfl⟩
    · exact absurd rfl hij
    · exact hapart
    · exact hapart.symm
    · exact absurd rfl hij

/-- A step keeps a fleet calm. -/
theorem set (h : w.Calm chips) {i : Nat} {a a' : Chip} {w' : World} (ha : chips[i]? = some a)
    (hstep : a.StepsTo w a' w') : w'.Calm (chips.set i a') := by
  obtain ⟨network, hj⟩ := h.joins i a ha
  obtain ⟨hkept, hrange, hbuild⟩ := hstep.kept (h.inRange i a ha) hj
  -- Every chip of the new fleet stands where one with the same device and program stood.
  have hold (k : Nat) (b' : Chip) (hb' : (chips.set i a')[k]? = some b') :
      ∃ b, chips[k]? = some b ∧ b'.device = b.device ∧ b'.program = b.program ∧ b'.InRange := by
    by_cases hik : i = k
    · subst hik
      have hlt : i < chips.length := (List.getElem?_eq_some_iff.1 ha).1
      rw [List.getElem?_set_self hlt] at hb'
      cases hb'
      exact ⟨a, ha, congrArg (·.1) hbuild, congrArg (·.2.1) hbuild, hrange⟩
    · rw [List.getElem?_set_ne hik] at hb'
      exact ⟨b', hb', rfl, rfl, h.inRange k b' hb'⟩
  refine ⟨?_, ?_, ?_⟩
  · intro k b' hb'
    obtain ⟨_, _, _, _, hb'_range⟩ := hold k b' hb'
    exact hb'_range
  · intro k b' hb'
    obtain ⟨b, hb, hdevice, _, _⟩ := hold k b' hb'
    obtain ⟨n, hn⟩ := h.joins k b hb
    exact ⟨n, hdevice ▸ hkept.joins hn⟩
  · intro k k' b' c' hne hb' hc'
    obtain ⟨b, hb, hbd, hbp, _⟩ := hold k b' hb'
    obtain ⟨c, hc, hcd, hcp, _⟩ := hold k' c' hc'
    unfold Apart
    rw [hbd, hbp, hcd, hcp]
    refine (h.apart k k' b c hne hb hc).imp_left fun hn network hb hc => ?_
    exact hn network (hkept.symm.joins hb) (hkept.symm.joins hc)

/-- In a calm world every step of every chip succeeds. -/
theorem step (h : w.Calm chips) (i : Nat) :
    ∃ chips' w', Fleet.step ⟨chips, some w⟩ i = .ok ⟨chips', some w'⟩ ∧ w'.Calm chips' := by
  cases ha : chips[i]? with
  | none => exact ⟨chips, w, Fleet.step_of_none ha, h⟩
  | some a =>
    obtain ⟨network, hj⟩ := h.joins i a ha
    obtain ⟨a', w', hstep, _⟩ := Chip.exists_stepsTo (h.inRange i a ha) hj
    exact ⟨_, w', Fleet.step_of_stepsTo ha hstep, h.set ha hstep⟩

/-- In a calm world every schedule of steps succeeds. -/
theorem run (h : w.Calm chips) (schedule : List Nat) :
    ∃ fleet, Fleet.run ⟨chips, some w⟩ schedule = .ok fleet := by
  induction schedule generalizing w chips with
  | nil => exact ⟨_, rfl⟩
  | cons i rest ih =>
    obtain ⟨chips', w', hstep, hcalm⟩ := h.step i
    rw [Fleet.run, hstep]
    exact ih hcalm

/-- The step of an index that no chip has changes nothing, before or after another step. -/
theorem step_comm_of_none (h : w.Calm chips) {i : Nat} (hi : chips[i]? = none) (j : Nat) :
    (Fleet.step ⟨chips, some w⟩ i >>= (·.step j)) =
      (Fleet.step ⟨chips, some w⟩ j >>= (·.step i)) := by
  rw [Fleet.step_of_none hi]
  show Fleet.step ⟨chips, some w⟩ j = _
  cases hb : chips[j]? with
  | none =>
    rw [Fleet.step_of_none hb]
    exact (Fleet.step_of_none hi).symm
  | some b =>
    obtain ⟨network, hj⟩ := h.joins j b hb
    obtain ⟨b', w', hstep, _⟩ := Chip.exists_stepsTo (h.inRange j b hb) hj
    rw [Fleet.step_of_stepsTo hb hstep]
    have hlength : chips.length ≤ i := List.getElem?_eq_none_iff.1 hi
    exact (Fleet.step_of_none (List.getElem?_eq_none (by simpa using hlength))).symm

/-- Two steps of calm chips may change places. -/
theorem step_comm (h : w.Calm chips) (i j : Nat) :
    (Fleet.step ⟨chips, some w⟩ i >>= (·.step j)) =
      (Fleet.step ⟨chips, some w⟩ j >>= (·.step i)) := by
  by_cases hij : i = j
  · rw [hij]
  cases ha : chips[i]? with
  | none => exact h.step_comm_of_none ha j
  | some a =>
    cases hb : chips[j]? with
    | none => exact (h.step_comm_of_none hb i).symm
    | some b =>
      obtain ⟨n, hja⟩ := h.joins i a ha
      obtain ⟨n', hjb⟩ := h.joins j b hb
      have hra := h.inRange i a ha
      have hrb := h.inRange j b hb
      obtain ⟨a', wa, hstep, hkept, _⟩ := Chip.exists_stepsTo hra hja
      obtain ⟨b', v, hstep', _⟩ := Chip.exists_stepsTo hrb (hkept.joins hjb)
      obtain ⟨wb, hfirst, hsecond⟩ := hstep.swap hra hrb hja hjb (h.apart i j a b hij ha hb) hstep'
      have hb_after : (chips.set i a')[j]? = some b := by rw [List.getElem?_set_ne hij, hb]
      have ha_after : (chips.set j b')[i]? = some a := by
        rw [List.getElem?_set_ne (Ne.symm hij), ha]
      rw [Fleet.step_of_stepsTo ha hstep, Fleet.step_of_stepsTo hb hfirst]
      show Fleet.step ⟨chips.set i a', some wa⟩ j = Fleet.step ⟨chips.set j b', some wb⟩ i
      rw [Fleet.step_of_stepsTo hb_after hstep', Fleet.step_of_stepsTo ha_after hsecond,
        List.set_comm _ _ hij]

/-- The order of a schedule does not matter. -/
theorem run_eq_of_perm (h : w.Calm chips) {s t : List Nat} (hst : s.Perm t) :
    Fleet.run ⟨chips, some w⟩ s = Fleet.run ⟨chips, some w⟩ t := by
  induction hst generalizing w chips with
  | nil => rfl
  | cons i _ ih =>
    obtain ⟨chips', w', hstep, hcalm⟩ := h.step i
    rw [Fleet.run, Fleet.run, hstep]
    exact ih hcalm
  | swap i j rest =>
    have hrun (i j : Nat) : Fleet.run ⟨chips, some w⟩ (i :: j :: rest) =
        (Fleet.step ⟨chips, some w⟩ i >>= (·.step j)) >>= (·.run rest) := by
      rw [Fleet.run]
      cases Fleet.step ⟨chips, some w⟩ i <;> rfl
    rw [hrun, hrun, h.step_comm]
  | trans _ _ ih ih' => exact (ih h).trans (ih' h)

end World.Calm

/-- Two chips of one world, on different networks or without a field in common, come to the same
state and leave the same world in whatever order they take their steps. Their lines are in range, as
those of all chips that a host can come to. -/
theorem conflict_free_chips_commute {a b : Chip} {w : World} (ha : a.InRange) (hb : b.InRange)
    (hra : w.Registers a.device) (hrb : w.Registers b.device) (hapart : w.Apart a b)
    {s t : List (Fin 2)} (hcount : ∀ i, s.count i = t.count i) :
    ∃ fleet, Fleet.run ⟨[a, b], some w⟩ (s.map Fin.val) = .ok fleet ∧
      Fleet.run ⟨[a, b], some w⟩ (t.map Fin.val) = .ok fleet := by
  have hcalm := World.Calm.pair ha hb hra hrb hapart
  have hperm : (s.map Fin.val).Perm (t.map Fin.val) := (List.perm_iff_count.2 hcount).map _
  obtain ⟨fleet, hfleet⟩ := hcalm.run (s.map Fin.val)
  exact ⟨fleet, hfleet, hcalm.run_eq_of_perm hperm ▸ hfleet⟩

/-- A chip that fills a tank, and jumps ahead once the tank is full. -/
def pumpChip : Chip where
  device := some "pump"
  program := ⟨[{ statements := [.assign ⟨":level"⟩ "+=" (.number "1"),
    .branch (.binary .eq ">" (.name ⟨":Level"⟩) (.number "4")) [.goto (.number "9")] none] }]⟩
  settings := {}
  errors := { maxPerLine := 16 }

/-- A chip that switches a lamp, creates a field for it, and then halts. -/
def lampChip : Chip where
  device := some "lamp"
  program := ⟨[{ statements := [.assign ⟨":LIGHT"⟩ "=" (.keyword "not" (.name ⟨":light"⟩)),
    .increment .post "++" (.name ⟨":switched"⟩),
    .assign ⟨"share"⟩ "=" (.binary .mul "/" (.number "1") (.name ⟨"nothing"⟩))] }, {}]⟩
  settings := {}
  errors := { maxPerLine := 16 }

/-- A pump and a lamp on the same network, both with a level. -/
def plant : World :=
  (World.empty.add (.new "pump" [("Level", .int 3)] "default")).add
    (.new "lamp" [("LEVEL", .int 3), ("light", .int 0)] "default")

/-- The pump and the lamp share a network, and the lamp even carries a field of the pump's. -/
theorem pump_and_lamp_commute :
    let s : List (Fin 2) := [0, 1, 0, 1, 1]
    let t : List (Fin 2) := [1, 1, 0, 1, 0]
    plant.Apart pumpChip lampChip ∧ (∀ i, s.count i = t.count i) ∧
      ∃ fleet, Fleet.run ⟨[pumpChip, lampChip], some plant⟩ (s.map Fin.val) = .ok fleet ∧
        Fleet.run ⟨[pumpChip, lampChip], some plant⟩ (t.map Fin.val) = .ok fleet := by
  intro s t
  have hapart : plant.Apart pumpChip lampChip := by
    have hkeys : ∀ key ∈ pumpChip.program.fieldKeys, key ∉ lampChip.program.fieldKeys := by
      decide +kernel
    exact .inr fun key hpump hlamp => hkeys key hpump hlamp
  have hcount : ∀ i, s.count i = t.count i := by decide
  have hpump : plant.Registers pumpChip.device := by decide +kernel
  have hlamp : plant.Registers lampChip.device := by decide +kernel
  exact ⟨hapart, hcount, conflict_free_chips_commute (Chip.inRange_one rfl) (Chip.inRange_one rfl)
    hpump hlamp hapart hcount⟩

end ChipScript
