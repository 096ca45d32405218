import ChipScript.Proofs.Interleaving
import ChipScript.Proofs.Networks
import ChipScript.Proofs.Records
import ChipScript.Proofs.Safety

/-!
# Fields that several devices share

If the devices of each network agree on their fields, can chips that run among them bring a field
into conflict? A write gives the same value to all devices that expose the field, so it seems that
they cannot. But a NaN does not equal itself: two devices that both hold one are in conflict, and a
script can write one.

That is the only way. `World.Uniform` allows for it: on each network the values of a field equal
each other or are all NaN. Writing keeps a world uniform (`World.Uniform.put`), so every line of a
chip does (`Machine.keepsUniform_executeBlock`), and in a uniform world a read is in conflict just
if two devices hold a NaN (`World.Uniform.read_conflicting_iff`).
-/

namespace ChipScript

/-! ### Values in conflict -/

/-- NaN does not compare with anything. -/
theorem Binary64.Exact.compare?_nan (x : Binary64.Exact) : x.compare? .nan = none := by
  cases x <;> rfl

/-- Nothing equals a NaN. -/
theorem Value.equal_eq_false_of_isNaN {v : Value} (h : v.isNaN = true) (u : Value) :
    u.equal v = false := by
  cases v with
  | text s => cases h
  | num b =>
    have hb : b.exact = .nan := by simpa [isNaN, Number.isNaN] using h
    cases u with
    | text s => rfl
    | num a => simp [equal, Number.equal, Number.compare?, hb, Binary64.Exact.compare?_nan]

/-- The values equal each other, or both are NaN. -/
def Value.Alike (u v : Value) : Prop :=
  u.equal v = true ∨ (u.isNaN = true ∧ v.isNaN = true)

theorem Value.alike_refl (v : Value) : v.Alike v := by
  cases h : v.isNaN with
  | true => exact .inr ⟨h, h⟩
  | false => exact .inl (equal_self h)

/-- Of two values that are alike, both are NaN or neither. -/
theorem Value.Alike.isNaN_iff {u v : Value} (h : u.Alike v) (h' : v.Alike u) :
    u.isNaN = true ↔ v.isNaN = true := by
  constructor
  · intro hu
    rcases h' with heq | ⟨hv, _⟩
    · rw [equal_eq_false_of_isNaN hu] at heq
      cases heq
    · exact hv
  · intro hv
    rcases h with heq | ⟨hu, _⟩
    · rw [equal_eq_false_of_isNaN hv] at heq
      cases heq
    · exact hu

namespace World

/-- No NaN is left out as equal to an earlier one. -/
theorem distinct_of_isNaN {values : List Value} (h : ∀ v ∈ values, v.isNaN = true) :
    distinct values = values := by
  have aux : ∀ (rest seen : List Value), (∀ v ∈ seen, v.isNaN = true) →
      (∀ v ∈ rest, v.isNaN = true) →
      rest.foldl (fun seen u => if seen.any (u.equal ·) then seen else seen ++ [u]) seen =
        seen ++ rest := by
    intro rest
    induction rest with
    | nil => exact fun seen _ _ => (List.append_nil seen).symm
    | cons u rest ih =>
      intro seen hseen hrest
      obtain ⟨hu, hrest⟩ := List.forall_mem_cons.1 hrest
      have hnew : ¬ seen.any (u.equal ·) = true := by
        rw [List.any_eq_true]
        rintro ⟨v, hv, heq⟩
        rw [Value.equal_eq_false_of_isNaN (hseen v hv)] at heq
        cases heq
      rw [List.foldl_cons, if_neg hnew, ih _ _ hrest, List.append_assoc, List.singleton_append]
      exact List.forall_mem_append.2 ⟨hseen, List.forall_mem_singleton.2 hu⟩
  exact aux values [] (fun _ h => absurd h List.not_mem_nil) h

/-- Of values that are alike more than one is left just if more than one is a NaN. -/
theorem one_lt_length_distinct_iff {values : List Value}
    (h : ∀ u ∈ values, ∀ v ∈ values, u.Alike v) :
    1 < (distinct values).length ↔ 1 < values.countP Value.isNaN := by
  cases values with
  | nil => simp [distinct]
  | cons v rest =>
    have hv : v ∈ v :: rest := List.mem_cons_self
    have hnan : ∀ u ∈ v :: rest, (u.isNaN = true ↔ v.isNaN = true) :=
      fun u hu => (h u hu v hv).isNaN_iff (h v hv u hu)
    cases hfirst : v.isNaN with
    | true =>
      have hall : ∀ u ∈ v :: rest, u.isNaN = true := fun u hu => (hnan u hu).2 hfirst
      rw [distinct_of_isNaN hall, List.countP_eq_length.2 hall]
    | false =>
      have hnone : ∀ u ∈ v :: rest, ¬ u.isNaN = true := by
        intro u hu hu_nan
        rw [(hnan u hu).1 hu_nan] at hfirst
        cases hfirst
      have hequal : ∀ u ∈ rest, u.equal v = true := by
        intro u hu
        rcases h u (List.mem_cons_of_mem v hu) v hv with heq | ⟨hu_nan, _⟩
        · exact heq
        · exact absurd hu_nan (hnone u (List.mem_cons_of_mem v hu))
      rw [distinct_of_equal hequal, List.countP_eq_zero.2 hnone]
      simp

/-! ### Uniform worlds -/

/-- On each network all devices that expose a field hold equal values, and so none of them holds a
NaN. -/
def Settled (w : World) : Prop :=
  ∀ network key, ∀ u ∈ w.exposed network key, ∀ v ∈ w.exposed network key, u.equal v = true

/-- On each network all devices that expose a field hold equal values, or all hold a NaN. -/
def Uniform (w : World) : Prop :=
  ∀ network key, ∀ u ∈ w.exposed network key, ∀ v ∈ w.exposed network key, u.Alike v

/-- On the network of the handle, two devices or more hold a NaN in the field. -/
def SharesNaN (w : World) (handle : Option String) (field : String) : Prop :=
  ∃ network, w.Joins handle network ∧
    1 < (w.exposed network (Text.lower field)).countP Value.isNaN

variable {w : World}

/-- Values that are equal are alike. -/
theorem Settled.uniform (h : w.Settled) : w.Uniform :=
  fun network key u hu v hv => .inl (h network key u hu v hv)

/-- A conflict is more than one distinct value. -/
theorem classify_conflicting_iff (field network : String) (values : List Value) :
    (∃ t, classify field network values = (.conflicting, t)) ↔ 1 < values.length := by
  match values with
  | [] => simp [classify]
  | [v] => simp [classify]
  | u :: v :: rest => simp [classify]

/-- The devices are in conflict over a field if more than one of its values is left when those that
equal an earlier one are left out. -/
theorem read_conflicting_iff (handle : Option String) (field : String) :
    (∃ t, w.read handle field = .ok (.conflicting, t)) ↔
      ∃ network, w.Joins handle network ∧
        1 < (distinct (w.exposed network (Text.lower field))).length := by
  constructor
  · intro ⟨t, ht⟩
    obtain ⟨reader, hreader, hr⟩ := read_eq_ok ht
    exact ⟨reader.network, ⟨reader, hreader, rfl⟩,
      (classify_conflicting_iff field _ _).1 ⟨t, hr.symm⟩⟩
  · intro ⟨network, ⟨reader, hreader, hnetwork⟩, hlength⟩
    obtain ⟨t, ht⟩ := (classify_conflicting_iff field network _).2 hlength
    refine ⟨t, ?_⟩
    rw [read_of_resolve hreader, hnetwork, ht]

/-- In a uniform world devices are in conflict about NaN only. -/
theorem Uniform.read_conflicting_iff (h : w.Uniform) (handle : Option String) (field : String) :
    (∃ t, w.read handle field = .ok (.conflicting, t)) ↔ w.SharesNaN handle field := by
  rw [World.read_conflicting_iff]
  exact exists_congr fun network =>
    and_congr_right fun _ => one_lt_length_distinct_iff (h network (Text.lower field))

/-- A write leaves the same value on all devices that show the field. -/
theorem Uniform.put (h : w.Uniform) {writer : Device} (hwriter : writer ∈ w.devices)
    (key : String) (v : Value) : (w.put writer key v).Uniform := by
  intro network key'
  by_cases heq : (writer.network, key) = (network, key')
  · obtain ⟨rfl, rfl⟩ := Prod.mk.inj heq
    rw [exposed_put_same hwriter]
    intro u hu u' hu'
    rw [List.eq_of_mem_replicate hu, List.eq_of_mem_replicate hu']
    exact v.alike_refl
  · rw [exposed_put_other hwriter heq]
    exact h network key'

theorem Uniform.write (h : w.Uniform) {handle : Option String} {field : String} {v : Value}
    {w' : World} (hw' : w.write handle field v = .ok w') : w'.Uniform := by
  obtain ⟨writer, hwriter, rfl⟩ := write_eq_ok hw'
  exact h.put (mem_of_resolve hwriter) _ v

end World

/-! ### Actions in uniform worlds -/

/-- From a uniform world the action leads to a uniform world, and it halts over a conflict only if
devices share a NaN. -/
def Action.KeepsUniform {σ α : Type} (device : Option String) (part : σ → Memory)
    (x : Action σ α) : Prop :=
  ∀ s w, (part s).world = some w → w.Uniform →
    ∃ w', (part (x s).state).world = some w' ∧ w'.Uniform ∧
      ∀ key, (x s).ending = .halted (.ambiguousField key) → w'.SharesNaN device key

theorem Action.sequential_keepsUniform {σ : Type} (device : Option String) (part : σ → Memory) :
    Sequential fun α (x : Action σ α) => x.KeepsUniform device part where
  pure _ := fun _ w hw huniform => ⟨w, hw, huniform, nofun⟩
  fail _ := fun _ w hw huniform => ⟨w, hw, huniform, nofun⟩
  halt hwhy := fun _ w hw huniform =>
    ⟨w, hw, huniform, fun key hkey => absurd (Ending.halted.inj hkey) (hwhy key)⟩
  bind := by
    intro α β x f hx hf s w hw huniform
    obtain ⟨w', hw', huniform', hhalt⟩ := hx s w hw huniform
    rw [Action.bind_apply]
    cases hending : (x s).ending with
    | done a => exact hf a _ w' hw' huniform'
    | halted why =>
      refine ⟨w', hw', huniform', fun key hkey => hhalt key ?_⟩
      rw [hending, Ending.halted.inj hkey]
    | failed why => exact ⟨w', hw', huniform', nofun⟩

namespace Memory

variable {device : Option String}

theorem sharesNaN_of_read {m : Memory} {w : World} (hw : m.world = some w)
    (huniform : w.Uniform) {name : Name}
    (h : (Memory.read device name m).ending = .done .conflicting) :
    w.SharesNaN device name.key := by
  cases hscope : name.scope with
  | chip => simp [Memory.read, hscope] at h
  | field =>
    cases hread : w.read device name.key with
    | error why => simp [Memory.read, hscope, hw, hread] at h
    | ok r =>
      obtain ⟨found, t⟩ := r
      cases found with
      | conflicting => exact (huniform.read_conflicting_iff device name.key).1 ⟨t, hread⟩
      | missing => simp [Memory.read, hscope, hw, hread] at h
      | found v => simp [Memory.read, hscope, hw, hread] at h

/-- In a uniform world a read halts only over a shared NaN. -/
theorem keepsUniform_readName (name : Name) :
    (readName device name).KeepsUniform device id := by
  intro m w hw huniform
  have hworld : (Memory.read device name m).state.world = some w := by rw [state_read]; exact hw
  unfold readName
  rw [Action.bind_apply]
  cases hending : (Memory.read device name m).ending with
  | halted why => exact absurd hending (read_ne_halted device name m why)
  | failed why => exact ⟨w, hworld, huniform, nofun⟩
  | done found =>
    cases found with
    | missing => exact ⟨w, hworld, huniform, nofun⟩
    | found v => exact ⟨w, hworld, huniform, nofun⟩
    | conflicting =>
      refine ⟨w, hworld, huniform, ?_⟩
      intro key hkey
      cases hkey
      exact sharesNaN_of_read hw huniform hending

theorem keepsUniform_write (name : Name) (v : Value) :
    (Memory.write device name v).KeepsUniform device id := by
  intro m w hw huniform
  have hworld : m.world = some w := hw
  cases hscope : name.scope with
  | chip =>
    simp only [Memory.write, hscope]
    exact ⟨w, hw, huniform, nofun⟩
  | field =>
    cases hwrite : w.write device name.key v with
    | error why =>
      simp only [Memory.write, hscope, hworld, hwrite]
      exact ⟨w, hw, huniform, nofun⟩
    | ok w' =>
      simp only [Memory.write, hscope, hworld, hwrite]
      exact ⟨w', rfl, huniform.write hwrite, nofun⟩

end Memory

theorem Machine.keepsUniform_executeBlock (device : Option String) (limit : Int)
    (block : List Stmt) :
    (executeBlock device limit block).KeepsUniform device Machine.memory := by
  refine (Action.sequential_keepsUniform device Machine.memory).executeBlock ?_ ?_
    (Action.sequential_keepsUniform device id) ?_ ?_ ?_
  · intro line text m w hw huniform
    exact ⟨w, hw, huniform, nofun⟩
  · intro line m w hw huniform
    exact ⟨w, hw, huniform, nofun⟩
  · intro α x hx m w hw huniform
    exact hx m.memory w hw huniform
  · intro name _
    exact Memory.keepsUniform_readName name
  · intro name _ v
    exact Memory.keepsUniform_write name v

/-! ### Steps -/

/-- The message of a conflict is longer than all others. -/
theorem ScriptError.length_message_lt {why : ScriptError} (h : ∀ key, why ≠ ambiguousField key) :
    why.message.length < 57 := by
  cases why with
  | ambiguousField key => exact absurd rfl (h key)
  | _ => decide

/-- The message of a conflict is that of no other mistake, nor of a conflict over another field. -/
theorem ScriptError.eq_ambiguousField_of_message {why : ScriptError} {key : String}
    (h : why.message = (ambiguousField key).message) : why = ambiguousField key := by
  have hlong := length_message_ambiguousField key
  rw [← h] at hlong
  have hconflict : ∃ key', why = ambiguousField key' := by
    by_contra hother
    have hshort := length_message_lt (not_exists.1 hother)
    omega
  obtain ⟨key', rfl⟩ := hconflict
  have htext (key : String) : (ambiguousField key).message =
      "Found multiple different values for the name data field '" ++ key ++ "'" := rfl
  rw [htext, htext, String.append_left_inj, String.append_right_inj] at h
  rw [h]

/-- Only a conflict leaves a record with the message of one. -/
theorem Ending.eq_halted_of_record? {α : Type} {ending : Ending α} {r : Record} {key : String}
    (hr : ending.record? = some r) (hkey : r.message = (ScriptError.ambiguousField key).message) :
    ending = .halted (.ambiguousField key) := by
  cases ending with
  | done a => cases hr
  | failed why =>
    cases hr
    exact absurd hkey.symm (ScriptError.message_ne_critical _)
  | halted why =>
    cases hr
    rw [ScriptError.eq_ambiguousField_of_message hkey]

/-- In a uniform world a chip takes a step and leaves a uniform world. It records a conflict only if
devices share a NaN. -/
theorem Chip.Recorded.exists_stepsTo {chip : Chip} {w : World} (h : chip.Recorded)
    (huniform : w.Uniform) :
    ∃ next v, chip.StepsTo w next v ∧ next.Recorded ∧ v.Uniform ∧
      ∀ r ∈ next.errors.get chip.line, ∀ key,
        r.message = (ScriptError.ambiguousField key).message → v.SharesNaN chip.device key := by
  have hsite : (Site.mk chip (some w)).chip.Recorded := h
  rcases Site.step_cases hsite.sound.inRange with ⟨hempty, _⟩ | ⟨l, _, hne, hl, _⟩
  · replace hempty : chip.program.length = 0 := hempty
    refine ⟨chip, w, stepsTo_of_empty hempty w, h, huniform, ?_⟩
    -- The counter of an empty program stands on line one, which has no records.
    have hline : chip.line = (1 : Nat) := by
      have hrange := h.sound.inRange
      simp only [InRange, hempty] at hrange
      omega
    intro r hr
    rw [hline, h.get_eq_nil 1 (by simp [hempty])] at hr
    cases hr
  · obtain ⟨v, hv, hv_uniform, hhalt⟩ := Machine.keepsUniform_executeBlock chip.device
      chip.settings.lineLimit l.runnable ⟨⟨chip.locals, some w⟩, chip.line⟩ w rfl huniform
    have hstep := stepsTo_of_line hne hl hv
    refine ⟨_, v, hstep, ?_, hv_uniform, ?_⟩
    · obtain ⟨t, ht⟩ := hstep
      obtain ⟨r, hr, hrecorded, _⟩ := hsite.step
      cases hr.symm.trans ht
      exact hrecorded
    · intro r hr key hkey
      change r ∈ (Site.takeLine ⟨chip, some w⟩ chip.line l).1.chip.errors.get chip.line at hr
      rw [Site.get_errors_takeLine, if_pos rfl] at hr
      exact hhalt key (Ending.eq_halted_of_record? (ErrorLog.mem_keeping hr) hkey)

/-! ### Turns -/

/-- What happens next in a world of chips: one of them takes a step, or the host writes a field. -/
inductive Turn where
  | step (index : Nat)
  | write (handle : Option String) (field : String) (value : Value)

namespace Fleet

/-- Takes a turn. A write that is refused leaves the world as it is. -/
def take (fleet : Fleet) : Turn → Except LineError Fleet
  | .step index => fleet.step index
  | .write handle field value =>
    .ok { fleet with
      world := fleet.world.map fun w => ((WorldAction.write handle field value).perform w).2.1 }

def play (fleet : Fleet) : List Turn → Except LineError Fleet
  | [] => .ok fleet
  | turn :: rest => do
    let next ← fleet.take turn
    next.play rest

variable {chips : List Chip} {w : World}

/-- A turn succeeds in a uniform world and leaves one behind. -/
theorem exists_take (hchips : ∀ chip ∈ chips, chip.Recorded) (hw : w.Uniform) (turn : Turn) :
    ∃ chips' w', take ⟨chips, some w⟩ turn = .ok ⟨chips', some w'⟩ ∧
      (∀ chip ∈ chips', chip.Recorded) ∧ w'.Uniform := by
  cases turn with
  | step index =>
    cases hindex : chips[index]? with
    | none => exact ⟨chips, w, step_of_none hindex, hchips, hw⟩
    | some chip =>
      obtain ⟨next, v, hstep, hnext, hv, _⟩ :=
        (hchips chip (List.mem_of_getElem? hindex)).exists_stepsTo hw
      refine ⟨_, v, step_of_stepsTo hindex hstep, ?_, hv⟩
      intro chip' hchip'
      rcases List.mem_or_eq_of_mem_set hchip' with hold | rfl
      · exact hchips chip' hold
      · exact hnext
  | write handle field value =>
    refine ⟨chips, _, rfl, hchips, ?_⟩
    simp only [WorldAction.perform]
    split
    · next hwrite => exact hw.write hwrite
    · exact hw

/-- Any number of turns succeeds in a uniform world and leaves one behind. -/
theorem exists_play (hchips : ∀ chip ∈ chips, chip.Recorded) (hw : w.Uniform)
    (turns : List Turn) :
    ∃ chips' w', play ⟨chips, some w⟩ turns = .ok ⟨chips', some w'⟩ ∧
      (∀ chip ∈ chips', chip.Recorded) ∧ w'.Uniform := by
  induction turns generalizing chips w with
  | nil => exact ⟨chips, w, rfl, hchips, hw⟩
  | cons turn rest ih =>
    obtain ⟨chips₁, w₁, htake, hchips₁, hw₁⟩ := exists_take hchips hw turn
    obtain ⟨chips', w', hplay, hlast⟩ := ih hchips₁ hw₁
    refine ⟨chips', w', ?_, hlast⟩
    rw [play, htake]
    exact hplay

end Fleet

/-- Where the devices of each network agree on their fields, whatever chips and host write in
whatever order brings a field into conflict just if two devices hold a NaN in it; and a chip records
such a conflict in its step only if two devices of its network are left with a NaN in the field. -/
theorem only_shared_nan_is_ambiguous {chips : List Chip} {w : World}
    (hchips : ∀ chip ∈ chips, ∃ world, Reachable ⟨chip, world⟩) (hw : w.Settled)
    (turns : List Turn) :
    ∃ chips' w', Fleet.play ⟨chips, some w⟩ turns = .ok ⟨chips', some w'⟩ ∧
      (∀ handle field, (∃ t, w'.read handle field = .ok (.conflicting, t)) ↔
        w'.SharesNaN handle field) ∧
      ∀ chip ∈ chips', ∃ next v, chip.StepsTo w' next v ∧
        ∀ r ∈ next.errors.get chip.line, ∀ key,
          r.message = (ScriptError.ambiguousField key).message → v.SharesNaN chip.device key := by
  have hrecorded : ∀ chip ∈ chips, chip.Recorded := by
    intro chip hchip
    obtain ⟨world, hreachable⟩ := hchips chip hchip
    exact hreachable.recorded
  obtain ⟨chips', w', hplay, hchips', hw'⟩ := Fleet.exists_play hrecorded hw.uniform turns
  refine ⟨chips', w', hplay, hw'.read_conflicting_iff, ?_⟩
  intro chip hchip
  obtain ⟨next, v, hstep, _, _, hconflict⟩ := (hchips' chip hchip).exists_stepsTo hw'
  exact ⟨next, v, hstep, hconflict⟩

/-- A chip that takes the root of a negative number for the depth, and then reads it back. -/
def soundingChip : Chip where
  device := some "east"
  program := ⟨[
    { statements := [.assign ⟨":depth"⟩ "="
        (.keyword "sqrt" (.binary .add "-" (.number "0") (.number "1")))] },
    { statements := [.assign ⟨"echo"⟩ "=" (.name ⟨":Depth"⟩)] }]⟩
  settings := {}
  errors := { maxPerLine := 16 }

/-- Two buoys that know no depth yet. -/
def buoys : World :=
  (World.empty.add (.new "east" [("depth", .int 0)] "sea")).add
    (.new "west" [("Depth", .int 0)] "sea")

theorem reachable_sounding (world : Option World) : Reachable ⟨soundingChip, world⟩ :=
  .start (show Chip.new (some "east") soundingChip.program {} = .ok soundingChip from rfl)

theorem settled_buoys : buoys.Settled := by
  have hzero {network key : String} {v : Value} (hv : v ∈ buoys.exposed network key) :
      v = .int 0 := by
    obtain ⟨d, hd, hfield⟩ := World.mem_exposed hv
    have hdevices : buoys.devices = [.new "east" [("depth", .int 0)] "sea",
        .new "west" [("Depth", .int 0)] "sea"] := rfl
    have hfields : d.fields = (∅ : Fields).insert "depth" (.int 0) := by
      rw [hdevices] at hd
      simp only [List.mem_cons, List.not_mem_nil, or_false] at hd
      rcases hd with rfl | rfl <;> rfl
    rw [hfields, Std.ExtTreeMap.getElem?_insert] at hfield
    split at hfield
    · exact (Option.some.inj hfield).symm
    · simp at hfield
  intro network key u hu v hv
  rw [hzero hu, hzero hv]
  decide +kernel

/-- The root of a negative number is a NaN, and both buoys hold it. -/
theorem buoys_share_nan_after_sounding :
    (∀ chip ∈ [soundingChip], ∃ world, Reachable ⟨chip, world⟩) ∧ buoys.Settled ∧
      ∃ chips w, Fleet.play ⟨[soundingChip], some buoys⟩ [.step 0] = .ok ⟨chips, some w⟩ ∧
        w.SharesNaN (some "west") "DEPTH" ∧
        ∃ t, w.read (some "west") "DEPTH" = .ok (.conflicting, t) := by
  have hchips : ∀ chip ∈ [soundingChip], ∃ world, Reachable ⟨chip, world⟩ := by
    intro chip hchip
    obtain rfl := List.mem_singleton.1 hchip
    exact ⟨none, reachable_sounding none⟩
  refine ⟨hchips, settled_buoys, ?_⟩
  obtain ⟨chips, w, hplay, hread, _⟩ :=
    only_shared_nan_is_ambiguous hchips settled_buoys [.step 0]
  have hcomputed : (Fleet.play ⟨[soundingChip], some buoys⟩ [.step 0]).map
      (fun fleet => fleet.world.map fun w => ((w.resolve (some "west")).map Device.network,
        (w.exposed "sea" "depth").countP Value.isNaN)) = .ok (some (.ok "sea", 2)) := by
    decide +kernel
  rw [hplay] at hcomputed
  obtain ⟨hnetwork, hcount⟩ := Prod.mk.inj (Option.some.inj (Except.ok.inj hcomputed))
  have hshares : w.SharesNaN (some "west") "DEPTH" := by
    refine ⟨"sea", World.joins_iff_network_eq.2 hnetwork, ?_⟩
    have hlower : Text.lower "DEPTH" = "depth" := by decide +kernel
    rw [hlower, hcount]
    decide
  exact ⟨chips, w, hplay, hshares, (hread (some "west") "DEPTH").2 hshares⟩

/-- The buoys agree at first and hold the same after one step, but they are in conflict then, and
the chip records it in its second step. -/
theorem sounding_puts_buoys_in_conflict :
    buoys.Settled ∧ Reachable ⟨soundingChip, some buoys⟩ ∧
      buoys.Registers soundingChip.device ∧
      (Fleet.play ⟨[soundingChip], some buoys⟩ [.step 0]).map (fun fleet =>
        fleet.world.map fun w => (w.read (some "west") "depth").map Prod.fst) =
          .ok (some (.ok .conflicting)) ∧
      (Fleet.play ⟨[soundingChip], some buoys⟩ [.step 0, .step 0]).map (fun fleet =>
        fleet.chips.map (·.errors.get 2)) = .ok [[⟨.error,
          "Found multiple different values for the name data field 'Depth'", none⟩]] :=
  ⟨settled_buoys, reachable_sounding _, by decide +kernel, by decide +kernel, by decide +kernel⟩

end ChipScript
