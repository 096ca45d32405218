import ChipScript.Proofs.Actions

/-!
# Facts about worlds

What a handle stands for survives every change that keeps the names of the devices
(`resolve_mapDevices`), and what a read finds is a value that some device holds (`read_found`).
-/

namespace ChipScript

namespace World

/-! ### Devices and handles -/

/-- The handle stands for a device of the world. -/
def Registers (w : World) (handle : Option String) : Prop :=
  ∃ d, w.resolve handle = .ok d

instance (w : World) (handle : Option String) : Decidable (w.Registers handle) :=
  match h : w.resolve handle with
  | .ok d => .isTrue ⟨d, h⟩
  | .error why => .isFalse fun ⟨d, hd⟩ => by cases h.symm.trans hd

/-- A device is found after devices were changed as it is found before. -/
theorem find?_mapDevices (w : World) (f : Device → Device) (h : ∀ d, (f d).name = d.name)
    (name : String) : (w.mapDevices f h).find? name = (w.find? name).map f := by
  show (w.devices.map f).find? _ = (w.devices.find? _).map f
  rw [List.find?_map]
  congr 2
  funext d
  simp [h d]

theorem resolve_mapDevices (w : World) (f : Device → Device) (h : ∀ d, (f d).name = d.name)
    (handle : Option String) : (w.mapDevices f h).resolve handle = (w.resolve handle).map f := by
  cases handle with
  | none => rfl
  | some name =>
    unfold resolve
    rw [Option.bind_some, Option.bind_some, find?_mapDevices]
    cases w.find? name <;> rfl

theorem registers_mapDevices {w : World} {handle : Option String} (hw : w.Registers handle)
    (f : Device → Device) (h : ∀ d, (f d).name = d.name) :
    (w.mapDevices f h).Registers handle := by
  obtain ⟨d, hd⟩ := hw
  exact ⟨f d, by rw [resolve_mapDevices, hd]; rfl⟩

/-- A device that a write to a field changes: one of those on the network of the writer that expose
the field, or the writer itself if there is none. -/
def isTarget (w : World) (writer : Device) (key : String) (d : Device) : Bool :=
  if w.devices.any (fun e => e.network = writer.network && e.exposes key) then
    d.network = writer.network && d.exposes key
  else d.name = writer.name

/-- A device after a write: the targets have the value, and all others are as before. -/
def written (w : World) (writer : Device) (key : String) (value : Value) (d : Device) : Device :=
  if w.isTarget writer key d then d.put key value else d

theorem name_written (w : World) (writer : Device) (key : String) (value : Value) (d : Device) :
    (w.written writer key value d).name = d.name := by
  unfold written
  split <;> rfl

theorem put_eq_mapDevices (w : World) (writer : Device) (key : String) (value : Value) :
    w.put writer key value =
      w.mapDevices (w.written writer key value) (w.name_written writer key value) :=
  rfl

/-- A write to a handle that stands for a device is a put of that device. -/
theorem write_of_resolve {w : World} {handle : Option String} {writer : Device}
    (h : w.resolve handle = .ok writer) (field : String) (value : Value) :
    w.write handle field value = .ok (w.put writer (Text.lower field) value) := by
  rw [write, h]
  rfl

/-- A write fails only for a handle that stands for no device, and it removes no device. -/
theorem write_of_registers {w : World} {handle : Option String} (hw : w.Registers handle)
    (field : String) (value : Value) :
    ∃ w', w.write handle field value = .ok w' ∧ w'.Registers handle := by
  obtain ⟨writer, hwriter⟩ := hw
  refine ⟨w.put writer (Text.lower field) value, write_of_resolve hwriter field value, ?_⟩
  rw [put_eq_mapDevices]
  exact registers_mapDevices ⟨writer, hwriter⟩ _ _

/-- A write that succeeds is such a put. -/
theorem write_eq_ok {w w' : World} {handle : Option String} {field : String} {value : Value}
    (h : w.write handle field value = .ok w') :
    ∃ writer, w.resolve handle = .ok writer ∧ w' = w.put writer (Text.lower field) value := by
  obtain ⟨writer, hwriter, hw'⟩ := exists_of_bind_eq_ok h
  exact ⟨writer, hwriter, (Except.ok.inj hw').symm⟩

/-! ### Reading -/

/-- What a read makes of the different values of a field. -/
def classify (field network : String) : List Value → FieldRead × Trace
  | [] => (.missing, [])
  | [v] => (.found v, [])
  | values => (.conflicting, [.fieldConflict field values.length network])

/-- A read finds what is exposed on the network of the reader. -/
theorem read_of_resolve {w : World} {handle : Option String} {reader : Device}
    (h : w.resolve handle = .ok reader) (field : String) :
    w.read handle field = .ok (classify field reader.network
      (distinct (w.exposed reader.network (Text.lower field)))) := by
  rw [read, h]
  simp only [bind, Except.bind, classify]
  cases distinct (w.exposed reader.network (Text.lower field)) with
  | nil => rfl
  | cons v rest => cases rest <;> rfl

theorem read_eq_ok {w : World} {handle : Option String} {field : String} {r : FieldRead × Trace}
    (h : w.read handle field = .ok r) :
    ∃ reader, w.resolve handle = .ok reader ∧ r = classify field reader.network
      (distinct (w.exposed reader.network (Text.lower field))) := by
  obtain ⟨reader, hreader, _⟩ := exists_of_bind_eq_ok h
  rw [read_of_resolve hreader] at h
  exact ⟨reader, hreader, (Except.ok.inj h).symm⟩

/-- The distinct values are among the values. -/
theorem mem_of_mem_distinct {values : List Value} {v : Value} (h : v ∈ distinct values) :
    v ∈ values := by
  -- The values kept so far come from those already passed.
  have aux : ∀ (rest seen : List Value),
      v ∈ rest.foldl (fun seen u => if seen.any (u.equal ·) then seen else seen ++ [u]) seen →
        v ∈ seen ∨ v ∈ rest := by
    intro rest
    induction rest with
    | nil => exact fun seen hv => .inl hv
    | cons u rest ih =>
      intro seen hv
      rcases ih _ hv with hv | hv
      · dsimp only at hv
        split at hv
        · exact .inl hv
        · rcases List.mem_append.1 hv with hv | hv
          · exact .inl hv
          · exact .inr (List.mem_cons.2 (.inl (List.mem_singleton.1 hv)))
      · exact .inr (List.mem_cons_of_mem u hv)
  rcases aux values [] h with h | h
  · cases h
  · exact h

/-- An exposed value is one of a device. -/
theorem mem_exposed {w : World} {network key : String} {v : Value}
    (h : v ∈ w.exposed network key) : ∃ d ∈ w.devices, d.fields[key]? = some v := by
  obtain ⟨d, hd, hv⟩ := List.mem_filterMap.1 h
  exact ⟨d, (List.mem_filter.1 hd).1, hv⟩

/-- What a read finds, some device holds. -/
theorem read_found {w : World} {handle : Option String} {field : String} {v : Value} {t : Trace}
    (h : w.read handle field = .ok (.found v, t)) :
    ∃ d ∈ w.devices, d.fields[Text.lower field]? = some v := by
  obtain ⟨reader, _, hr⟩ := read_eq_ok h
  have hmem : v ∈ distinct (w.exposed reader.network (Text.lower field)) := by
    unfold classify at hr
    split at hr <;> cases hr
    next hone => rw [hone]; exact List.mem_singleton.2 rfl
  exact mem_exposed (mem_of_mem_distinct hmem)

end World

/-- Reading changes nothing. -/
theorem Memory.state_read (device : Option String) (name : Name) (m : Memory) :
    (Memory.read device name m).state = m := by
  unfold Memory.read
  split
  · rfl
  · rfl
  · split <;> rfl

end ChipScript
