import Std.Data.ExtTreeMap
import ChipScript.Event
import ChipScript.Text.LowerCase
import ChipScript.Value

/-!
# The world

The world holds devices in the order of their registration. Each device is connected to a network
and holds fields by name, small and capital letters alike. Through its own device a chip sees the
fields of all devices on the same network:

* reading a field that no device exposes finds nothing, one on which all exposing devices agree
  finds the value of the first of them, and one on which they disagree is in conflict;
* writing a field changes it on every exposing device, or creates it on the writing device if there
  is none.

No two devices have the same name: `World` carries the proof.
-/

namespace ChipScript

/-- Values by lower-case name. -/
abbrev Fields := Std.ExtTreeMap String Value

structure Device where
  name : String
  network : String
  fields : Fields

namespace Device

/-- The network of a device that is not given one. -/
def defaultNetwork : String := "default"

/-- A device with initial fields. Of fields whose names differ only in case the last one counts. -/
def new (name : String) (initial : List (String × Value)) (network : String) : Device where
  name := name
  network := network
  fields := initial.foldl (fun fields field => fields.insert (Text.lower field.1) field.2) ∅

/-- The device has the field with a given lower-case key. -/
def exposes (d : Device) (key : String) : Bool :=
  d.fields.contains key

/-- The device with a field changed or created. -/
def put (d : Device) (key : String) (value : Value) : Device :=
  { d with fields := d.fields.insert key value }

end Device

/-- What reading a field finds. -/
inductive FieldRead where
  | missing
  | conflicting
  | found (value : Value)
deriving DecidableEq, Repr

namespace FieldRead

def value? : FieldRead → Option Value
  | found value => some value
  | _ => none

end FieldRead

/-- Devices with different names, in the order of their registration. -/
structure World where
  devices : List Device
  names_nodup : (devices.map Device.name).Nodup

namespace World

def empty : World := ⟨[], List.nodup_nil⟩

def find? (w : World) (name : String) : Option Device :=
  w.devices.find? (·.name = name)

/-- The devices after each of them was changed in a way that keeps its name. -/
def mapDevices (w : World) (f : Device → Device) (h : ∀ d, (f d).name = d.name) : World where
  devices := w.devices.map f
  names_nodup := by
    have : Device.name ∘ f = Device.name := funext h
    simpa [List.map_map, this] using w.names_nodup

/-- Replaces the device of the same name, which keeps its place, or registers a new one. -/
def add (w : World) (device : Device) : World :=
  if h : device.name ∈ w.devices.map Device.name then
    w.mapDevices (fun d => if d.name = device.name then device else d) (by
      intro d
      by_cases hd : d.name = device.name <;> simp [hd])
  else
    { devices := w.devices ++ [device]
      names_nodup := by
        rw [List.map_append, List.nodup_append]
        refine ⟨w.names_nodup, by simp, ?_⟩
        rintro a ha b hb rfl
        simp only [List.map_cons, List.map_nil, List.mem_singleton] at hb
        exact h (hb ▸ ha) }

def register (w : World) (device : Device) : World × Trace :=
  (w.add device, [.deviceAdded device.name device.network device.fields.size])

/-- The device that a handle stands for; no handle stands for no device. -/
def resolve (w : World) (handle : Option String) : Except DeviceError Device :=
  match handle.bind w.find? with
  | some d => .ok d
  | none => .error { device := handle.getD "None" }

def remove (w : World) (handle : Option String) : Except DeviceError World := do
  let device ← w.resolve handle
  return {
    devices := w.devices.filter fun d => d.name ≠ device.name
    names_nodup := (List.filter_sublist.map _).nodup w.names_nodup }

/-- The values of a field on a network, in the order of the devices that expose it. -/
def exposed (w : World) (network key : String) : List Value :=
  (w.devices.filter (·.network = network)).filterMap (·.fields[key]?)

/-- The values of a list without those that equal an earlier one. -/
def distinct (values : List Value) : List Value :=
  values.foldl (fun seen v => if seen.any (v.equal ·) then seen else seen ++ [v]) []

def read (w : World) (handle : Option String) (field : String) :
    Except DeviceError (FieldRead × Trace) := do
  let reader ← w.resolve handle
  match distinct (w.exposed reader.network (Text.lower field)) with
  | [] => return (.missing, [])
  | [v] => return (.found v, [])
  | values => return (.conflicting, [.fieldConflict field values.length reader.network])

/-- The world after a value was written to the field of a network: on every device that exposes it,
or on the writer if there is none. -/
def put (w : World) (writer : Device) (key : String) (value : Value) : World :=
  let isTarget (d : Device) : Bool :=
    if w.devices.any (fun e => e.network = writer.network && e.exposes key) then
      d.network = writer.network && d.exposes key
    else d.name = writer.name
  w.mapDevices (fun d => if isTarget d then d.put key value else d) (by
    intro d
    by_cases h : isTarget d <;> simp [h, Device.put])

def write (w : World) (handle : Option String) (field : String) (value : Value) :
    Except DeviceError World := do
  let writer ← w.resolve handle
  return w.put writer (Text.lower field) value

end World

end ChipScript
