import Mathlib.Data.List.DropRight
import ChipScript.CommandLine
import ChipScript.Proofs.Networks

/-!
# Fields from the command line

A command creates one device, with the fields that its options give. The options are gathered under
their names first, as these are spelled, and the names are put into lower case only then. What is
gathered stays where its name was first given (`Members.names_ofPairs`). So between two spellings of
a field the one that came up last counts, with the last value that was given to it
(`fields_deviceOf`). That is the last value that was given to the field in any spelling, as long as
no option goes back to an earlier one (`EndsInLatestSpelling`, `fields_deviceOf_of_latest`).

Fields that a chip writes one after another always have the last value that was written
(`World.writeAll_of_alone`, `fields_putAll_bareDevice`).

The options are the texts that were given for fields, in order. Each of them that is taken gives one
field (`forall₂_of_fieldsOf`).
-/

namespace ChipScript

/-! ### The last of several values -/

/-- The last value that is given to a name of some kind. -/
def lastOf {α : Type} (p : String → Bool) (pairs : List (String × α)) : Option α :=
  (pairs.filter fun pair => p pair.1).getLast?.map Prod.snd

section

variable {α μ : Type} {p : String → Bool}

theorem lastOf_cons (pair : String × α) (rest : List (String × α)) :
    lastOf p (pair :: rest) = (lastOf p rest).or (if p pair.1 then some pair.2 else none) := by
  unfold lastOf
  rw [List.filter_cons]
  split
  · rw [List.getLast?_cons]
    cases (rest.filter fun pair => p pair.1).getLast? <;> rfl
  · rw [Option.or_none]

/-- What is put piece by piece under names of which those of one kind go to one place is read there
as the last value that was put. -/
theorem read_foldl (read : μ → Option α) {put : μ → String × α → μ}
    (h : ∀ m pair, read (put m pair) = if p pair.1 then some pair.2 else read m)
    (pairs : List (String × α)) (m : μ) :
    read (pairs.foldl put m) = (lastOf p pairs).or (read m) := by
  induction pairs generalizing m with
  | nil => rfl
  | cons pair rest ih =>
    rw [List.foldl_cons, ih, h, lastOf_cons, Option.or_assoc]
    split <;> rfl

/-- There is a last one if there is any. -/
theorem exists_lastOf_iff {pairs : List (String × α)} :
    (∃ v, lastOf p pairs = some v) ↔ ∃ pair ∈ pairs, p pair.1 = true := by
  rw [← Option.ne_none_iff_exists', lastOf, ne_eq, Option.map_eq_none_iff,
    List.getLast?_eq_none_iff, List.filter_eq_nil_iff]
  simp

/-- The name of the last pair of a kind has its last value where that pair has it. -/
theorem lastOf_eq_of_getLast? {pairs : List (String × α)} {name : String}
    (h : ((pairs.map Prod.fst).filter p).getLast? = some name) :
    lastOf (· = name) pairs = lastOf p pairs := by
  rw [List.filter_map, List.getLast?_map, List.getLast?_filter, Option.map_eq_some_iff] at h
  obtain ⟨pair, hfind, rfl⟩ := h
  obtain ⟨hpair, before, after, hsplit, hbefore⟩ := List.find?_eq_some_iff_append.1 hfind
  -- From the end, the first pair of the kind is also the first one of its name.
  have hname : pairs.reverse.find? (fun other => decide (other.1 = pair.1)) = some pair := by
    refine List.find?_eq_some_iff_append.2 ⟨by simp, before, after, hsplit, fun other hother => ?_⟩
    have hother := hbefore other hother
    by_contra hsame
    simp only [Bool.not_eq_true', decide_eq_false_iff_not, not_not] at hsame
    simp_all
  rw [lastOf, lastOf, List.getLast?_filter, List.getLast?_filter, hname]
  exact congrArg (Option.map Prod.snd) hfind.symm

end

namespace Members

variable {α : Type}

/-- Under each name stands the last value that it was given. -/
theorem lookup_ofPairs (pairs : List (String × α)) (name : String) :
    (ofPairs pairs).lookup name = lastOf (· = name) pairs := by
  have hput (members : List (String × α)) (pair : String × α) :
      (put pair.1 pair.2 members).lookup name =
        if decide (pair.1 = name) = true then some pair.2 else members.lookup name := by
    rw [lookup_put]
    by_cases h : pair.1 = name
    · simp [h]
    · simp [h, Ne.symm h]
  have hread : (ofPairs pairs).lookup name = (lastOf (· = name) pairs).or none :=
    read_foldl (fun members => members.lookup name) hput pairs []
  rw [hread, Option.or_none]

/-- A put keeps the place of a name that is there and adds any other at the end. -/
theorem names_put (name : String) (value : α) (members : List (String × α)) :
    (put name value members).map Prod.fst =
      if name ∈ members.map Prod.fst then members.map Prod.fst
      else members.map Prod.fst ++ [name] := by
  induction members with
  | nil => rfl
  | cons member rest ih =>
    obtain ⟨n, v⟩ := member
    by_cases hn : n = name
    · simp [put, hn]
    · have hne : name ≠ n := Ne.symm hn
      simp only [put, if_neg hn, List.map_cons, ih, List.mem_cons, hne, false_or]
      split <;> rfl

theorem ofPairs_concat (pairs : List (String × α)) (pair : String × α) :
    ofPairs (pairs ++ [pair]) = put pair.1 pair.2 (ofPairs pairs) := by
  rw [ofPairs, List.foldl_concat]
  rfl

/-- The names stand in the order in which each was first given. -/
theorem names_ofPairs (pairs : List (String × α)) :
    (ofPairs pairs).map Prod.fst = (pairs.map Prod.fst).eraseDups := by
  induction pairs using List.reverseRecOn with
  | nil => rfl
  | append_singleton pairs pair ih =>
    rw [ofPairs_concat, names_put, ih, List.map_append, List.eraseDups_append]
    split <;> simp_all [List.removeAll, List.eraseDups_cons]

/-- No two members have the same name. -/
theorem nodup_names_ofPairs (pairs : List (String × α)) :
    ((ofPairs pairs).map Prod.fst).Nodup := by
  induction pairs using List.reverseRecOn with
  | nil => exact List.nodup_nil
  | append_singleton pairs pair ih =>
    rw [ofPairs_concat, names_put]
    split
    · exact ih
    · next hnew =>
      refine List.nodup_append.2 ⟨ih, by simp, ?_⟩
      rintro _ hn _ hm rfl
      exact hnew (List.mem_singleton.1 hm ▸ hn)

theorem lookup_of_mem {members : List (String × α)} (hnodup : (members.map Prod.fst).Nodup)
    {name : String} {value : α} (h : (name, value) ∈ members) :
    members.lookup name = some value := by
  induction members with
  | nil => cases h
  | cons member rest ih =>
    obtain ⟨n, v⟩ := member
    obtain ⟨hn, hrest⟩ := List.nodup_cons.1 hnodup
    rcases List.mem_cons.1 h with heq | hmem
    · cases heq
      exact List.lookup_cons_self
    · have hne : name ≠ n := by
        rintro rfl
        exact hn (List.mem_map.2 ⟨_, hmem, rfl⟩)
      rw [List.lookup_cons, beq_eq_false_iff_ne.2 hne]
      exact ih hrest hmem

/-- Of members with different names the last one of a kind is that under the last name of the
kind. -/
theorem lastOf_eq_bind {members : List (String × α)} (hnodup : (members.map Prod.fst).Nodup)
    (p : String → Bool) :
    lastOf p members =
      ((members.map Prod.fst).filter p).getLast?.bind fun name => members.lookup name := by
  rw [lastOf, List.filter_map, List.getLast?_map]
  show ((members.filter (p ∘ Prod.fst)).getLast?.map Prod.snd) = _
  cases h : (members.filter (p ∘ Prod.fst)).getLast? with
  | none => rfl
  | some member =>
    have hmem := (List.mem_filter.1 (List.mem_of_getLast? h)).1
    exact (lookup_of_mem hnodup hmem).symm

end Members

/-! ### Fields of devices -/

namespace Device

variable {key : String}

/-- The device after its own fields were written one after another. -/
def putAll (d : Device) (options : List (String × Value)) : Device :=
  options.foldl (fun d option => d.put (Text.lower option.1) option.2) d

/-- Of several values for a field the last one counts. -/
theorem fields_putAll (d : Device) (options : List (String × Value)) (key : String) :
    (d.putAll options).fields[key]? =
      (lastOf (Text.lower · = key) options).or d.fields[key]? := by
  have hput (d : Device) (option : String × Value) :
      (d.put (Text.lower option.1) option.2).fields[key]? =
        if decide (Text.lower option.1 = key) = true then some option.2 else d.fields[key]? := by
    rw [put, Std.ExtTreeMap.getElem?_insert]
    simp
  exact read_foldl (fun d : Device => d.fields[key]?) hput options d

theorem putAll_eq (d : Device) (options : List (String × Value)) : d.putAll options =
    { d with fields := options.foldl (fun fields option =>
        fields.insert (Text.lower option.1) option.2) d.fields } := by
  induction options generalizing d with
  | nil => rfl
  | cons option rest ih => exact ih (d.put (Text.lower option.1) option.2)

/-- A device has its fields put one after another. -/
theorem new_eq_putAll (name : String) (initial : List (String × Value)) (network : String) :
    new name initial network = (new name [] network).putAll initial := by
  rw [putAll_eq]
  rfl

theorem putAll_congr {d : Device} {options options' : List (String × Value)}
    (h : ∀ key : String, (d.putAll options).fields[key]? = (d.putAll options').fields[key]?) :
    d.putAll options = d.putAll options' := by
  have hfields : (d.putAll options).fields = (d.putAll options').fields :=
    Std.ExtTreeMap.ext_getElem? fun {key} => h key
  rw [putAll_eq d options, putAll_eq d options'] at hfields ⊢
  exact congrArg (fun fields => { d with fields }) hfields

end Device

namespace World

/-- The world after fields were written from a device one after another. -/
def writeAll (w : World) (handle : Option String) (options : List (String × Value)) :
    Except DeviceError World :=
  options.foldlM (fun w option => w.write handle option.1 option.2) w

/-- A device that is alone in the world keeps what it writes to itself. -/
theorem write_of_alone {w : World} {d : Device} (h : w.devices = [d]) (field : String)
    (value : Value) :
    ∃ w', w.write (some d.name) field value = .ok w' ∧
      w'.devices = [d.put (Text.lower field) value] := by
  have hresolve : w.resolve (some d.name) = .ok d := by
    simp [resolve, find?, h]
  refine ⟨_, write_of_resolve hresolve field value, ?_⟩
  show w.devices.map (w.written d (Text.lower field) value) = _
  have htarget : w.isTarget d (Text.lower field) d = true := by
    unfold isTarget
    cases hexposes : d.exposes (Text.lower field) <;> simp [h, hexposes]
  rw [h, List.map_singleton, written, if_pos htarget]

/-- Writing options one after another to a device that is alone puts them there. -/
theorem writeAll_of_alone {w : World} {d : Device} (h : w.devices = [d])
    (options : List (String × Value)) :
    ∃ w', w.writeAll (some d.name) options = .ok w' ∧ w'.devices = [d.putAll options] := by
  induction options generalizing w d with
  | nil => exact ⟨w, rfl, h⟩
  | cons option rest ih =>
    obtain ⟨w₁, hwrite, hdevices⟩ := write_of_alone h option.1 option.2
    obtain ⟨w', hrest, hdevices'⟩ := ih hdevices
    refine ⟨w', ?_, hdevices'⟩
    rw [writeAll, List.foldlM_cons, hwrite]
    exact hrest

end World

/-! ### Options -/

namespace CommandLine

/-- The names among some options that are a field's in one spelling or another, in the order in
which each was first given. -/
def spellings (options : List (String × Value)) (key : String) : List String :=
  (options.map Prod.fst).eraseDups.filter (Text.lower · = key)

/-- The last option for a field spells it in the way that came up last. -/
def EndsInLatestSpelling (options : List (String × Value)) (key : String) : Prop :=
  ((options.map Prod.fst).filter (Text.lower · = key)).getLast? = (spellings options key).getLast?

/-- An option that is taken for a field: the name is what stands before the equals sign, without a
colon in front. -/
def Gives (option : String) (field : String × Value) : Prop :=
  ∃ name, Assignment.parse? option = some (name, field.2) ∧
    field.1 = Assignment.fieldName name ∧ field.1 ≠ ""

section

variable (inv : Invocation) (key : String)

/-- The device of a command, before it has any fields. -/
def bareDevice : Device :=
  Device.new inv.device [] Device.defaultNetwork

def deviceOf : Device :=
  Device.new inv.device (Members.ofPairs inv.fields) Device.defaultNetwork

theorem deviceOf_eq_putAll : deviceOf inv = (bareDevice inv).putAll (Members.ofPairs inv.fields) :=
  Device.new_eq_putAll _ _ _

/-- What is written to the bare device is all that it has. -/
theorem fields_putAll_bareDevice (options : List (String × Value)) :
    ((bareDevice inv).putAll options).fields[key]? = lastOf (Text.lower · = key) options := by
  have hbare : (bareDevice inv).fields[key]? = none := Std.ExtTreeMap.getElem?_empty
  rw [Device.fields_putAll, hbare, Option.or_none]

/-- A field has the last value of its latest spelling. Spellings come in the order of their first
options. -/
theorem fields_deviceOf :
    (deviceOf inv).fields[key]? =
      (spellings inv.fields key).getLast?.bind fun name => lastOf (· = name) inv.fields := by
  rw [deviceOf_eq_putAll, fields_putAll_bareDevice,
    Members.lastOf_eq_bind (Members.nodup_names_ofPairs _), Members.names_ofPairs]
  simp only [Members.lookup_ofPairs]
  rfl

/-- A device shows the fields that are named in any spelling. -/
theorem exposes_deviceOf :
    (deviceOf inv).exposes key = true ↔ ∃ field ∈ inv.fields, Text.lower field.1 = key := by
  have hnames (pairs : List (String × Value)) : (∃ pair ∈ pairs, Text.lower pair.1 = key) ↔
      ∃ name ∈ pairs.map Prod.fst, Text.lower name = key := by
    simp
  rw [World.exposes_eq_true, deviceOf_eq_putAll, fields_putAll_bareDevice, exists_lastOf_iff]
  simp only [decide_eq_true_eq]
  rw [hnames, hnames, Members.names_ofPairs]
  simp only [List.mem_eraseDups]

/-- Where the last option spells a field in the way that came up last, it gives the value. -/
theorem fields_deviceOf_of_latest {key : String} (h : EndsInLatestSpelling inv.fields key) :
    (deviceOf inv).fields[key]? = lastOf (Text.lower · = key) inv.fields := by
  rw [fields_deviceOf, ← h]
  cases hlast : ((inv.fields.map Prod.fst).filter (Text.lower · = key)).getLast? with
  | some name => exact lastOf_eq_of_getLast? hlast
  | none =>
    rw [List.filter_map, List.getLast?_map, Option.map_eq_none_iff] at hlast
    exact (congrArg (Option.map Prod.snd) hlast).symm

end

theorem forall₂_of_mapM {α β ε : Type} {f : α → Except ε β} {xs : List α} {ys : List β}
    (h : xs.mapM f = .ok ys) : List.Forall₂ (fun x y => f x = .ok y) xs ys := by
  induction xs generalizing ys with
  | nil =>
    cases h
    exact .nil
  | cons x xs ih =>
    rw [List.mapM_cons] at h
    obtain ⟨y, hy, h⟩ := exists_of_bind_eq_ok h
    obtain ⟨rest, hrest, h⟩ := exists_of_bind_eq_ok h
    cases h
    exact .cons hy (ih hrest)

/-- Every option gives one name and one value, in order. -/
theorem forall₂_of_fieldsOf {values : List String} {fields : List (String × Value)}
    (h : fieldsOf values = .ok fields) : List.Forall₂ Gives values fields := by
  obtain ⟨assignments, hassignments, hfields⟩ := exists_of_bind_eq_ok h
  have hparsed := forall₂_of_mapM hassignments
  have hnamed := forall₂_of_mapM hfields
  clear h hassignments hfields
  induction hparsed generalizing fields with
  | nil =>
    cases hnamed
    exact .nil
  | @cons option assignment values assignments hoption _ ih =>
    cases hnamed with
    | @cons _ field _ fields hfield hrest =>
      obtain ⟨name, value⟩ := assignment
      refine .cons ⟨name, ?_⟩ (ih hrest)
      dsimp only at hoption hfield
      split at hfield
      · cases hfield
      · next hname =>
        cases hfield
        refine ⟨?_, rfl, by simpa using hname⟩
        split at hoption
        · next hparse => rw [hparse, Except.ok.inj hoption]
        · cases hoption

/-- Each field of the device that a command creates has the last value that was given to it in the
spelling that came up last. That is the last value that was given to it at all, unless the last
option goes back to an earlier spelling; writing the fields one after another always ends with the
latter. -/
theorem seeded_fields_follow_latest_spelling {options : List String} {inv : Invocation}
    (h : fieldsOf options = .ok inv.fields) :
    List.Forall₂ Gives options inv.fields ∧
    ∃ device, (worldOf inv).1.devices = [device] ∧ device.name = inv.device ∧
      (∀ key, device.exposes key = true ↔ ∃ field ∈ inv.fields, Text.lower field.1 = key) ∧
      (∀ key : String, device.fields[key]? =
        (spellings inv.fields key).getLast?.bind fun name => lastOf (· = name) inv.fields) ∧
      (∀ key, EndsInLatestSpelling inv.fields key →
        device.fields[key]? = lastOf (Text.lower · = key) inv.fields) ∧
      ∃ w written,
        (World.empty.add (bareDevice inv)).writeAll (some inv.device) inv.fields = .ok w ∧
        w.devices = [written] ∧
        (∀ key : String, written.fields[key]? = lastOf (Text.lower · = key) inv.fields) ∧
        ((∀ key, EndsInLatestSpelling inv.fields key) → written = device) := by
  refine ⟨forall₂_of_fieldsOf h, deviceOf inv, rfl, rfl, exposes_deviceOf inv,
    fields_deviceOf inv, fun _ => fields_deviceOf_of_latest inv, ?_⟩
  have halone : (World.empty.add (bareDevice inv)).devices = [bareDevice inv] := rfl
  obtain ⟨w, hwrite, hw⟩ := World.writeAll_of_alone halone inv.fields
  have hwritten := fields_putAll_bareDevice inv
  refine ⟨w, (bareDevice inv).putAll inv.fields, hwrite, hw, fun key => hwritten key _, ?_⟩
  intro hall
  rw [deviceOf_eq_putAll]
  refine Device.putAll_congr fun key => ?_
  rw [hwritten, ← fields_deviceOf_of_latest inv (hall key), deviceOf_eq_putAll]

def doorRun (fields : List (String × Value)) : Invocation where
  path := "door.json"
  bytes := [91, 93]
  fields := fields

/-- Three options end in the latest spelling of both their fields. -/
theorem lamp_follows_latest_spelling :
    fieldsOf ["Lamp=1", ":lamp=2", "door=7"] =
      .ok [("Lamp", .int 1), ("lamp", .int 2), ("door", .int 7)] ∧
    EndsInLatestSpelling [("Lamp", .int 1), ("lamp", .int 2), ("door", .int 7)] "lamp" ∧
    ∃ device, (worldOf (doorRun [("Lamp", .int 1), ("lamp", .int 2), ("door", .int 7)])).1.devices =
      [device] ∧ device.fields["lamp"]? = some (.int 2) := by
  have hoptions : fieldsOf ["Lamp=1", ":lamp=2", "door=7"] =
      .ok (doorRun [("Lamp", .int 1), ("lamp", .int 2), ("door", .int 7)]).fields := by
    decide +kernel
  have hlamp : EndsInLatestSpelling [("Lamp", .int 1), ("lamp", .int 2), ("door", .int 7)]
      "lamp" := by
    unfold EndsInLatestSpelling
    decide +kernel
  obtain ⟨_, device, hdevice, _, _, _, hlatest, _⟩ := seeded_fields_follow_latest_spelling hoptions
  refine ⟨hoptions, hlamp, device, hdevice, ?_⟩
  rw [hlatest "lamp" hlamp]
  decide +kernel

/-- The last of three options for one field goes back to the first spelling, and the field has the
value that was given to it in the second. -/
theorem earlier_spelling_loses_to_latest :
    fieldsOf ["door=1", "Door=2", "door=3"] =
      .ok [("door", .int 1), ("Door", .int 2), ("door", .int 3)] ∧
    ∃ device, (worldOf (doorRun [("door", .int 1), ("Door", .int 2), ("door", .int 3)])).1.devices =
      [device] ∧ device.fields["door"]? = some (.int 2) ∧
      lastOf (Text.lower · = "door") [("door", .int 1), ("Door", .int 2), ("door", .int 3)] =
        some (Value.int 3) :=
  ⟨by decide +kernel, _, rfl, by decide +kernel, by decide +kernel⟩

end CommandLine

end ChipScript
