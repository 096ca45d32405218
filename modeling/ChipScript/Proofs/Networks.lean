import ChipScript.Proofs.Footprint
import ChipScript.Proofs.Host

/-!
# Reading what was written

A write reaches every device of the network that exposes the field, or creates the field on the
writer. Either way the values of the field on the network are afterwards as many copies of the
written value as there were exposing devices, and one copy if there was none (`exposed_put_same`);
the values of every other field, and of the same field on other networks, are as before
(`exposed_put_other`). What a read finds depends on these values only (`read_eq_of_exposed_eq`). So
a written value is read back wherever the field is seen, unless it is a NaN, which agrees with
nothing, not even with itself.
-/

namespace ChipScript

/-! ### Equality of values -/

def Value.isNaN : Value → Bool
  | num a => a.isNaN
  | text _ => false

/-- Whatever is no NaN equals itself. -/
theorem Binary64.Exact.compare?_self {x : Binary64.Exact} (h : x ≠ .nan) :
    x.compare? x = some .eq := by
  cases x with
  | nan => exact absurd rfl h
  | finite u => simp [compare?]
  | negInfinity => rfl
  | infinity => rfl

/-- All values but the NaNs equal themselves. -/
theorem Value.equal_self {v : Value} (h : v.isNaN = false) : v.equal v = true := by
  cases v with
  | text s => simp [equal]
  | num a =>
    have ha : a.exact ≠ .nan := by simpa [isNaN, Number.isNaN] using h
    simp [equal, Number.equal, Number.compare?, Binary64.Exact.compare?_self ha]

namespace World

/-! ### What a write leaves exposed -/

variable {w : World} {writer d : Device} {network key : String}

theorem exposes_eq_true : d.exposes key = true ↔ ∃ v, d.fields[key]? = some v := by
  rw [Device.exposes, Std.ExtTreeMap.contains_eq_isSome_getElem?, Option.isSome_iff_exists]

theorem exposes_eq_false : d.exposes key = false ↔ d.fields[key]? = none := by
  rw [Device.exposes, Std.ExtTreeMap.contains_eq_isSome_getElem?, Option.isSome_eq_false_iff,
    Option.isNone_iff_eq_none]

/-- What a device adds to the values of a field on a network. -/
def offer (network key : String) (d : Device) : Option Value :=
  if d.network = network then d.fields[key]? else none

/-- What is exposed is what the devices offer, one after another. -/
theorem exposed_eq_filterMap (w : World) (network key : String) :
    w.exposed network key = w.devices.filterMap (offer network key) := by
  unfold exposed
  rw [List.filterMap_filter]
  congr 1
  funext d
  simp [offer]

def isExposed (w : World) (network key : String) : Bool :=
  w.devices.any fun d => d.network = network && d.exposes key

/-- If the field is exposed on the network, a write goes to all devices that show it. -/
theorem isTarget_of_isExposed (h : w.isExposed writer.network key = true) (d : Device) :
    w.isTarget writer key d = (decide (d.network = writer.network) && d.exposes key) :=
  if_pos h

/-- A field that no device of the network exposes is written at the writer only. -/
theorem isTarget_of_not_isExposed (h : w.isExposed writer.network key = false) (d : Device) :
    w.isTarget writer key d = decide (d.name = writer.name) :=
  if_neg (Bool.eq_false_iff.1 h)

theorem offer_eq_none_of_not_isExposed (h : w.isExposed network key = false)
    (hd : d ∈ w.devices) : offer network key d = none := by
  have hnot := List.any_eq_false.1 h d hd
  unfold offer
  split
  · next hn => simpa [hn, exposes_eq_false] using hnot
  · rfl

theorem exposed_eq_nil_of_not_isExposed (h : w.isExposed network key = false) :
    w.exposed network key = [] := by
  rw [exposed_eq_filterMap, List.filterMap_eq_nil_iff]
  exact fun d hd => offer_eq_none_of_not_isExposed h hd

theorem length_exposed_pos_of_isExposed (h : w.isExposed network key = true) :
    0 < (w.exposed network key).length := by
  obtain ⟨d, hd, hexposes⟩ := List.any_eq_true.1 h
  simp only [Bool.and_eq_true, decide_eq_true_eq] at hexposes
  obtain ⟨v, hv⟩ := exposes_eq_true.1 hexposes.2
  have hoffer : offer network key d = some v := by rw [offer, if_pos hexposes.1, hv]
  rw [exposed_eq_filterMap]
  exact List.length_pos_of_mem (List.mem_filterMap.2 ⟨d, hd, hoffer⟩)

theorem network_written (w : World) (writer : Device) (key : String) (v : Value) (d : Device) :
    (w.written writer key v d).network = d.network := by
  unfold written
  split <;> rfl

/-- What is exposed after a write is offered by the devices as they were written. -/
theorem exposed_put (w : World) (writer : Device) (key : String) (v : Value)
    (network key' : String) :
    (w.put writer key v).exposed network key' =
      w.devices.filterMap fun d => offer network key' (w.written writer key v d) := by
  rw [exposed_eq_filterMap]
  show (w.devices.map (w.written writer key v)).filterMap _ = _
  rw [List.filterMap_map]
  rfl

/-- Where the field is exposed, a write replaces each of its values. -/
theorem exposed_put_of_isExposed (h : w.isExposed writer.network key = true) (v : Value) :
    (w.put writer key v).exposed writer.network key =
      (w.exposed writer.network key).map fun _ => v := by
  rw [exposed_put, exposed_eq_filterMap, List.map_filterMap]
  congr 1
  funext d
  rw [offer, offer, network_written, written, isTarget_of_isExposed h]
  by_cases hn : d.network = writer.network
  · cases hd : d.exposes key with
    | false => simp [hn, exposes_eq_false.1 hd]
    | true =>
      obtain ⟨u, hu⟩ := exposes_eq_true.1 hd
      simp [hn, hu, Device.put]
  · simp [hn]

/-- Where no device exposes the field, a write creates it on the writer. -/
theorem exposed_put_of_not_isExposed (hwriter : writer ∈ w.devices)
    (h : w.isExposed writer.network key = false) (v : Value) :
    (w.put writer key v).exposed writer.network key = [v] := by
  have hself : offer writer.network key (w.written writer key v writer) = some v := by
    rw [offer, network_written, written, isTarget_of_not_isExposed h]
    simp [Device.put]
  -- A device with another name stays as it is, and does not expose the field on the network.
  have hother : ∀ d ∈ w.devices, d.name ≠ writer.name →
      offer writer.network key (w.written writer key v d) = none := by
    intro d hd hname
    rw [written, isTarget_of_not_isExposed h, if_neg (by simpa using hname)]
    exact offer_eq_none_of_not_isExposed h hd
  obtain ⟨before, after, hsplit⟩ := List.append_of_mem hwriter
  have hnodup := w.names_nodup
  rw [exposed_put]
  rw [hsplit] at hother hnodup ⊢
  simp only [List.map_append, List.map_cons, List.nodup_middle, List.nodup_cons, List.mem_append,
    List.mem_map, not_or, not_exists, not_and] at hnodup
  obtain ⟨⟨hbefore, hafter⟩, _⟩ := hnodup
  have hnil : ∀ part ⊆ before ++ writer :: after, (∀ d ∈ part, d.name ≠ writer.name) →
      part.filterMap (fun d => offer writer.network key (w.written writer key v d)) = [] :=
    fun part hpart hnames =>
      List.filterMap_eq_nil_iff.2 fun d hd => hother d (hpart hd) (hnames d hd)
  rw [List.filterMap_append, List.filterMap_cons, hself,
    hnil before (List.subset_append_left _ _) hbefore,
    hnil after (List.subset_append_of_subset_right _ (List.subset_cons_self _ _)) hafter]
  rfl

/-- After a write the values of the field are copies of the one that was written, as many as there
were values before, but at least one. -/
theorem exposed_put_same (hwriter : writer ∈ w.devices) (key : String) (v : Value) :
    (w.put writer key v).exposed writer.network key =
      List.replicate (max 1 (w.exposed writer.network key).length) v := by
  cases h : w.isExposed writer.network key with
  | true =>
    have hpos := length_exposed_pos_of_isExposed h
    rw [exposed_put_of_isExposed h, List.map_const', Nat.max_eq_right hpos]
  | false =>
    rw [exposed_put_of_not_isExposed hwriter h, exposed_eq_nil_of_not_isExposed h]
    rfl

/-- A write changes the values of no other field and on no other network. -/
theorem exposed_put_other (hwriter : writer ∈ w.devices) {key' : String}
    (hne : (writer.network, key) ≠ (network, key')) (v : Value) :
    (w.put writer key v).exposed network key' = w.exposed network key' := by
  have hagree : w.AgreesOn {(network, key')} (w.put writer key v) := agreesOn_put hwriter hne v
  exact (hagree.exposed_eq rfl).symm

/-! ### What a read finds -/

/-- What a read finds depends on the network of the reader and on the values of the field there. -/
theorem read_eq_of_exposed_eq {w w' : World} {handle : Option String} {field : String}
    (hnetwork : (w.resolve handle).map Device.network = (w'.resolve handle).map Device.network)
    (hexposed : ∀ network, w.Joins handle network →
      w.exposed network (Text.lower field) = w'.exposed network (Text.lower field)) :
    w.read handle field = w'.read handle field := by
  cases h : w.resolve handle with
  | error why =>
    cases h' : w'.resolve handle with
    | ok d' => rw [h, h'] at hnetwork; cases hnetwork
    | error why' =>
      rw [h, h'] at hnetwork
      cases hnetwork
      rw [read, read, h, h']
      rfl
  | ok d =>
    cases h' : w'.resolve handle with
    | error why' => rw [h, h'] at hnetwork; cases hnetwork
    | ok d' =>
      rw [h, h'] at hnetwork
      have hsame : d.network = d'.network := Except.ok.inj hnetwork
      rw [read_of_resolve h, read_of_resolve h', ← hsame, hexposed d.network ⟨d, h, rfl⟩]

/-- A write keeps every handle on its network. -/
theorem network_resolve_put (w : World) (writer : Device) (key : String) (v : Value)
    (handle : Option String) :
    ((w.put writer key v).resolve handle).map Device.network =
      (w.resolve handle).map Device.network := by
  rw [put_eq_mapDevices, resolve_mapDevices]
  cases w.resolve handle with
  | error why => rfl
  | ok d => exact congrArg Except.ok (network_written w writer key v d)

theorem joins_iff_network_eq {handle : Option String} :
    w.Joins handle network ↔ (w.resolve handle).map Device.network = .ok network := by
  constructor
  · rintro ⟨d, hd, rfl⟩
    rw [hd]
    rfl
  · intro h
    cases hd : w.resolve handle with
    | error why => rw [hd] at h; cases h
    | ok d =>
      rw [hd] at h
      exact ⟨d, hd, Except.ok.inj h⟩

/-- A write moves no device to another network. -/
theorem joins_put_iff (w : World) (writer : Device) (key : String) (v : Value)
    (handle : Option String) (network : String) :
    (w.put writer key v).Joins handle network ↔ w.Joins handle network := by
  rw [joins_iff_network_eq, joins_iff_network_eq, network_resolve_put]

/-- A value that all others equal is the only one left. -/
theorem distinct_of_equal {v : Value} {rest : List Value} (h : ∀ u ∈ rest, u.equal v = true) :
    distinct (v :: rest) = [v] := by
  show rest.foldl (fun seen u => if seen.any (u.equal ·) then seen else seen ++ [u]) [v] = [v]
  induction rest with
  | nil => rfl
  | cons u rest ih =>
    obtain ⟨hu, hrest⟩ := List.forall_mem_cons.1 h
    rw [List.foldl_cons, if_pos (by simpa using hu)]
    exact ih hrest

/-! ### Reading after writing -/

/-- What was written is read by everyone on the network. -/
theorem read_put_same (hwriter : writer ∈ w.devices) {handle : Option String} {field : String}
    (hj : w.Joins handle writer.network) (hfield : Text.lower field = key) {v : Value}
    (hv : v.isNaN = false) : (w.put writer key v).read handle field = .ok (.found v, []) := by
  obtain ⟨reader, hreader, hnetwork⟩ := (joins_put_iff w writer key v handle _).2 hj
  obtain ⟨n, hn⟩ : ∃ n, max 1 (w.exposed writer.network key).length = n + 1 :=
    Nat.exists_eq_add_one.2 (by omega)
  have hdistinct : distinct (List.replicate (n + 1) v) = [v] := by
    refine distinct_of_equal fun u hu => ?_
    rw [List.eq_of_mem_replicate hu]
    exact Value.equal_self hv
  rw [read_of_resolve hreader, hnetwork, hfield, exposed_put_same hwriter, hn, hdistinct]
  rfl

/-- A write is not noticed in other fields or on other networks. -/
theorem read_put_other (hwriter : writer ∈ w.devices) {handle : Option String} {field : String}
    (hne : w.Joins handle writer.network → Text.lower field ≠ key) (v : Value) :
    (w.put writer key v).read handle field = w.read handle field := by
  refine read_eq_of_exposed_eq (network_resolve_put w writer key v handle) fun network hj => ?_
  rw [joins_put_iff] at hj
  refine exposed_put_other hwriter ?_ v
  intro heq
  obtain ⟨rfl, rfl⟩ := Prod.mk.inj heq
  exact hne hj rfl

/-- Of two writes to a field from the same network, only the second leaves a trace. -/
theorem exposed_put_put {first second : Device} (hfirst : first ∈ w.devices)
    (hwriter : writer ∈ w.devices) (hsame : first.network = writer.network) {u : Value}
    (hsecond : second ∈ (w.put first key u).devices)
    (hsecond_same : second.network = writer.network) (v : Value) (network key' : String) :
    ((w.put first key u).put second key v).exposed network key' =
      (w.put writer key v).exposed network key' := by
  by_cases heq : (writer.network, key) = (network, key')
  · obtain ⟨rfl, rfl⟩ := Prod.mk.inj heq
    have hlength : ((w.put first key u).exposed writer.network key).length =
        max 1 (w.exposed writer.network key).length := by
      rw [← hsame, exposed_put_same hfirst, List.length_replicate]
    calc ((w.put first key u).put second key v).exposed writer.network key
        = List.replicate (max 1 ((w.put first key u).exposed writer.network key).length) v := by
          rw [← hsecond_same, exposed_put_same hsecond]
      _ = List.replicate (max 1 (w.exposed writer.network key).length) v := by
          rw [hlength, ← Nat.max_assoc, Nat.max_self]
      _ = (w.put writer key v).exposed writer.network key := (exposed_put_same hwriter key v).symm
  · rw [exposed_put_other hsecond (hsecond_same ▸ heq), exposed_put_other hfirst (hsame ▸ heq),
      exposed_put_other hwriter heq]

/-- Of two writes to a field only the second one can be read. -/
theorem read_put_put {first second : Device} (hfirst : first ∈ w.devices)
    (hwriter : writer ∈ w.devices) (hsame : first.network = writer.network) {u : Value}
    (hsecond : second ∈ (w.put first key u).devices)
    (hsecond_same : second.network = writer.network) (v : Value) (handle : Option String)
    (field : String) :
    ((w.put first key u).put second key v).read handle field =
      (w.put writer key v).read handle field := by
  refine read_eq_of_exposed_eq ?_ fun network _ => ?_
  · rw [network_resolve_put, network_resolve_put, network_resolve_put]
  · exact exposed_put_put hfirst hwriter hsame hsecond hsecond_same v network _

/-! ### Refusals -/

/-- A handle that stands for no device is refused. -/
theorem not_registers_iff {handle : Option String} :
    ¬ w.Registers handle ↔ ∃ why, w.resolve handle = .error why := by
  unfold Registers
  cases w.resolve handle with
  | ok d => simp
  | error why => simp

/-- A read is refused only to a handle that stands for no device. -/
theorem read_refused_iff (handle : Option String) (field : String) :
    (∃ why, w.read handle field = .error why) ↔ ¬ w.Registers handle := by
  rw [not_registers_iff]
  cases h : w.resolve handle with
  | ok d => simp [read_of_resolve h]
  | error why => simp [read, h, bind, Except.bind]

theorem write_refused_iff (handle : Option String) (field : String) (v : Value) :
    (∃ why, w.write handle field v = .error why) ↔ ¬ w.Registers handle := by
  rw [not_registers_iff]
  cases h : w.resolve handle with
  | ok d => simp [write, h, bind, Except.bind, pure, Except.pure]
  | error why => simp [write, h, bind, Except.bind]

end World

/-- A refusal leaves the world as it was. -/
theorem WorldAction.perform_of_refused {w : World} {handle : Option String}
    (h : ¬ w.Registers handle) (field : String) (v : Value) :
    ((WorldAction.read handle field).perform w).2.1 = w ∧
      ((WorldAction.write handle field v).perform w).2.1 = w := by
  obtain ⟨why, hread⟩ := (World.read_refused_iff handle field).2 h
  obtain ⟨why', hwrite⟩ := (World.write_refused_iff handle field v).2 h
  constructor
  · simp only [perform, hread]
  · simp only [perform, hwrite]

/-- On a network a written value is read back, exactly as it was written, under every spelling of
the field and whatever the devices held before; nothing else that can be read changes; and of two
writes to a field only the second can be seen. Reading and writing are refused to a handle that
stands for no device, and only then, and a refusal leaves the world as it is. -/
theorem written_field_reads_back {w : World} {d e : Option String} {network : String}
    (hd : w.Joins d network) (he : w.Joins e network) (n : String) (v : Value) :
    (∃ w', w.write d n v = .ok w' ∧
      (v.isNaN = false → ∀ n', Text.lower n' = Text.lower n →
        w'.read e n' = .ok (.found v, [])) ∧
      (∀ m, Text.lower m ≠ Text.lower n → ∀ handle, w'.read handle m = w.read handle m) ∧
      (∀ handle, ¬ w.Joins handle network → ∀ m, w'.read handle m = w.read handle m) ∧
      ∀ n' u, Text.lower n' = Text.lower n → ∃ w₁ w₂, w.write e n' u = .ok w₁ ∧
        w₁.write d n v = .ok w₂ ∧ ∀ handle m, w₂.read handle m = w'.read handle m) ∧
    ∀ handle field u,
      ((∃ why, w.read handle field = .error why) ↔ ¬ w.Registers handle) ∧
      ((∃ why, w.write handle field u = .error why) ↔ ¬ w.Registers handle) ∧
      (¬ w.Registers handle → ((WorldAction.read handle field).perform w).2.1 = w ∧
        ((WorldAction.write handle field u).perform w).2.1 = w) := by
  refine ⟨?_, fun handle field u => ⟨w.read_refused_iff handle field,
    w.write_refused_iff handle field u, fun h => WorldAction.perform_of_refused h field u⟩⟩
  obtain ⟨writer, hwriter, rfl⟩ := hd
  have hmem := World.mem_of_resolve hwriter
  refine ⟨w.put writer (Text.lower n) v, World.write_of_resolve hwriter n v, ?_, ?_, ?_, ?_⟩
  · intro hv n' hn'
    exact World.read_put_same hmem he hn' hv
  · intro m hm handle
    exact World.read_put_other hmem (fun _ => hm) v
  · intro handle hforeign m
    exact World.read_put_other hmem (fun hj => absurd hj hforeign) v
  · intro n' u hn'
    obtain ⟨first, hfirst, hsame⟩ := he
    -- After the first write the second handle stands for a device on the same network.
    have hjoins : (w.put first (Text.lower n) u).Joins d writer.network :=
      (World.joins_put_iff w first _ u d _).2 ⟨writer, hwriter, rfl⟩
    obtain ⟨second, hsecond, hsecond_same⟩ := hjoins
    refine ⟨_, _, hn' ▸ World.write_of_resolve hfirst n' u,
      World.write_of_resolve hsecond n v, fun handle m => ?_⟩
    exact World.read_put_put (World.mem_of_resolve hfirst) hmem hsame
      (World.mem_of_resolve hsecond) hsecond_same v handle m

/-- Two tanks that do not agree on their level, a meter without one, and a tank somewhere else. -/
def tanks : World :=
  (((World.empty.add (.new "north" [("Level", .int 3)] "plant")).add
    (.new "south" [("LEVEL", .text "low")] "plant")).add
    (.new "meter" [("open", .int 1)] "plant")).add (.new "tower" [("level", .int 9)] "hill")

/-- The meter settles the level of both tanks in the plant; the tower keeps its own. -/
theorem meter_settles_level :
    (tanks.read (some "meter") "level").map Prod.fst = .ok .conflicting ∧
      tanks.Joins (some "meter") "plant" ∧ tanks.Joins (some "south") "plant" ∧
      ∃ w', tanks.write (some "meter") "leVel" (.text "full") = .ok w' ∧
        w'.read (some "south") "Level" = .ok (.found (.text "full"), []) ∧
        w'.read (some "tower") "level" = tanks.read (some "tower") "level" ∧
        w'.read (some "north") "open" = tanks.read (some "north") "open" := by
  have hmeter : tanks.Joins (some "meter") "plant" := ⟨_, rfl, rfl⟩
  have hsouth : tanks.Joins (some "south") "plant" := ⟨_, rfl, rfl⟩
  have htower : ¬ tanks.Joins (some "tower") "plant" := by
    rintro ⟨d, hd, hnetwork⟩
    cases hd
    exact absurd hnetwork (by decide)
  obtain ⟨⟨w', hw', hback, hother, hforeign, _⟩, _⟩ :=
    written_field_reads_back hmeter hsouth "leVel" (.text "full")
  refine ⟨by decide +kernel, hmeter, hsouth, w', hw', ?_, ?_, ?_⟩
  · exact hback rfl "Level" (by decide +kernel)
  · exact hforeign _ htower "level"
  · exact hother "open" (by decide +kernel) _

end ChipScript
