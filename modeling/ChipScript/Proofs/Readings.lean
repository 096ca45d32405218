import Mathlib.Data.List.Pairwise
import ChipScript.Proofs.Agreement
import ChipScript.Proofs.Operators

/-!
# What a read finds

A read goes through the devices of a network in the order of their registration and keeps each value
that equals none of those kept so far. What it finds depends on how many it has kept in the end.

`World.Answers` says what it has to find without going through anything: nothing if no device shows
the field, a conflict if two devices show values that are not equal, and otherwise the value of the
first device that shows it. That both come to the same (`World.answers_read`) rests on the equality
of values being symmetric and transitive, whichever way numbers are carried. It is not reflexive: a
NaN on one device is found, and on two it is in conflict.

Only the first device depends on the order. So in whatever order the same devices were registered, a
read is missing, found or in conflict alike, and two values that are found are equal, or they are
one NaN that a single device shows (`World.Answers.same_kind`, `World.Answers.found_alike`).
-/

namespace ChipScript

/-! ### Equality of values -/

namespace Value

/-- Values equal each other or neither does. -/
theorem equal_symm {u v : Value} (h : u.equal v = true) : v.equal u = true := by
  cases u with
  | text s =>
    cases v with
    | text t => simpa [equal, eq_comm] using h
    | num b => cases h
  | num a =>
    cases v with
    | text t => cases h
    | num b =>
      obtain ⟨hsame, hnan⟩ := Number.equal_iff.1 h
      exact Number.equal_iff.2 ⟨hsame.symm, hsame ▸ hnan⟩

/-- Equality passes from integers to doubles and back without loss. -/
theorem equal_trans {u v w : Value} (h : u.equal v = true) (h' : v.equal w = true) :
    u.equal w = true := by
  cases v with
  | text t =>
    cases u with
    | num a => cases h
    | text s =>
      cases w with
      | num c => cases h'
      | text r =>
        simp only [equal, decide_eq_true_eq] at h h' ⊢
        exact h.trans h'
  | num b =>
    cases u with
    | text s => cases h
    | num a =>
      cases w with
      | text r => cases h'
      | num c =>
        obtain ⟨hab, hnan⟩ := Number.equal_iff.1 h
        obtain ⟨hbc, _⟩ := Number.equal_iff.1 h'
        exact Number.equal_iff.2 ⟨hab.trans hbc, hnan⟩

end Value

namespace World

/-! ### The values that are kept -/

/-- The values kept after one more was looked at. -/
def noted (seen : List Value) (v : Value) : List Value :=
  if seen.any (v.equal ·) then seen else seen ++ [v]

theorem distinct_cons (v : Value) (rest : List Value) :
    distinct (v :: rest) = rest.foldl noted [v] := rfl

/-- What is kept stays kept, and new values come after it. -/
theorem exists_foldl_noted_eq (seen rest : List Value) :
    ∃ more, rest.foldl noted seen = seen ++ more := by
  induction rest generalizing seen with
  | nil => exact ⟨[], (List.append_nil seen).symm⟩
  | cons v rest ih =>
    obtain ⟨more, hmore⟩ := ih (noted seen v)
    rw [List.foldl_cons, hmore]
    unfold noted
    split
    · exact ⟨more, rfl⟩
    · exact ⟨v :: more, by simp⟩

/-- The first value is kept, so it is the first of those that are. -/
theorem head?_distinct (values : List Value) : (distinct values).head? = values.head? := by
  cases values with
  | nil => rfl
  | cons v rest =>
    obtain ⟨more, hmore⟩ := exists_foldl_noted_eq [v] rest
    rw [distinct_cons, hmore]
    rfl

/-- No values are kept only if there are none. -/
theorem distinct_eq_nil_iff {values : List Value} : distinct values = [] ↔ values = [] := by
  rw [← List.head?_eq_none_iff, head?_distinct, List.head?_eq_none_iff]

/-- A value that does not equal the first one makes a second one be kept: itself, or one before it
that does not equal the first either. -/
theorem one_lt_length_distinct_of_unequal {u v : Value} {rest : List Value} (hu : u ∈ rest)
    (h : u.equal v = false) : 1 < (distinct (v :: rest)).length := by
  rw [distinct_cons]
  induction rest with
  | nil => cases hu
  | cons next rest ih =>
    rw [List.foldl_cons]
    cases hnext : next.equal v with
    | true =>
      have hkept : noted [v] next = [v] := by simp [noted, hnext]
      rw [hkept]
      apply ih
      rcases List.mem_cons.1 hu with rfl | hu
      · rw [h] at hnext
        cases hnext
      · exact hu
    | false =>
      have hkept : noted [v] next = [v, next] := by simp [noted, hnext]
      obtain ⟨more, hmore⟩ := exists_foldl_noted_eq [v, next] rest
      rw [hkept, hmore]
      simp

/-- More than one value is kept just if two of them are not equal, wherever they stand. -/
theorem one_lt_length_distinct_iff_not_pairwise (values : List Value) :
    1 < (distinct values).length ↔ ¬ values.Pairwise fun u v => u.equal v = true := by
  cases values with
  | nil => simp [distinct]
  | cons v rest =>
    constructor
    · intro hlength hpairwise
      have hequal : ∀ u ∈ rest, u.equal v = true := fun u hu =>
        Value.equal_symm (List.rel_of_pairwise_cons hpairwise hu)
      rw [distinct_of_equal hequal] at hlength
      simp at hlength
    · intro hnot
      by_contra hlength
      -- Then all values equal the first, and so each other.
      have hequal : ∀ u ∈ rest, u.equal v = true := by
        intro u hu
        cases huv : u.equal v with
        | true => rfl
        | false => exact absurd (one_lt_length_distinct_of_unequal hu huv) hlength
      apply hnot
      refine List.pairwise_cons.2 ⟨fun u hu => Value.equal_symm (hequal u hu), ?_⟩
      refine List.pairwise_of_forall_mem_list fun u hu u' hu' => ?_
      exact Value.equal_trans (hequal u hu) (Value.equal_symm (hequal u' hu'))

end World

/-! ### What is to be found -/

/-- The device is on the network and holds the value in the field. -/
structure Device.Shows (network key : String) (d : Device) (v : Value) : Prop where
  network : d.network = network
  value : d.fields[key]? = some v

namespace World

/-- Two different devices show values that are not equal. -/
def Disagrees (w : World) (network key : String) : Prop :=
  ∃ d ∈ w.devices, ∃ e ∈ w.devices, d ≠ e ∧
    ∃ u v, d.Shows network key u ∧ e.Shows network key v ∧ u.equal v = false

/-- The first device to show the field shows the value. -/
def ShowsFirst (w : World) (network key : String) (v : Value) : Prop :=
  ∃ before d after, w.devices = before ++ d :: after ∧ d.Shows network key v ∧
    ∀ e ∈ before, ∀ u, ¬ e.Shows network key u

/-- What a read has to find of a field, as seen from a network. -/
structure Answers (w : World) (network key : String) (found : FieldRead) : Prop where
  missing_iff : found = .missing ↔
    ∀ d ∈ w.devices, d.network = network → d.exposes key = false
  conflicting_iff : found = .conflicting ↔ w.Disagrees network key
  otherwise_first : found ≠ .missing → found ≠ .conflicting →
    ∃ v, found = .found v ∧ w.ShowsFirst network key v

variable {w w' : World} {network key : String} {d : Device} {v : Value}

/-- A device offers a value that it shows on the network. -/
theorem offer_eq_some_iff : offer network key d = some v ↔ d.Shows network key v := by
  unfold offer
  split
  · next hn => exact ⟨fun hv => ⟨hn, hv⟩, fun h => h.value⟩
  · next hn => exact ⟨nofun, fun h => absurd h.network hn⟩

theorem offer_eq_none_iff :
    offer network key d = none ↔ (d.network = network → d.exposes key = false) := by
  unfold offer
  split
  · next hn => simp [hn, exposes_eq_false]
  · next hn => simp [hn]

/-- Nothing is exposed if no device of the network shows the field. -/
theorem exposed_eq_nil_iff : w.exposed network key = [] ↔
    ∀ d ∈ w.devices, d.network = network → d.exposes key = false := by
  rw [exposed_eq_filterMap, List.filterMap_eq_nil_iff]
  exact forall₂_congr fun d _ => offer_eq_none_iff

/-- The first value that is exposed is that of the first device to show one. -/
theorem head?_exposed : (w.exposed network key).head? = some v ↔ w.ShowsFirst network key v := by
  rw [exposed_eq_filterMap, List.head?_filterMap, List.findSome?_eq_some_iff]
  simp only [ShowsFirst, offer_eq_some_iff, Option.eq_none_iff_forall_ne_some, ne_eq]

/-- All values that are shown are equal just if no two devices disagree. -/
theorem pairwise_exposed_iff : (w.exposed network key).Pairwise (fun u v => u.equal v = true) ↔
    ¬ w.Disagrees network key := by
  let agree (d e : Device) : Prop :=
    ∀ u, offer network key d = some u → ∀ v, offer network key e = some v → u.equal v = true
  have hsymm : Std.Symm agree := ⟨fun d e h u hu v hv => Value.equal_symm (h v hv u hu)⟩
  have hnodup : w.devices.Nodup := w.names_nodup.of_map
  rw [exposed_eq_filterMap, List.pairwise_filterMap]
  constructor
  · rintro hagree ⟨d, hd, e, he, hne, u, v, hu, hv, hunequal⟩
    have hde : agree d e := List.Pairwise.forall hagree hd he hne
    have hequal := hde u (offer_eq_some_iff.2 hu) v (offer_eq_some_iff.2 hv)
    rw [hunequal] at hequal
    cases hequal
  · intro hnot
    refine hnodup.pairwise_of_forall_ne fun d hd e he hne u hu v hv => ?_
    by_contra hunequal
    apply hnot
    exact ⟨d, hd, e, he, hne, u, v, offer_eq_some_iff.1 hu, offer_eq_some_iff.1 hv,
      Bool.eq_false_iff.2 hunequal⟩

theorem fst_classify_eq_missing_iff {field : String} {values : List Value} :
    (classify field network values).1 = .missing ↔ values = [] := by
  match values with
  | [] => simp [classify]
  | [v] => simp [classify]
  | u :: v :: rest => simp [classify]

theorem fst_classify_eq_conflicting_iff {field : String} {values : List Value} :
    (classify field network values).1 = .conflicting ↔ 1 < values.length := by
  rw [← classify_conflicting_iff field network values]
  constructor
  · intro h
    exact ⟨_, Prod.ext h rfl⟩
  · rintro ⟨t, ht⟩
    rw [ht]

theorem exists_of_fst_classify {field : String} {values : List Value}
    (hmissing : (classify field network values).1 ≠ .missing)
    (hconflicting : (classify field network values).1 ≠ .conflicting) :
    ∃ v, (classify field network values).1 = .found v ∧ values.head? = some v := by
  match values with
  | [] => exact absurd rfl hmissing
  | [v] => exact ⟨v, rfl, rfl⟩
  | u :: v :: rest => exact absurd rfl hconflicting

/-- Going through the devices finds what is to be found. -/
theorem answers_classify (w : World) (network key field : String) :
    w.Answers network key (classify field network (distinct (w.exposed network key))).1 where
  missing_iff := by rw [fst_classify_eq_missing_iff, distinct_eq_nil_iff, exposed_eq_nil_iff]
  conflicting_iff := by
    rw [fst_classify_eq_conflicting_iff, one_lt_length_distinct_iff_not_pairwise,
      pairwise_exposed_iff, not_not]
  otherwise_first := by
    intro hmissing hconflicting
    obtain ⟨v, hv, hfirst⟩ := exists_of_fst_classify hmissing hconflicting
    rw [head?_distinct, head?_exposed] at hfirst
    exact ⟨v, hv, hfirst⟩

/-- A read answers by what the devices show. -/
theorem answers_read {handle : Option String} (h : w.Joins handle network) (field : String) :
    ∃ found t, w.read handle field = .ok (found, t) ∧
      w.Answers network (Text.lower field) found := by
  obtain ⟨reader, hreader, rfl⟩ := h
  exact ⟨_, _, read_of_resolve hreader field, answers_classify w _ _ field⟩

/-! ### Another order of the same devices -/

/-- A handle stands for the same device in any order of devices. -/
theorem resolve_of_perm (hperm : w'.devices.Perm w.devices) {handle : Option String}
    (h : w.resolve handle = .ok d) : w'.resolve handle = .ok d := by
  obtain ⟨name, rfl, hfind⟩ := resolve_eq_ok h
  have hname : d.name = name := by simpa using List.find?_some hfind
  have hd : d ∈ w'.devices := hperm.mem_iff.2 (List.mem_of_find?_eq_some hfind)
  cases hfind' : w'.find? name with
  | none =>
    have hnone := List.find?_eq_none.1 hfind' d hd
    simp [hname] at hnone
  | some e =>
    -- Names are unique, so there is no other device to be found.
    have hename : e.name = name := by simpa using List.find?_some hfind'
    have he : e ∈ w'.devices := List.mem_of_find?_eq_some hfind'
    rw [eq_of_name_eq he hd (hename.trans hname.symm)] at hfind'
    rw [resolve, Option.bind_some, hfind']

theorem Joins.of_perm (hperm : w'.devices.Perm w.devices) {handle : Option String}
    (h : w.Joins handle network) : w'.Joins handle network := by
  obtain ⟨d, hd, hnetwork⟩ := h
  exact ⟨d, resolve_of_perm hperm hd, hnetwork⟩

/-- Whether devices disagree does not depend on their order. -/
theorem disagrees_iff_of_perm (hperm : w'.devices.Perm w.devices) :
    w'.Disagrees network key ↔ w.Disagrees network key := by
  simp only [Disagrees, hperm.mem_iff]

theorem ShowsFirst.exists_shows (h : w.ShowsFirst network key v) :
    ∃ d ∈ w.devices, d.Shows network key v := by
  obtain ⟨before, d, after, hdevices, hd, _⟩ := h
  exact ⟨d, by simp [hdevices], hd⟩

namespace Answers

variable {found found' : FieldRead}

/-- In any order of devices a read finds nothing, a conflict or a value. -/
theorem same_kind (hperm : w'.devices.Perm w.devices) (h : w.Answers network key found)
    (h' : w'.Answers network key found') :
    (found' = .missing ↔ found = .missing) ∧ (found' = .conflicting ↔ found = .conflicting) := by
  constructor
  · rw [h'.missing_iff, h.missing_iff]
    simp only [hperm.mem_iff]
  · rw [h'.conflicting_iff, h.conflicting_iff, disagrees_iff_of_perm hperm]

/-- A value that is found is shown by some device. -/
theorem exists_shows (h : w.Answers network key (.found v)) :
    ∃ d ∈ w.devices, d.Shows network key v := by
  obtain ⟨v', hv', hfirst⟩ := h.otherwise_first nofun nofun
  cases hv'
  exact hfirst.exists_shows

/-- Where a value is found, different devices show equal values. -/
theorem equal_of_ne (h : w.Answers network key (.found v)) {d e : Device} (hd : d ∈ w.devices)
    (he : e ∈ w.devices) (hne : d ≠ e) {u u' : Value} (hu : d.Shows network key u)
    (hu' : e.Shows network key u') : u.equal u' = true := by
  by_contra hunequal
  have hdisagrees : w.Disagrees network key :=
    ⟨d, hd, e, he, hne, u, u', hu, hu', Bool.eq_false_iff.2 hunequal⟩
  cases h.conflicting_iff.2 hdisagrees

/-- A NaN is found only where a single device shows the field. -/
theorem existsUnique_of_isNaN (h : w.Answers network key (.found v)) (hnan : v.isNaN = true) :
    ∃! d, d ∈ w.devices ∧ d.network = network ∧ d.exposes key = true := by
  obtain ⟨d, hd, hshows⟩ := h.exists_shows
  refine ⟨d, ⟨hd, hshows.network, exposes_eq_true.2 ⟨v, hshows.value⟩⟩, ?_⟩
  rintro e ⟨he, hnetwork, hexposes⟩
  obtain ⟨u, hu⟩ := exposes_eq_true.1 hexposes
  by_contra hne
  have hequal := h.equal_of_ne he hd hne ⟨hnetwork, hu⟩ hshows
  rw [Value.equal_eq_false_of_isNaN hnan] at hequal
  cases hequal

/-- Values that are found in two orders of the same devices are equal, or they are the same NaN of a
single device. -/
theorem found_alike (hperm : w'.devices.Perm w.devices) {v' : Value}
    (h : w.Answers network key (.found v)) (h' : w'.Answers network key (.found v')) :
    v.equal v' = true ∨ (v' = v ∧ v.isNaN = true ∧
      ∃! d, d ∈ w.devices ∧ d.network = network ∧ d.exposes key = true) := by
  obtain ⟨d, hd, hv⟩ := h.exists_shows
  obtain ⟨d', hd', hv'⟩ := h'.exists_shows
  rw [hperm.mem_iff] at hd'
  by_cases hsame : d = d'
  · subst hsame
    obtain rfl : v' = v := Option.some.inj (hv'.value.symm.trans hv.value)
    cases hnan : v'.isNaN with
    | false => exact .inl (Value.equal_self hnan)
    | true => exact .inr ⟨rfl, rfl, h.existsUnique_of_isNaN hnan⟩
  · exact .inl (h.equal_of_ne hd hd' hsame hv hv')

end Answers

end World

/-- A device of the world reads a field as missing just if no device of its network exposes it, in
conflict just if two different devices there hold values that are not equal, and otherwise as the
value of the first device to expose it. In any other order of the same devices the read is of the
same kind, and if it finds values in both, they are equal or the same NaN of a single device. -/
theorem read_finds_what_devices_show {w : World} {handle : Option String} {network : String}
    (hreader : w.Joins handle network) (field : String) :
    ∃ found t, w.read handle field = .ok (found, t) ∧
      w.Answers network (Text.lower field) found ∧
      ∀ w' : World, w'.devices.Perm w.devices →
        ∃ found' t', w'.read handle field = .ok (found', t') ∧
          (found' = .missing ↔ found = .missing) ∧ (found' = .conflicting ↔ found = .conflicting) ∧
          ∀ v v', found = .found v → found' = .found v' →
            v.equal v' = true ∨ (v' = v ∧ v.isNaN = true ∧ ∃! d, d ∈ w.devices ∧
              d.network = network ∧ d.exposes (Text.lower field) = true) := by
  obtain ⟨found, t, hread, hanswers⟩ := World.answers_read hreader field
  refine ⟨found, t, hread, hanswers, fun w' hperm => ?_⟩
  obtain ⟨found', t', hread', hanswers'⟩ := World.answers_read (hreader.of_perm hperm) field
  obtain ⟨hmissing, hconflicting⟩ := hanswers.same_kind hperm hanswers'
  refine ⟨found', t', hread', hmissing, hconflicting, ?_⟩
  rintro v v' rfl rfl
  exact hanswers.found_alike hperm hanswers'

/-- A boiler and a pipe of the same heat, one given as an integer and one as a double, in a house
with a hall; and a text that looks the same in the attic. -/
def gauges : World :=
  (((World.empty.add (.new "boiler" [("Heat", .int 2)] "house")).add (.new "hall" [] "house")).add
    (.new "attic" [("heat", .text "2")] "roof")).add
    (.new "pipe" [("HEAT", .num (.float (Binary64.ofInt 2)))] "house")

/-- The same devices, the last first. -/
def gaugesReversed : World where
  devices := gauges.devices.reverse
  names_nodup := by
    rw [List.map_reverse, List.nodup_reverse]
    exact gauges.names_nodup

/-- From the hall the heat is an integer in one order and a double in the other, and the two are
equal. -/
theorem hall_reads_equal_heat_in_either_order :
    gauges.Joins (some "hall") "house" ∧ gaugesReversed.devices.Perm gauges.devices ∧
      ∃ found found' t t', gauges.read (some "hall") "heat" = .ok (found, t) ∧
        gaugesReversed.read (some "hall") "heat" = .ok (found', t') ∧
        found = .found (.int 2) ∧ found' = .found (.num (.float (Binary64.ofInt 2))) ∧
        Value.equal (.int 2) (.num (.float (Binary64.ofInt 2))) = true := by
  have hjoins : gauges.Joins (some "hall") "house" := ⟨_, rfl, rfl⟩
  have hperm : gaugesReversed.devices.Perm gauges.devices := List.reverse_perm _
  obtain ⟨found, t, hread, _, horders⟩ := read_finds_what_devices_show hjoins "heat"
  obtain ⟨found', t', hread', _, _, halike⟩ := horders gaugesReversed hperm
  have hfound : (gauges.read (some "hall") "heat").map Prod.fst = .ok (.found (.int 2)) := by
    decide +kernel
  have hfound' : (gaugesReversed.read (some "hall") "heat").map Prod.fst =
      .ok (.found (.num (.float (Binary64.ofInt 2)))) := by
    decide +kernel
  rw [hread] at hfound
  rw [hread'] at hfound'
  cases hfound
  cases hfound'
  refine ⟨hjoins, hperm, _, _, t, t', hread, hread', rfl, rfl, ?_⟩
  rcases halike _ _ rfl rfl with hequal | ⟨_, hnan, _⟩
  · exact hequal
  · exact absurd hnan (by decide)

end ChipScript
