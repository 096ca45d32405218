import ChipScript.Proofs.Bounds
import ChipScript.Proofs.WellFormed
import ChipScript.Proofs.World

/-!
# What running statements guarantees

`Action.Keeps I E Q x` says that from every state which satisfies `I`, the action `x` ends in one
that satisfies `I` again, has a result that satisfies `Q` if it is done, and fails only with a fault
that satisfies `E`. It may always halt.

The invariant of interest is `Memory.Fit`: all integers in the locals and in the fields of the world
are bounded, and the chip's device is registered if that is asked for. Every expression and every
statement keeps it. What may fail is a matter of the program and of the wiring:

* an internal fault needs an expression or a statement that is not well formed;
* a device fault needs a device that is not registered;
* a fault of arithmetic needs a goto to a line that has too many digits to be written, and there is
  none below a limit that has fewer (`WritesLines`). All other arithmetic is on bounded numbers, and
  its divisors are not zero.
-/

namespace ChipScript

namespace Action

section

variable {σ α β : Type} {I : σ → Prop} {E : Fault → Prop} {Q : α → Prop} {R : β → Prop}

/-- The action keeps the invariant, and ends as it may. -/
def Keeps (I : σ → Prop) (E : Fault → Prop) (Q : α → Prop) (x : Action σ α) : Prop :=
  ∀ s, I s → I (x s).state ∧ (x s).ending.Meets E Q

theorem keeps_pure {a : α} (h : Q a) : Keeps I E Q (pure a : Action σ α) :=
  fun _ hs => ⟨hs, h⟩

theorem keeps_halt (why : ScriptError) : Keeps I E Q (halt why : Action σ α) :=
  fun _ hs => ⟨hs, trivial⟩

theorem keeps_fail {why : Fault} (h : E why) : Keeps I E Q (fail why : Action σ α) :=
  fun _ hs => ⟨hs, h⟩

/-- Guarantees compose: what the first part hands on, the second may rely on. -/
theorem Keeps.bind {x : Action σ α} {f : α → Action σ β} (hx : Keeps I E Q x)
    (hf : ∀ a, Q a → Keeps I E R (f a)) : Keeps I E R (x >>= f) := by
  intro s hs
  obtain ⟨hstate, hending⟩ := hx s hs
  rw [bind_apply]
  cases h : (x s).ending with
  | done a =>
    rw [h] at hending
    exact hf a hending _ hstate
  | halted why => exact ⟨hstate, trivial⟩
  | failed why =>
    rw [h] at hending
    exact ⟨hstate, hending⟩

/-- Asking for something known fails only where that fault is allowed. -/
theorem keeps_demand {a? : Option α} {why : InternalError}
    (h : a?.isSome = true ∨ E (.internal why)) :
    Keeps I E (fun a => a? = some a) (demand a? why : Action σ α) := by
  cases a? with
  | some a => exact keeps_pure rfl
  | none =>
    rcases h with h | h
    · cases h
    · exact keeps_fail h

/-- A calculation keeps the state, whatever comes of it. -/
theorem keeps_ofEnding {x : Ending α} (h : x.Meets E Q) :
    Keeps I E Q (ofEnding x : Action σ α) := by
  cases x with
  | done a => exact keeps_pure h
  | halted why => exact keeps_halt why
  | failed why => exact keeps_fail h

end

end Action

/-! ### Memories -/

def AllBounded (values : Std.ExtTreeMap String Value) : Prop :=
  ∀ (key : String) (v : Value), values[key]? = some v → v.Bounded

def World.Bounded (w : World) : Prop :=
  ∀ d ∈ w.devices, AllBounded d.fields

def FieldRead.Bounded : FieldRead → Prop
  | found v => v.Bounded
  | _ => True

namespace Memory

/-- All values in the locals and in the world are bounded. -/
structure Bounded (m : Memory) : Prop where
  locals : AllBounded m.locals
  world : ∀ w, m.world = some w → w.Bounded

def Connected (device : Option String) (m : Memory) : Prop :=
  ∀ w, m.world = some w → w.Registers device

instance (device : Option String) (m : Memory) : Decidable (m.Connected device) :=
  match h : m.world with
  | none => .isTrue fun w hw => by cases h.symm.trans hw
  | some w => decidable_of_iff (w.Registers device)
      ⟨fun hw w' hw' => Option.some.inj (h.symm.trans hw') ▸ hw, fun hm => hm w h⟩

/-- A bounded memory in which the device is registered if the chip is to be wired. -/
structure Fit (device : Option String) (wired : Prop) (m : Memory) : Prop where
  bounded : m.Bounded
  connected : wired → m.Connected device

end Memory

theorem allBounded_empty : AllBounded ∅ := by
  intro key v hv
  rw [Std.ExtTreeMap.getElem?_empty] at hv
  cases hv

theorem AllBounded.insert {values : Std.ExtTreeMap String Value} (h : AllBounded values)
    {v : Value} (hv : v.Bounded) (key : String) : AllBounded (values.insert key v) := by
  intro key' u hu
  rw [Std.ExtTreeMap.getElem?_insert] at hu
  split at hu
  · obtain rfl := Option.some.inj hu
    exact hv
  · exact h key' u hu

theorem AllBounded.getD {values : Std.ExtTreeMap String Value} (h : AllBounded values)
    (key : String) : (values.getD key (.int 0)).Bounded := by
  rw [Std.ExtTreeMap.getD_eq_getD_getElem?]
  cases hv : values[key]? with
  | none => exact Value.bounded_zero
  | some v => exact h key v hv

/-- A world is bounded after its devices have been changed, if each of them is. -/
theorem World.bounded_mapDevices {w : World} {f : Device → Device}
    (hname : ∀ d, (f d).name = d.name) (hf : ∀ d ∈ w.devices, AllBounded (f d).fields) :
    (w.mapDevices f hname).Bounded := by
  intro d' hd'
  obtain ⟨d, hd, rfl⟩ := List.mem_map.1 hd'
  exact hf d hd

/-- A bounded value leaves a bounded world. -/
theorem World.bounded_write {w w' : World} (hw : w.Bounded) {handle : Option String}
    {field : String} {v : Value} (hv : v.Bounded) (h : w.write handle field v = .ok w') :
    w'.Bounded := by
  obtain ⟨writer, _, rfl⟩ := World.write_eq_ok h
  rw [World.put_eq_mapDevices]
  refine World.bounded_mapDevices _ fun d hd => ?_
  unfold World.written
  split
  · exact (hw d hd).insert hv _
  · exact hw d hd

/-- What is read from a bounded world is bounded. -/
theorem World.bounded_read {w : World} (hw : w.Bounded) {handle : Option String} {field : String}
    {found : FieldRead} {t : Trace} (h : w.read handle field = .ok (found, t)) :
    found.Bounded := by
  cases found with
  | missing => trivial
  | conflicting => trivial
  | found v =>
    obtain ⟨d, hd, hv⟩ := World.read_found h
    exact hw d hd _ v hv

namespace Memory

variable {device : Option String} {wired : Prop} {E : Fault → Prop}

/-- A read fails on a missing device only, and gives something bounded. -/
theorem keeps_read (hE : wired ∨ ∀ e, E (.device e)) (name : Name) :
    Action.Keeps (Fit device wired) E FieldRead.Bounded (read device name) := by
  intro m hm
  unfold read
  split
  · exact ⟨hm, hm.bounded.locals.getD _⟩
  · exact ⟨hm, Value.bounded_zero⟩
  · next w _ hw =>
    have hbounded := hm.bounded.world w hw
    split
    · exact ⟨hm, Value.bounded_zero⟩
    · next found t _ hread => exact ⟨hm, World.bounded_read hbounded hread⟩
    · next e hread =>
      refine ⟨hm, ?_⟩
      rcases hE with hwired | hdevice
      · obtain ⟨d, hd⟩ := hm.connected hwired w hw
        rw [World.read_of_resolve hd] at hread
        cases hread
      · exact hdevice e

/-- A write fails on a missing device only. -/
theorem keeps_write (hE : wired ∨ ∀ e, E (.device e)) (name : Name) {v : Value} (hv : v.Bounded) :
    Action.Keeps (Fit device wired) E (fun _ => True) (write device name v) := by
  intro m hm
  unfold write
  split
  · exact ⟨⟨⟨hm.bounded.locals.insert hv _, hm.bounded.world⟩, hm.connected⟩, trivial⟩
  · exact ⟨hm, trivial⟩
  · next w _ hw =>
    have hbounded := hm.bounded.world w hw
    split
    · next w' hwrite =>
      refine ⟨⟨⟨hm.bounded.locals, ?_⟩, ?_⟩, trivial⟩
      · rintro _ ⟨⟩
        exact World.bounded_write hbounded hv hwrite
      · rintro hwired _ ⟨⟩
        obtain ⟨w'', hw'', hregisters⟩ :=
          World.write_of_registers (hm.connected hwired w hw) name.key v
        obtain rfl := Except.ok.inj (hwrite.symm.trans hw'')
        exact hregisters
    · next e hwrite =>
      refine ⟨hm, ?_⟩
      rcases hE with hwired | hdevice
      · obtain ⟨w', hw', _⟩ := World.write_of_registers (hm.connected hwired w hw) name.key v
        cases hwrite.symm.trans hw'
      · exact hdevice e

/-- Writing a bounded value keeps a memory bounded, whether or not the write is refused. -/
theorem bounded_write {m : Memory} (hm : m.Bounded) (name : Name) {v : Value} (hv : v.Bounded) :
    (write device name v m).state.Bounded := by
  have hkeeps : Action.Keeps (Fit device False) (fun _ => True) _ (write device name v) :=
    keeps_write (.inr fun _ => trivial) name hv
  exact (hkeeps m ⟨hm, False.elim⟩).1.bounded

end Memory

/-! ### Expressions -/

section

variable {device : Option String} {wired : Prop} {E : Fault → Prop}

/-- A name has a bounded value, zero if nothing else. -/
theorem keeps_readName (hE : wired ∨ ∀ e, E (.device e)) (name : Name) :
    Action.Keeps (Memory.Fit device wired) E Value.Bounded (readName device name) := by
  refine (Memory.keeps_read hE name).bind fun found hfound => ?_
  cases found with
  | found v => exact Action.keeps_pure hfound
  | missing => exact Action.keeps_pure Value.bounded_zero
  | conflicting => exact Action.keeps_halt _

/-- Applying a symbol gives a bounded value, whatever the operands. -/
theorem Operator.keeps_applySymbol {σ : Type} {I : σ → Prop} {symbol : String}
    (h : (ofSymbol? symbol).isSome = true ∨ ∀ why, E (.internal why)) (a b : Value) :
    Action.Keeps I E Value.Bounded (applySymbol symbol a b : Action σ Value) := by
  unfold applySymbol
  split
  · next op _ => exact Action.keeps_ofEnding (op.meets_apply a b)
  · next hnone =>
    refine (Action.keeps_ofEnding a.meets_number).bind fun x _ => ?_
    refine (Action.keeps_ofEnding b.meets_number).bind fun y _ => ?_
    rcases h with h | h
    · rw [hnone] at h
      cases h
    · exact Action.keeps_fail (h _)

/-- An expression has a bounded value. It fails only if it is not well formed, or because of a
device that is not registered. -/
theorem keeps_evaluate (hE : wired ∨ ∀ e, E (.device e)) {e : Expr}
    (he : e.wellFormed = true ∨ ∀ why, E (.internal why)) :
    Action.Keeps (Memory.Fit device wired) E Value.Bounded (evaluate device e) := by
  induction e with
  | number text =>
    refine (Action.keeps_demand (he.imp_right fun h => h _)).bind fun a ha => ?_
    exact Action.keeps_pure (Number.bounded_ofLiteral? ha)
  | text s => exact Action.keeps_pure trivial
  | name name => exact keeps_readName hE name
  | binary group operator left right ihl ihr =>
    have hparts : (group.admits operator = true ∧ left.wellFormed = true ∧
        right.wellFormed = true) ∨ ∀ why, E (.internal why) :=
      he.imp_left fun h => by simpa [Expr.wellFormed, and_assoc] using h
    have hadmits : (group.admits? operator).isSome = true ∨ ∀ why, E (.internal why) :=
      hparts.imp_left fun h => by simp [Group.admits?, h.1]
    refine (Action.keeps_demand (hadmits.imp_right fun h => h _)).bind fun _ _ => ?_
    refine (ihl (hparts.imp_left (·.2.1))).bind fun a _ => ?_
    refine (ihr (hparts.imp_left (·.2.2))).bind fun b _ => ?_
    exact Operator.keeps_applySymbol (hparts.imp_left fun h => Group.isSome_ofSymbol? h.1) a b
  | keyword word operand ih =>
    have hparts : (Keyword.spellings.contains (Text.lower word) = true ∧
        operand.wellFormed = true) ∨ ∀ why, E (.internal why) :=
      he.imp_left fun h => Bool.and_eq_true_iff.1 h
    have hword := hparts.imp (fun h => Keyword.isSome_ofName? h.1) fun h => h (.unknownKeyword word)
    refine (Action.keeps_demand hword).bind fun keyword _ => ?_
    refine (ih (hparts.imp_left (·.2))).bind fun v _ => ?_
    exact Action.keeps_ofEnding (keyword.meets_apply v)
  | increment fixity operator operand ih =>
    have hparts : (incrementOperators.contains operator = true ∧ operand.wellFormed = true) ∨
        ∀ why, E (.internal why) :=
      he.imp_left fun h => Bool.and_eq_true_iff.1 h
    have hstep := hparts.imp (fun h => isSome_stepOf? h.1) fun h => h (.unknownIncrement operator)
    refine (Action.keeps_demand hstep).bind fun step hstep => ?_
    refine (ih (hparts.imp_left (·.2))).bind fun old hold => ?_
    refine (Action.keeps_ofEnding old.meets_number).bind fun a ha => ?_
    have hnew := succeeds_of_stepOf? hstep ha
    refine (Action.keeps_ofEnding (Ending.meets_ofArithmetic hnew)).bind fun new hnew => ?_
    have hwrite : Action.Keeps (Memory.Fit device wired) E (fun _ => True)
        (writeBack device operand (.num new)) := by
      cases operand with
      | name name => exact Memory.keeps_write hE name hnew
      | _ => exact Action.keeps_pure trivial
    refine hwrite.bind fun _ _ => Action.keeps_pure ?_
    -- The old value was read and never normalised: it is bounded because the memory is.
    cases fixity with
    | pre => exact hnew
    | post => exact hold

/-- A well-formed assignment of bounded values keeps the memory bounded. -/
theorem keeps_assign (hE : wired ∨ ∀ e, E (.device e)) (target : Name) {operator : String}
    {value : Expr} (h : (Stmt.assign target operator value).wellFormed = true ∨
      ∀ why, E (.internal why)) :
    Action.Keeps (Memory.Fit device wired) E (fun _ => True)
      (assign device target operator value) := by
  have hparts : (assignmentOperators.contains operator = true ∧ value.wellFormed = true) ∨
      ∀ why, E (.internal why) :=
    h.imp_left fun h => by simpa [Stmt.wellFormed] using h
  have hsymbol := hparts.imp (fun h => Assigning.isSome_ofSymbol? h.1)
    fun h => h (.unsupportedAssignment operator)
  refine (Action.keeps_demand hsymbol).bind fun assigning _ => ?_
  refine (keeps_evaluate hE (hparts.imp_left (·.2))).bind fun v hv => ?_
  have hcombine : Action.Keeps (Memory.Fit device wired) E Value.Bounded
      (assigning.combine device target v) := by
    cases assigning with
    | plain => exact Action.keeps_pure hv
    | compound op =>
      -- The target is read as an expression, and a name is always well formed.
      refine (keeps_evaluate hE (.inl rfl)).bind fun old _ => ?_
      exact Action.keeps_ofEnding (op.meets_apply old v)
  exact hcombine.bind fun new hnew => Memory.keeps_write hE target hnew

/-! ### Statements -/

theorem Machine.keeps_onMemory {α : Type} {I : Memory → Prop} {Q : α → Prop}
    {x : Action Memory α} (h : Action.Keeps I E Q x) :
    Action.Keeps (fun m : Machine => I m.memory) E Q (Machine.onMemory x) :=
  fun m hm => h m.memory hm

/-- Every line up to the limit has few enough digits to be written. -/
def WritesLines (limit : Int) : Prop :=
  limit < Binary64.pow10 Numeral.maxDigits

instance (limit : Int) : Decidable (WritesLines limit) :=
  inferInstanceAs (Decidable (limit < _))

/-- A goto to a bounded value never asks for a double that there is not, and it has a line unless it
halts. What is left is to write the line. -/
theorem keeps_gotoValue {I : Memory → Prop} {limit : Int}
    (hlimit : WritesLines limit ∨ E (.arithmetic (.tooManyDigits Numeral.maxDigits))) {v : Value}
    (hv : v.Bounded) :
    Action.Keeps (fun m : Machine => I m.memory) E (fun _ => True) (gotoValue limit v) := by
  cases v with
  | text s => exact Action.keeps_halt _
  | num a =>
    intro m hm
    rcases gotoValue_num_cases limit a m with ⟨why, hfloat, _⟩ |
      ⟨_, ⟨_, hrun⟩ | ⟨hnan, line, hline, ⟨hdigits, hrun⟩ | ⟨_, hrun⟩⟩⟩
    · obtain ⟨x, hx⟩ := Number.exists_toFloat hv
      cases hx.symm.trans hfloat
    · rw [hrun]
      exact ⟨hm, trivial⟩
    · rw [hrun]
      refine ⟨hm, hlimit.resolve_left fun hwrites => ?_⟩
      obtain ⟨line', hline', hlow, hhigh⟩ := exists_clampLine hnan limit
      obtain rfl := Except.ok.inj (hline.symm.trans hline')
      unfold WritesLines at hwrites
      have hone : 1 < Binary64.pow10 Numeral.maxDigits := by decide +kernel
      omega
    · rw [hrun]
      exact ⟨hm, trivial⟩

/-- Statements keep a fit memory. They fail only if one of them is not well formed, because of a
device that is not registered, or over a line that cannot be written. -/
theorem keeps_execute_and_executeBlock (hE : wired ∨ ∀ e, E (.device e)) {limit : Int}
    (hlimit : WritesLines limit ∨ E (.arithmetic (.tooManyDigits Numeral.maxDigits))) :
    (∀ s : Stmt, (s.wellFormed = true ∨ ∀ why, E (.internal why)) →
      Action.Keeps (fun m : Machine => m.memory.Fit device wired) E (fun _ => True)
        (execute device limit s)) ∧
    ∀ block : List Stmt, (blockWellFormed block = true ∨ ∀ why, E (.internal why)) →
      Action.Keeps (fun m : Machine => m.memory.Fit device wired) E (fun _ => True)
        (executeBlock device limit block) := by
  -- Where an expression stands, its value is bounded and the machine's memory stays fit.
  have heval {e : Expr} (he : e.wellFormed = true ∨ ∀ why, E (.internal why)) :
      Action.Keeps (fun m : Machine => m.memory.Fit device wired) E Value.Bounded
        (Machine.onMemory (evaluate device e)) :=
    Machine.keeps_onMemory (keeps_evaluate hE he)
  apply Stmt.mutual_induction
  case assign =>
    intro target operator value h
    exact Machine.keeps_onMemory (keeps_assign hE target h)
  case goto =>
    intro target h
    refine (heval (h.imp_left fun h => by rwa [Stmt.wellFormed] at h)).bind fun v hv => ?_
    exact keeps_gotoValue hlimit hv
  case branch =>
    intro condition body ihBody h
    have hparts : (condition.wellFormed = true ∧ blockWellFormed body = true) ∨
        ∀ why, E (.internal why) :=
      h.imp_left fun h => by simpa [Stmt.wellFormed] using h
    refine (heval (hparts.imp_left (·.1))).bind fun v _ => ?_
    split
    · exact Action.keeps_pure trivial
    · exact ihBody (hparts.imp_left (·.2))
  case branchElse =>
    intro condition body other ihBody ihOther h
    have hparts : (condition.wellFormed = true ∧ blockWellFormed body = true ∧
        blockWellFormed other = true) ∨ ∀ why, E (.internal why) :=
      h.imp_left fun h => by simpa [Stmt.wellFormed, and_assoc] using h
    refine (heval (hparts.imp_left (·.1))).bind fun v _ => ?_
    split
    · exact ihOther (hparts.imp_left (·.2.2))
    · exact ihBody (hparts.imp_left (·.2.1))
  case comment =>
    intro text _
    exact Action.keeps_pure trivial
  case increment =>
    intro fixity operator operand h
    refine (heval (h.imp_left fun h => by rwa [Stmt.wellFormed] at h)).bind fun _ _ => ?_
    exact Action.keeps_pure trivial
  case nil =>
    intro _
    exact Action.keeps_pure trivial
  case cons =>
    intro s rest ihs ihrest h
    have hparts : (s.wellFormed = true ∧ blockWellFormed rest = true) ∨
        ∀ why, E (.internal why) :=
      h.imp_left fun h => by simpa [blockWellFormed] using h
    exact (ihs (hparts.imp_left (·.1))).bind fun _ _ => ihrest (hparts.imp_left (·.2))

end

end ChipScript
