import ChipScript.Proofs.Bounds

/-!
# What operators make of values

Each of the twelve operators takes any two values, and either answers or halts with a mistake of the
script (`operators_answer_or_halt`). There are three kinds of them.

* Equality and its negation always answer.
* The orderings halt if one value is a text and the other is not.
* The rest is arithmetic, unless a sum joins texts. Here an operand that stands for no number comes
  first, and a divisor that is zero second (`Operator.Arithmetic`).

No operand of arithmetic is beyond the doubles, since coercion normalises it. So converting it,
which could fail otherwise, does not.
-/

namespace ChipScript

namespace Operator

/-! ### Applying an operator by its symbol -/

def symbol : Operator → String
  | power => "^"
  | times => "*"
  | divide => "/"
  | modulo => "%"
  | plus => "+"
  | minus => "-"
  | equal => "=="
  | unequal => "!="
  | greater => ">"
  | atLeast => ">="
  | less => "<"
  | atMost => "<="

/-- Every operator is found by its symbol. -/
theorem ofSymbol?_symbol (op : Operator) : ofSymbol? op.symbol = some op := by
  cases op <;> decide +kernel

/-- The run of an operator on two values. -/
def on {σ : Type} (op : Operator) (a b : Value) (s : σ) : Run σ Value :=
  applySymbol op.symbol a b s

section

variable {σ : Type} {op : Operator} {a b v : Value} {s : σ} {why : ScriptError}

theorem on_eq (op : Operator) (a b : Value) (s : σ) :
    op.on a b s = Action.ofEnding (op.apply a b) s := by
  rw [on, applySymbol, ofSymbol?_symbol]

/-- No operator fails: it answers or halts. -/
theorem apply_ne_failed (op : Operator) (a b : Value) (why : Fault) :
    op.apply a b ≠ .failed why :=
  Ending.Meets.ne_failed (meets_apply op a b) why

/-- An operator does nothing but answer, or halt with one report. -/
theorem on_cases (op : Operator) (a b : Value) (s : σ) :
    (∃ v, op.on a b s = ⟨.done v, s, []⟩) ∨
      ∃ why, op.on a b s = ⟨.halted why, s, [.halting why]⟩ := by
  rw [on_eq]
  cases h : op.apply a b with
  | done v => exact .inl ⟨v, rfl⟩
  | halted why => exact .inr ⟨why, rfl⟩
  | failed why => exact absurd h (op.apply_ne_failed a b why)

/-- What an operator comes to does not depend on the state. -/
theorem ending_on (op : Operator) (a b : Value) (s : σ) :
    (op.on a b s).ending = op.apply a b := by
  rw [on_eq]
  cases op.apply a b <;> rfl

end

/-! ### Orderings -/

section

variable {a b : Value} {op : Operator}

def orderings : List Operator :=
  [greater, atLeast, less, atMost]

theorem apply_of_mem_orderings (h : op ∈ orderings) (a b : Value) :
    ∃ orders, op.apply a b = inOrder orders a b := by
  simp only [orderings, List.mem_cons, List.not_mem_nil, or_false] at h
  rcases h with rfl | rfl | rfl | rfl <;> exact ⟨_, rfl⟩

/-- A number and a text are in no order. -/
theorem inOrder_of_mixed (orders : List Ordering) (h : a.isText ≠ b.isText) :
    inOrder orders a b = .halted .mixedComparison := by
  cases a <;> cases b
  · exact absurd rfl h
  · rfl
  · rfl
  · exact absurd rfl h

theorem inOrder_of_same_kind (orders : List Ordering) (h : a.isText = b.isText) :
    ∃ c, inOrder orders a b = .done (.ofBool c) := by
  cases a <;> cases b
  · exact ⟨_, rfl⟩
  · cases h
  · cases h
  · exact ⟨_, rfl⟩

/-- An ordering halts on a number and a text, and on nothing else. -/
theorem apply_ordering_eq_halted_iff (h : op ∈ orderings) :
    op.apply a b = .halted .mixedComparison ↔ a.isText ≠ b.isText := by
  obtain ⟨orders, happly⟩ := apply_of_mem_orderings h a b
  rw [happly]
  by_cases hkind : a.isText = b.isText
  · obtain ⟨c, hc⟩ := inOrder_of_same_kind orders hkind
    simp [hc, hkind]
  · simp [inOrder_of_mixed orders hkind, hkind]

theorem exists_apply_ordering (h : op ∈ orderings) (hkind : a.isText = b.isText) :
    ∃ c, op.apply a b = .done (.ofBool c) := by
  obtain ⟨orders, happly⟩ := apply_of_mem_orderings h a b
  rw [happly]
  exact inOrder_of_same_kind orders hkind

/-! ### Arithmetic -/

/-- The operator takes the values as numbers: it is no comparison, and no sum that joins texts. -/
def Computes (op : Operator) (a b : Value) : Prop :=
  op ∈ [power, times, divide, modulo, minus] ∨ op = plus ∧ a.isText = false ∧ b.isText = false

/-- The mistake that a divisor of zero is to an operator, if it divides. -/
def zeroDivisor? : Operator → Option ScriptError
  | divide => some .divisionByZero
  | modulo => some .moduloByZero
  | _ => none

/-- What an operator does with numbers: it halts for a divisor of zero and for nothing else, and its
quotients and powers are doubles. -/
structure Arithmetic (op : Operator) (f : Number → Number → Ending Number) : Prop where
  halted_iff (x y : Number) (why : ScriptError) :
    f x y = .halted why ↔ op.zeroDivisor? = some why ∧ y.IsZero
  float {x y z : Number} (h : f x y = .done z) (hop : op = divide ∨ op = power) : ∃ u, z = .float u

theorem ofArithmetic_ne_halted {α : Type} (r : Except ArithmeticError α) (why : ScriptError) :
    Ending.ofArithmetic r ≠ .halted why := by
  cases r <;> exact nofun

theorem ofArithmetic_eq_done_iff {α : Type} {r : Except ArithmeticError α} {z : α} :
    Ending.ofArithmetic r = .done z ↔ r = .ok z := by
  cases r <;> simp [Ending.ofArithmetic]

/-- The quotient is a double, whatever is divided. -/
theorem exists_float_of_div {x y z : Number} (h : x.div y = .ok z) : ∃ u, z = .float u := by
  unfold Number.div Number.combine at h
  split at h
  · dsimp only at h
    split at h
    · cases h
    · split at h <;> cases h
      exact ⟨_, rfl⟩
  · obtain ⟨u, _, h⟩ := exists_of_bind_eq_ok h
    obtain ⟨v, _, h⟩ := exists_of_bind_eq_ok h
    dsimp only at h
    split at h <;> cases h
    exact ⟨_, rfl⟩

/-- A power is a double. -/
theorem exists_float_of_power {x y z : Number} (h : x.power y = .ok z) : ∃ u, z = .float u := by
  obtain ⟨u, _, h⟩ := exists_of_bind_eq_ok h
  obtain ⟨v, _, h⟩ := exists_of_bind_eq_ok h
  cases h
  exact ⟨_, rfl⟩

theorem arithmetic_unguarded {f : Number → Number → Except ArithmeticError Number}
    (hop : op.zeroDivisor? = none)
    (hfloat : op = power → ∀ {x y z}, f x y = .ok z → ∃ u, z = .float u) :
    op.Arithmetic (unguarded f) where
  halted_iff x y why := by
    simp [hop, unguarded, ofArithmetic_ne_halted]
  float := by
    rintro x y z h (rfl | rfl)
    · cases hop
    · exact hfloat rfl (ofArithmetic_eq_done_iff.1 h)

theorem arithmetic_guarded {f : Number → Number → Except ArithmeticError Number}
    {why : ScriptError} (hop : op.zeroDivisor? = some why)
    (hfloat : op = divide → ∀ {x y z}, f x y = .ok z → ∃ u, z = .float u) :
    op.Arithmetic (guarded why f) where
  halted_iff x y why' := by
    rw [guarded, ← Number.isZero_iff, hop]
    split
    · next hzero => simp [hzero]
    · next hzero => simp [hzero, ofArithmetic_ne_halted]
  float := by
    rintro x y z h (rfl | rfl)
    · unfold guarded at h
      split at h
      · cases h
      · exact hfloat rfl (ofArithmetic_eq_done_iff.1 h)
    · cases hop

/-- What computes takes both operands as numbers and does arithmetic with them. -/
theorem apply_of_computes (h : op.Computes a b) :
    ∃ f, op.Arithmetic f ∧ op.apply a b = onNumbers f a b := by
  simp only [Computes, List.mem_cons, List.not_mem_nil, or_false] at h
  rcases h with (rfl | rfl | rfl | rfl | rfl) | ⟨rfl, ha, hb⟩
  · exact ⟨_, arithmetic_unguarded rfl fun _ => exists_float_of_power, rfl⟩
  · exact ⟨_, arithmetic_unguarded rfl nofun, rfl⟩
  · exact ⟨_, arithmetic_guarded rfl fun _ => exists_float_of_div, rfl⟩
  · exact ⟨_, arithmetic_guarded rfl nofun, rfl⟩
  · exact ⟨_, arithmetic_unguarded rfl nofun, rfl⟩
  · refine ⟨unguarded Number.add, arithmetic_unguarded rfl nofun, ?_⟩
    rw [apply, ha, hb]
    rfl

/-- Arithmetic halts on a text that is no number. -/
theorem onNumbers_of_no_number {f : Number → Number → Ending Number}
    (h : a.toNumber? = none ∨ b.toNumber? = none) :
    onNumbers f a b = .halted .textArithmetic := by
  unfold onNumbers Value.number
  rcases h with h | h
  · rw [h]
    rfl
  · rw [h]
    cases a.toNumber? <;> rfl

theorem onNumbers_of_numbers {x y : Number} (hx : a.toNumber? = some x)
    (hy : b.toNumber? = some y) (f : Number → Number → Ending Number) :
    onNumbers f a b = do return .num (← f x y) := by
  unfold onNumbers Value.number
  rw [hx, hy]
  rfl

/-- On numbers an operator halts for a divisor that is zero, and for nothing else. -/
theorem apply_eq_halted_iff_of_numbers (h : op.Computes a b) {x y : Number}
    (hx : a.toNumber? = some x) (hy : b.toNumber? = some y) (why : ScriptError) :
    op.apply a b = .halted why ↔ op.zeroDivisor? = some why ∧ y.IsZero := by
  obtain ⟨f, hf, happly⟩ := apply_of_computes h
  rw [happly, onNumbers_of_numbers hx hy, ← hf.halted_iff x]
  cases f x y with
  | done z => exact ⟨nofun, nofun⟩
  | halted why' =>
    -- The same mistake halts both, though one has numbers for results and the other values.
    show (Ending.halted why' : Ending Value) = .halted why ↔ _
    simp
  | failed why' => exact ⟨nofun, nofun⟩

/-- A text that is no number comes before everything else. -/
theorem apply_eq_textArithmetic_iff (h : op.Computes a b) :
    op.apply a b = .halted .textArithmetic ↔ a.toNumber? = none ∨ b.toNumber? = none := by
  constructor
  · intro hhalted
    cases hx : a.toNumber? with
    | none => exact .inl rfl
    | some x =>
      cases hy : b.toNumber? with
      | none => exact .inr rfl
      | some y =>
        -- With two numbers the only mistake left is a divisor.
        have hdivisor := ((apply_eq_halted_iff_of_numbers h hx hy _).1 hhalted).1
        cases op <;> cases hdivisor
  · intro hnone
    obtain ⟨f, _, happly⟩ := apply_of_computes h
    rw [happly, onNumbers_of_no_number hnone]

/-- Unless they are divided by zero, numbers have a result; that of division or power is a double.
-/
theorem exists_apply_of_numbers (h : op.Computes a b) {x y : Number} (hx : a.toNumber? = some x)
    (hy : b.toNumber? = some y) (hdivisor : op.zeroDivisor? = none ∨ ¬ y.IsZero) :
    ∃ z, op.apply a b = .done (.num z) ∧ (op = divide ∨ op = power → ∃ u, z = .float u) := by
  obtain ⟨f, hf, happly⟩ := apply_of_computes h
  have hnever := op.apply_ne_failed a b
  rw [happly, onNumbers_of_numbers hx hy] at hnever ⊢
  cases hxy : f x y with
  | done z => exact ⟨z, rfl, hf.float hxy⟩
  | halted why =>
    obtain ⟨hsome, hzero⟩ := (hf.halted_iff x y why).1 hxy
    rcases hdivisor with hnone | hne
    · cases hnone.symm.trans hsome
    · exact absurd hzero hne
  | failed why =>
    rw [hxy] at hnever
    exact absurd rfl (hnever why)

end

end Operator

open Operator in
/-- Every operator answers, or halts with one report and changes nothing. Equality and its negation
give opposite answers. An ordering halts just for a text beside a number. A sum with a text joins
texts. All other arithmetic halts just for an operand that stands for no number and then for a
divisor that is zero; otherwise it answers with a number, for quotients and powers a double. -/
theorem operators_answer_or_halt {σ : Type} (a b : Value) (s : σ) :
    (∀ op : Operator, (∃ v, op.on a b s = ⟨.done v, s, []⟩) ∨
      ∃ why, op.on a b s = ⟨.halted why, s, [.halting why]⟩) ∧
    (∃ c : Bool, (equal.on a b s).ending = .done (.ofBool c) ∧
      (unequal.on a b s).ending = .done (.ofBool !c)) ∧
    (∀ op ∈ orderings, ((op.on a b s).ending = .halted .mixedComparison ↔ a.isText ≠ b.isText) ∧
      (a.isText = b.isText → ∃ c : Bool, (op.on a b s).ending = .done (.ofBool c))) ∧
    (a.isText = true ∨ b.isText = true →
      (plus.on a b s).ending = .done (.text (a.toText ++ b.toText))) ∧
    ∀ op : Operator, op.Computes a b →
      ((op.on a b s).ending = .halted .textArithmetic ↔
        a.toNumber? = none ∨ b.toNumber? = none) ∧
      ∀ x y, a.toNumber? = some x → b.toNumber? = some y →
        (∃ u, x.toFloat = .ok u) ∧ (∃ u, y.toFloat = .ok u) ∧
        (∀ why, (op.on a b s).ending = .halted why ↔ op.zeroDivisor? = some why ∧ y.IsZero) ∧
        (op.zeroDivisor? = none ∨ ¬ y.IsZero → ∃ z, (op.on a b s).ending = .done (.num z) ∧
          (op = divide ∨ op = power → ∃ u, z = .float u)) := by
  simp only [ending_on]
  refine ⟨fun op => op.on_cases a b s, ⟨a.equal b, rfl, rfl⟩, fun op hop => ?_, fun htext => ?_,
    fun op hop => ⟨apply_eq_textArithmetic_iff hop, fun x y hx hy => ?_⟩⟩
  · exact ⟨apply_ordering_eq_halted_iff hop, exists_apply_ordering hop⟩
  · rw [apply, if_pos (by simpa using htext), join_eq]
  · exact ⟨Number.exists_toFloat (Value.bounded_toNumber? hx),
      Number.exists_toFloat (Value.bounded_toNumber? hy),
      apply_eq_halted_iff_of_numbers hop hx hy, exists_apply_of_numbers hop hx hy⟩

open Operator in
/-- A zero in words stops a division, but a dividend that is no number stops it first. -/
theorem written_zero_stops_division :
    divide.Computes (.int 7) (.text " -0.0\n") ∧
      (divide.on (.int 7) (.text " -0.0\n") ()).ending = .halted .divisionByZero ∧
      (divide.on (.text "seven") (.text " -0.0\n") ()).ending = .halted .textArithmetic := by
  have hcomputes (a : Value) : divide.Computes a (.text " -0.0\n") := .inl (by decide)
  have hseven : (Value.int 7).toNumber? = some (.int 7) := by decide +kernel
  have hzero : (Value.text " -0.0\n").toNumber? = some (.float (Binary64.zero true)) := by
    decide +kernel
  have hword : (Value.text "seven").toNumber? = none := by decide +kernel
  obtain ⟨_, _, _, _, hdivide⟩ := operators_answer_or_halt (.int 7) (.text " -0.0\n") ()
  obtain ⟨_, _, _, _, hrefuse⟩ := operators_answer_or_halt (.text "seven") (.text " -0.0\n") ()
  obtain ⟨_, _, hdivisor, _⟩ := (hdivide divide (hcomputes _)).2 _ _ hseven hzero
  exact ⟨hcomputes _, (hdivisor _).2 ⟨rfl, .inr (.inr rfl)⟩,
    (hrefuse divide (hcomputes _)).1.2 (.inl hword)⟩

end ChipScript
