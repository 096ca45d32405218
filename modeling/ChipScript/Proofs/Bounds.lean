import ChipScript.Proofs.Actions
import ChipScript.Proofs.Arithmetic

/-!
# What is made of values

Whatever an operator, a keyword or an increment gets, bounded or not, what it gives is bounded, and
it never fails: every value that arithmetic takes is normalised first, and no divisor of zero is
given to a division. `Ending.Meets` says both at once, and there is one lemma for each of the things
that an expression can make of values.

A goto takes its target as it is. What it may come to is said once, in `gotoValue_num_cases`: two of
the four outcomes are failures, over an integer beyond the doubles and over a line with too many
digits.
-/

namespace ChipScript

/-- The ending is a result that satisfies `Q`, a halt, or a fault that satisfies `E`. -/
def Ending.Meets {α : Type} (E : Fault → Prop) (Q : α → Prop) : Ending α → Prop
  | done a => Q a
  | halted _ => True
  | failed why => E why

namespace Ending

variable {α β : Type} {E : Fault → Prop} {Q : α → Prop} {R : β → Prop}

/-- Endings in sequence meet what the last one has to, if each meets what the next one needs. -/
theorem Meets.bind {x : Ending α} {f : α → Ending β} (hx : x.Meets E Q)
    (hf : ∀ a, Q a → (f a).Meets E R) : (x >>= f).Meets E R := by
  cases x with
  | done a => exact hf a hx
  | halted why => trivial
  | failed why => exact hx

theorem Meets.of_done {x : Ending α} {a : α} (hx : x.Meets E Q) (h : x = .done a) : Q a := by
  subst h
  exact hx

/-- If no fault is allowed there is none. -/
theorem Meets.ne_failed {x : Ending α} (hx : x.Meets (fun _ => False) Q) (why : Fault) :
    x ≠ .failed why := by
  rintro rfl
  exact hx

theorem meets_ofArithmetic {r : Except ArithmeticError Number} (h : Number.Succeeds r) :
    (ofArithmetic r).Meets E Number.Bounded := by
  obtain ⟨a, rfl, ha⟩ := h
  exact ha

end Ending

/-! ### Values -/

namespace Value

/-- A text or a bounded number. -/
def Bounded : Value → Prop
  | num a => a.Bounded
  | text _ => True

instance : DecidablePred Bounded
  | num a => inferInstanceAs (Decidable a.Bounded)
  | text _ => inferInstanceAs (Decidable True)

theorem bounded_zero : (int 0).Bounded := by
  decide

theorem bounded_ofBool (b : Bool) : (ofBool b).Bounded := by
  cases b <;> decide

/-- The number that a value stands for is bounded, whatever the value. -/
theorem bounded_toNumber? {v : Value} {a : Number} (h : v.toNumber? = some a) : a.Bounded := by
  cases v with
  | num b =>
    rw [toNumber?] at h
    obtain rfl := Option.some.inj h
    exact Number.bounded_normalize b
  | text s =>
    rw [toNumber?] at h
    exact Number.bounded_ofText? h

/-- Every value can be written. -/
theorem write_eq (v : Value) : v.write = .ok v.toText := by
  cases v with
  | num a => exact a.write_eq
  | text s => rfl

/-- A value is coerced to a bounded number or halts. -/
theorem meets_number {E : Fault → Prop} (v : Value) : v.number.Meets E Number.Bounded := by
  unfold number
  split
  · next h => exact bounded_toNumber? h
  · trivial

end Value

/-! ### Operators -/

namespace Operator

variable {E : Fault → Prop}

/-- An operator gets bounded numbers, whatever its operands are. -/
theorem meets_onNumbers {op : Number → Number → Ending Number}
    (hop : ∀ x y : Number, x.Bounded → y.Bounded → (op x y).Meets E Number.Bounded)
    (a b : Value) : (onNumbers op a b).Meets E Value.Bounded := by
  refine a.meets_number.bind fun x hx => b.meets_number.bind fun y hy => ?_
  exact (hop x y hx hy).bind fun z hz => hz

/-- Only numbers that are not zero are divided by. -/
theorem meets_guarded {why : ScriptError} {op : Number → Number → Except ArithmeticError Number}
    {x y : Number} (h : y.isZero = false → Number.Succeeds (op x y)) :
    (guarded why op x y).Meets E Number.Bounded := by
  unfold guarded
  split
  · trivial
  · next hzero => exact Ending.meets_ofArithmetic (h (Bool.eq_false_iff.2 hzero))

/-- Comparing in order gives a truth value or halts. -/
theorem meets_inOrder (orders : List Ordering) (a b : Value) :
    (inOrder orders a b).Meets E Value.Bounded := by
  have horder : (order a b).Meets E fun _ => True := by
    unfold order
    split <;> trivial
  exact horder.bind fun _ _ => Value.bounded_ofBool _

/-- Joining never fails, as every value can be written. -/
theorem join_eq (a b : Value) : join a b = .done (.text (a.toText ++ b.toText)) := by
  rw [join, a.write_eq, b.write_eq]
  rfl

/-- An operator never fails, and its result is bounded, whatever the operands. -/
theorem meets_apply (op : Operator) (a b : Value) : (op.apply a b).Meets E Value.Bounded := by
  cases op with
  | power =>
    refine meets_onNumbers (fun x y hx hy => ?_) a b
    exact Ending.meets_ofArithmetic (Number.power_succeeds hx hy)
  | times =>
    refine meets_onNumbers (fun x y hx hy => ?_) a b
    exact Ending.meets_ofArithmetic (Number.mul_succeeds hx hy)
  | divide =>
    refine meets_onNumbers (fun x y hx hy => ?_) a b
    exact meets_guarded (Number.div_succeeds_iff hx hy).2
  | modulo =>
    refine meets_onNumbers (fun x y hx hy => ?_) a b
    exact meets_guarded (Number.mod_succeeds_iff hx hy).2
  | plus =>
    rw [apply]
    split
    · rw [join_eq]
      trivial
    · refine meets_onNumbers (fun x y hx hy => ?_) a b
      exact Ending.meets_ofArithmetic (Number.add_succeeds hx hy)
  | minus =>
    refine meets_onNumbers (fun x y hx hy => ?_) a b
    exact Ending.meets_ofArithmetic (Number.sub_succeeds hx hy)
  | equal | unequal => exact Value.bounded_ofBool _
  | greater | atLeast | less | atMost => exact meets_inOrder _ a b

end Operator

/-! ### Keywords and increments -/

/-- A keyword never fails, and its result is bounded too. -/
theorem Keyword.meets_apply {E : Fault → Prop} (keyword : Keyword) (v : Value) :
    (keyword.apply v).Meets E Value.Bounded := by
  cases keyword with
  | not => exact Value.bounded_ofBool _
  | math keyword => exact v.meets_number.bind fun a ha => keyword.bounded_apply ha

/-- An increment takes every bounded number to a bounded one. -/
theorem succeeds_of_stepOf? {operator : String} {step : Number → Except ArithmeticError Number}
    (h : stepOf? operator = some step) {a : Number} (ha : a.Bounded) :
    Number.Succeeds (step a) := by
  have hone : (Number.int 1).Bounded := by decide
  unfold stepOf? at h
  split at h
  · cases h
    exact Number.add_succeeds ha hone
  · split at h
    · cases h
      exact Number.sub_succeeds ha hone
    · cases h

/-! ### Gotos -/

/-- Any number but NaN has a line, from one to the limit. -/
theorem exists_clampLine {a : Number} (h : a.isNaN = false) (limit : Int) :
    ∃ line, clampLine limit a = .ok line ∧ 1 ≤ line ∧ line ≤ max 1 limit := by
  have hone : (0 : Int) < Binary64.one := by decide +kernel
  unfold clampLine
  split
  · exact ⟨1, rfl, by omega, by omega⟩
  · split
    · exact ⟨max 1 limit, rfl, by omega, by omega⟩
    · next hpositive hsmall =>
      unfold Number.isNaN at h
      unfold Number.compare? at hpositive hsmall
      unfold Number.floor
      cases hexact : a.exact with
      | nan => exact absurd (decide_eq_true hexact) (Bool.eq_false_iff.1 h)
      | infinity =>
        rw [hexact] at hsmall
        exact absurd rfl hsmall
      | negInfinity =>
        rw [hexact] at hpositive
        exact absurd List.mem_cons_self hpositive
      | finite u =>
        -- What is not above the limit in units is not above it in whole lines.
        have hle : u ≤ limit * Binary64.one := by
          rw [hexact] at hsmall
          have hnot : compare u (limit * Binary64.one) ≠ .gt := mt (congrArg some) hsmall
          exact Int.not_lt.1 (mt compare_gt_iff_gt.2 hnot)
        have hdiv : u / (Binary64.one : Int) ≤ limit := Int.ediv_le_of_le_mul hone hle
        exact ⟨max 1 (u / Binary64.one), rfl, by omega, by omega⟩

/-- To ask the double whether it is NaN is to ask the number. -/
theorem gotoValue_of_toFloat {a : Number} {x : Float} (h : a.toFloat = .ok x) (limit : Int) :
    gotoValue limit (.num a) =
      if a.isNaN then .halt .invalidGoto
      else (do
        let line ← .ofEnding (.ofArithmetic (clampLine limit a))
        let text ← .ofEnding (.ofArithmetic (Numeral.write line))
        .tell (.jump line text)
        Machine.jump line) := by
  rw [gotoValue, h, ← Number.isNaN_toFloat h]
  rfl

/-- What a goto to a number comes to. It fails if the number is an integer beyond the doubles, halts
if it is NaN, and otherwise goes to the line of the number, unless that has too many digits to be
written. -/
theorem gotoValue_num_cases (limit : Int) (a : Number) (m : Machine) :
    (∃ why, a.toFloat = .error why ∧
      gotoValue limit (.num a) m = ⟨.failed (.arithmetic why), m, []⟩) ∨
    (∃ x, a.toFloat = .ok x) ∧
      (a.isNaN = true ∧
        gotoValue limit (.num a) m = ⟨.halted .invalidGoto, m, [.halting .invalidGoto]⟩ ∨
      a.isNaN = false ∧ ∃ line, clampLine limit a = .ok line ∧
        (Binary64.pow10 Numeral.maxDigits ≤ line.natAbs ∧
          gotoValue limit (.num a) m =
            ⟨.failed (.arithmetic (.tooManyDigits Numeral.maxDigits)), m, []⟩ ∨
        line.natAbs < Binary64.pow10 Numeral.maxDigits ∧
          gotoValue limit (.num a) m =
            ⟨.done (), { m with line := line - 1 }, [.jump line (toString line)]⟩)) := by
  cases hfloat : a.toFloat with
  | error why =>
    refine .inl ⟨why, rfl, ?_⟩
    rw [gotoValue, hfloat]
    rfl
  | ok x =>
    refine .inr ⟨⟨x, rfl⟩, ?_⟩
    cases hnan : a.isNaN with
    | true =>
      refine .inl ⟨rfl, ?_⟩
      rw [gotoValue_of_toFloat hfloat, hnan]
      rfl
    | false =>
      obtain ⟨line, hline, _⟩ := exists_clampLine hnan limit
      have hgoto : gotoValue limit (.num a) =
          Action.ofEnding (.ofArithmetic (Numeral.write line)) >>= fun text =>
            .tell (.jump line text) >>= fun _ => Machine.jump line := by
        rw [gotoValue_of_toFloat hfloat, hnan, hline, if_neg Bool.false_ne_true]
        exact Action.pure_bind line _
      refine .inr ⟨rfl, line, hline, ?_⟩
      rw [hgoto]
      by_cases hdigits : line.natAbs < Binary64.pow10 Numeral.maxDigits
      · have hwrite : Numeral.write line = .ok (toString line) := if_pos hdigits
        refine .inr ⟨hdigits, ?_⟩
        rw [hwrite]
        rfl
      · have hwrite : Numeral.write line = .error (.tooManyDigits Numeral.maxDigits) :=
          if_neg hdigits
        refine .inl ⟨Nat.not_lt.1 hdigits, ?_⟩
        rw [hwrite]
        rfl

end ChipScript
