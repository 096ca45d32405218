import ChipScript.Proofs.Orderings

/-!
# Normalising keeps order

An integer outside `±2 ^ 53` takes part in arithmetic as the nearest double, which is infinite where
the rounded integer is beyond the largest one. So three kinds of numbers meet: exact integers,
rounded doubles and infinities. What they have in common is that the value is always that of the
correctly rounded integer (`exact_normalize_int`), because an integer within `±2 ^ 53` needs no
rounding. Rounding keeps order, and so does normalising (`normalizing_never_inverts_order`).
-/

namespace ChipScript

namespace Binary64

/-! ### The value of a rounded integer -/

/-- The double nearest to an integer has its sign. -/
theorem isNegative_ofInt (n : ℤ) : isNegative (ofInt n) = decide (n < 0) := by
  have hone : (0 : ℤ) < one := Int.natCast_pos.2 (pow2_pos _)
  rw [ofInt, ofUnits, isNegative_ofMagnitude _ (nearestBits_le _ _), decide_eq_decide, mul_neg_iff]
  simp only [hone, hone.not_gt, and_false, and_true, false_or]

/-- The units of an integer, rounded. -/
def roundedUnits (n : ℤ) : ℤ :=
  if n < 0 then -(rounded (n.natAbs * one) : ℤ) else rounded (n.natAbs * one)

/-- Rounding keeps the order of integers. -/
theorem roundedUnits_mono : Monotone roundedUnits := by
  intro a b hab
  have hrounded {a b : ℤ} (h : a.natAbs ≤ b.natAbs) :
      rounded (a.natAbs * one) ≤ rounded (b.natAbs * one) :=
    rounded_mono (Nat.mul_le_mul_right one h)
  unfold roundedUnits
  split <;> split
  · have := hrounded (show b.natAbs ≤ a.natAbs by omega)
    omega
  · omega
  · omega
  · have := hrounded (show a.natAbs ≤ b.natAbs by omega)
    omega

/-- The value that rounded units come to: an infinity beyond the largest double. -/
def Exact.ofRounded (u : ℤ) : Exact :=
  if largest < u then .infinity else if u < -largest then .negInfinity else .finite u

section

variable {u v : ℤ}

theorem Exact.ofRounded_of_lt (h : largest < u) : ofRounded u = .infinity :=
  if_pos h

theorem Exact.ofRounded_of_lt_neg (h : u < -largest) : ofRounded u = .negInfinity := by
  rw [ofRounded, if_neg (by omega), if_pos h]

theorem Exact.ofRounded_of_natAbs_le (h : u.natAbs ≤ largest) : ofRounded u = .finite u := by
  rw [ofRounded, if_neg (by omega), if_neg (by omega)]

theorem Exact.lt_of_ofRounded_eq_infinity (h : ofRounded u = .infinity) : largest < u := by
  unfold ofRounded at h
  split at h
  · assumption
  · split at h <;> cases h

theorem Exact.lt_neg_of_ofRounded_eq_negInfinity (h : ofRounded u = .negInfinity) :
    u < -largest := by
  unfold ofRounded at h
  split at h
  · cases h
  · split at h
    · assumption
    · cases h

/-- A rounded integer has a value, which may be infinite. -/
theorem Exact.exists_value?_ofRounded (u : ℤ) : ∃ x, (ofRounded u).value? = some x := by
  unfold ofRounded
  split
  · exact ⟨_, rfl⟩
  · split <;> exact ⟨_, rfl⟩

/-- A larger number of units does not come to a smaller value. -/
theorem Exact.value?_ofRounded_le (h : u ≤ v) :
    ∃ x y, (ofRounded u).value? = some x ∧ (ofRounded v).value? = some y ∧ x ≤ y := by
  obtain ⟨x, hx⟩ := exists_value?_ofRounded u
  obtain ⟨y, hy⟩ := exists_value?_ofRounded v
  refine ⟨x, y, hx, hy, ?_⟩
  by_cases hv : largest < v
  · rw [ofRounded_of_lt hv] at hy
    cases hy
    exact le_top
  · by_cases hu : u < -largest
    · rw [ofRounded_of_lt_neg hu] at hx
      cases hx
      exact bot_le
    · rw [ofRounded_of_natAbs_le (by omega)] at hx hy
      cases hx
      cases hy
      exact Extended.strictMono_ofUnits.monotone h

end

/-- The nearest double to an integer has the rounded value, or is infinite where that is beyond the
largest double. -/
theorem exact_ofInt (n : ℤ) : exact (ofInt n) = .ofRounded (roundedUnits n) := by
  have hmagnitude := magnitude_ofInt n
  rw [nearestBits_eq_min] at hmagnitude
  unfold exact
  rw [hmagnitude, isNegative_ofInt]
  unfold roundedUnits
  simp only [decide_eq_true_eq]
  by_cases hfinite : roundedBits (n.natAbs * one) < infinityBits
  · have hle := (roundedBits_lt_iff _).1 hfinite
    rw [min_eq_left hfinite.le, if_pos hfinite, units_roundedBits,
      Exact.ofRounded_of_natAbs_le (by split <;> omega)]
  · have hlarge := mt (roundedBits_lt_iff _).2 hfinite
    rw [min_eq_right (not_lt.1 hfinite), if_neg (lt_irrefl _), if_pos rfl]
    split
    · rw [Exact.ofRounded_of_lt_neg (by omega)]
    · rw [Exact.ofRounded_of_lt (by omega)]

/-- An integer is rounded by its magnitude. -/
theorem ofInt_eq (n : ℤ) : ofInt n = ofMagnitude (n < 0) (nearestBits (n.natAbs * one) 1) := by
  have hbits := magnitude_ofInt n
  rw [← hbits, ← isNegative_ofInt, ofMagnitude_magnitude (hbits.trans_le (nearestBits_le _ _))]

/-- Rounding goes the same way on both sides of zero. -/
theorem ofInt_neg {n : ℤ} (hn : n ≠ 0) : ofInt (-n) = -ofInt n := by
  have hsign : decide (-n < 0) = !decide (n < 0) := by
    rw [← decide_not, decide_eq_decide]
    omega
  rw [ofInt_eq, ofInt_eq n, neg_ofMagnitude _ (nearestBits_le _ _), Int.natAbs_neg, hsign]

end Binary64

namespace Number

open Binary64

/-! ### Normalised integers -/

def neg : Number → Number
  | int n => int (-n)
  | float x => float (-x)

theorem normalize_of_not_bounded {n : ℤ} (h : ¬ (int n).Bounded) :
    (int n).normalize = float (ofInt n) :=
  if_neg h

theorem bounded_neg_iff {n : ℤ} : (int (-n)).Bounded ↔ (int n).Bounded := by
  unfold Bounded
  omega

/-- The integers that are carried as such are doubles, so that rounding them changes nothing. -/
theorem rounded_of_bounded {n : ℤ} (h : (int n).Bounded) :
    rounded (n.natAbs * one) = n.natAbs * one :=
  (isRounded_rounded _).eq_self (hasSignificand_of_le (by decide) (natAbs_le_of_bounded h) _)

theorem natAbs_mul_one_le_largest {n : ℤ} (h : (int n).Bounded) : n.natAbs * one ≤ largest := by
  have hlargest : 2 ^ 53 * one ≤ largest := by decide +kernel
  exact (Nat.mul_le_mul_right one (natAbs_le_of_bounded h)).trans hlargest

/-- A bounded integer is rounded to itself. -/
theorem roundedUnits_of_bounded {n : ℤ} (h : (int n).Bounded) : roundedUnits n = n * one := by
  rw [roundedUnits, rounded_of_bounded h, Nat.cast_mul, ← Int.neg_mul]
  split
  · rw [Int.ofNat_natAbs_of_nonpos (by omega), Int.neg_neg]
  · rw [Int.natAbs_of_nonneg (by omega)]

/-- Whichever way an integer is carried, its value is the rounded one. -/
theorem exact_normalize_int (n : ℤ) : (int n).normalize.exact = .ofRounded (roundedUnits n) := by
  by_cases h : (int n).Bounded
  · have hsmall : (n * one).natAbs ≤ largest := by
      rw [Int.natAbs_mul, Int.natAbs_natCast]
      exact natAbs_mul_one_le_largest h
    rw [normalize_of_bounded h, roundedUnits_of_bounded h, Exact.ofRounded_of_natAbs_le hsmall]
    rfl
  · rw [normalize_of_not_bounded h]
    exact exact_ofInt n

/-- To normalise and to negate may change places. -/
theorem normalize_neg (a : Number) : a.neg.normalize = a.normalize.neg := by
  cases a with
  | float x => rfl
  | int n =>
    by_cases h : (int n).Bounded
    · rw [normalize_of_bounded h, neg, normalize_of_bounded (bounded_neg_iff.2 h)]
    · have hne : n ≠ 0 := by
        rintro rfl
        exact h (by decide)
      rw [normalize_of_not_bounded h, neg, normalize_of_not_bounded (mt bounded_neg_iff.1 h),
        ofInt_neg hne]
      rfl

/-- Normalising changes nothing but what is not bounded. -/
theorem normalize_eq_self_iff (a : Number) : a.normalize = a ↔ a.Bounded :=
  ⟨fun h => h ▸ bounded_normalize a, normalize_of_bounded⟩

/-- Normalising once is enough. -/
theorem normalize_normalize (a : Number) : a.normalize.normalize = a.normalize :=
  normalize_of_bounded (bounded_normalize a)

theorem exact_infinity (negative : Bool) :
    Binary64.exact (infinity negative) = if negative then .negInfinity else .infinity := by
  cases negative <;> decide +kernel

/-- An integer is carried as an infinity just if it rounds beyond the largest double. -/
theorem normalize_int_eq_infinity_iff (n : ℤ) (negative : Bool) :
    (int n).normalize = .float (infinity negative) ↔
      largest < rounded (n.natAbs * one) ∧ negative = decide (n < 0) := by
  have hexact := exact_normalize_int n
  constructor
  · intro h
    rw [h] at hexact
    change Binary64.exact (infinity negative) = _ at hexact
    rw [exact_infinity] at hexact
    cases negative with
    | false =>
      have hlarge := Exact.lt_of_ofRounded_eq_infinity hexact.symm
      unfold roundedUnits at hlarge
      split at hlarge
      · omega
      · next hsign => exact ⟨by omega, (decide_eq_false hsign).symm⟩
    | true =>
      have hlarge := Exact.lt_neg_of_ofRounded_eq_negInfinity hexact.symm
      unfold roundedUnits at hlarge
      split at hlarge
      · next hsign => exact ⟨by omega, (decide_eq_true hsign).symm⟩
      · omega
  · rintro ⟨hlarge, rfl⟩
    have hbounded : ¬ (int n).Bounded := by
      intro h
      rw [rounded_of_bounded h] at hlarge
      exact hlarge.not_ge (natAbs_mul_one_le_largest h)
    have hbits : infinityBits ≤ roundedBits (n.natAbs * one) :=
      not_lt.1 (mt (roundedBits_lt_iff _).1 hlarge.not_ge)
    rw [normalize_of_not_bounded hbounded, ofInt_eq, nearestBits_eq_min, min_eq_right hbits]
    rfl

theorem isNaN_eq_false_of_value? {a : Number} {x : Extended} (h : a.value? = some x) :
    a.isNaN = false := by
  rw [← Bool.not_eq_true, ← value?_eq_none_iff, h]
  exact Option.some_ne_none x

theorem isNaN_normalize_int (n : ℤ) : (int n).normalize.isNaN = false := by
  obtain ⟨x, hx⟩ := Exact.exists_value?_ofRounded (roundedUnits n)
  rw [← exact_normalize_int, value?_exact] at hx
  exact isNaN_eq_false_of_value? hx

end Number

namespace Operator

open Number

/-! ### Comparing integers before and after -/

theorem isOrdered_int (n : ℤ) : IsOrdered (.int n) :=
  ⟨.int n, rfl, isNaN_eq_false_of_value? rfl⟩

theorem isOrdered_normalize_int (n : ℤ) : IsOrdered (.num (Number.int n).normalize) :=
  ⟨_, rfl, isNaN_normalize_int n⟩

/-- Integers rank as they are, however large. -/
theorem strictMono_numberRank_int : StrictMono fun n : ℤ => numberRank (.int n) := by
  intro a b hab
  exact Binary64.Extended.ofRat_lt_ofRat.2 (Int.cast_lt.2 hab)

/-- Normalising integers may make their ranks equal, but never turns them around. -/
theorem monotone_numberRank_normalize :
    Monotone fun n : ℤ => numberRank (.num (Number.int n).normalize) := by
  intro a b hab
  obtain ⟨x, y, hx, hy, hle⟩ :=
    Binary64.Exact.value?_ofRounded_le (Binary64.roundedUnits_mono hab)
  rw [← exact_normalize_int, value?_exact] at hx hy
  show numberRank _ ≤ numberRank _
  rw [numberRank_eq hx, numberRank_eq hy]
  exact hle

end Operator

open Binary64 Operator in
/-- An integer is normalised to a number that has the same place in the order of integers, except
that others may share it. The sign passes through, integers within `±2 ^ 53` and doubles stay what
they are, a second time changes nothing, and an infinity stands only for an integer that rounds
beyond the largest double. So a comparison of two integers as they are is never contradicted by that
of the numbers that they stand for in arithmetic. -/
theorem normalizing_never_inverts_order :
    (∀ a b : ℤ, a ≤ b →
      atMost.Holds (.num (Number.int a).normalize) (.num (Number.int b).normalize)) ∧
    (∀ a : Number, a.neg.normalize = a.normalize.neg) ∧
    (∀ a : Number, a.normalize = a ↔ a.Bounded) ∧
    (∀ a : Number, a.normalize.normalize = a.normalize) ∧
    (∀ n : ℤ, ∃ r, IsRounded (n.natAbs * one) r ∧
      (∀ negative, (Number.int n).normalize = .float (infinity negative) ↔
        largest < r ∧ negative = decide (n < 0)) ∧
      (r ≤ largest →
        (Number.int n).normalize.exact = .finite (if n < 0 then -(r : ℤ) else r))) ∧
    ∀ (a b : ℤ) (x y : Number), (Value.int a).number = .done x → (Value.int b).number = .done y →
      (less.Holds (.int a) (.int b) → atMost.Holds (.num x) (.num y)) ∧
      (equal.Holds (.int a) (.int b) → equal.Holds (.num x) (.num y)) ∧
      (greater.Holds (.int a) (.int b) → atLeast.Holds (.num x) (.num y)) := by
  have hatMost {a b : ℤ} (hab : a ≤ b) :
      atMost.Holds (.num (Number.int a).normalize) (.num (Number.int b).normalize) :=
    (rankedBy_numberRank.atMost_iff (isOrdered_normalize_int a) (isOrdered_normalize_int b)).2
      (monotone_numberRank_normalize hab)
  refine ⟨fun a b => hatMost, Number.normalize_neg, Number.normalize_eq_self_iff,
    Number.normalize_normalize, fun n => ?_, ?_⟩
  · refine ⟨_, isRounded_rounded _, Number.normalize_int_eq_infinity_iff n, fun hle => ?_⟩
    rw [Number.exact_normalize_int, Exact.ofRounded_of_natAbs_le]
    · rfl
    · unfold roundedUnits
      split <;> omega
  · rintro a b _ _ ⟨⟩ ⟨⟩
    have ha := isOrdered_int a
    have hb := isOrdered_int b
    rw [rankedBy_numberRank.less_iff ha hb, rankedBy_numberRank.equal_iff ha hb,
      rankedBy_numberRank.greater_iff ha hb, strictMono_numberRank_int.lt_iff_lt,
      strictMono_numberRank_int.lt_iff_lt, strictMono_numberRank_int.injective.eq_iff]
    refine ⟨fun hless => hatMost hless.le, ?_, fun hgreater => ?_⟩
    · rintro rfl
      exact rankedBy_numberRank.comparesTotally.equal_refl (isOrdered_normalize_int a)
    · exact (rankedBy_numberRank.atLeast_iff (isOrdered_normalize_int a)
        (isOrdered_normalize_int b)).2 (monotone_numberRank_normalize hgreater.le)

open Operator in
/-- The first integer that is not exact shares its double with the one before it. The last integer
that is carried as a finite double is followed by one that is carried as infinity. -/
theorem order_is_kept_at_both_seams :
    let exact : ℤ := 2 ^ 53
    let last : ℤ := 2 ^ 1024 - 2 ^ 970 - 1
    (less.Holds (.int exact) (.int (exact + 1)) ∧
      (Number.int (exact + 1)).normalize = .float (Binary64.ofInt exact) ∧
      atMost.Holds (.num (Number.int exact).normalize) (.num (Number.int (exact + 1)).normalize)) ∧
    (Number.int last).normalize.isFinite = true ∧
      (Number.int (last + 1)).normalize = .float (Binary64.infinity false) ∧
      atMost.Holds (.num (Number.int last).normalize) (.num (Number.int (last + 1)).normalize) := by
  intro exact last
  obtain ⟨hmono, _, _, _, _, hcompare⟩ := normalizing_never_inverts_order
  have hless : less.Holds (.int exact) (.int (exact + 1)) := holds_iff.2 (by decide +kernel)
  exact ⟨⟨hless, by decide +kernel, (hcompare exact (exact + 1) _ _ rfl rfl).1 hless⟩,
    by decide +kernel, by decide +kernel, hmono last (last + 1) (by omega)⟩

end ChipScript
