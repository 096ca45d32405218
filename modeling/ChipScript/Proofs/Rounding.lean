import Mathlib.Data.Nat.Dist
import Mathlib.Order.Monotone.Basic
import ChipScript.Number.Binary64

/-!
# Correct rounding

A number of units is correctly rounded if no other number with 53 significant bits is nearer to it,
and if of two that are equally near the one with the even significand is taken (`IsRounded`). That
leaves one number only (`IsRounded.unique`), and it never decreases as the number that is rounded
grows (`IsRounded.mono`).

`nearestBits` gives the pattern of this number, as far as there is one. Patterns of finite doubles
are in the order of what they count (`units_strictMono`), so the last one of them decides whether
there is (`roundedBits_lt_iff`), and both properties pass to patterns: they never decrease
(`nearestBits_mono`), and the pattern of a finite double is the one nearest to what it counts
(`nearestBits_units`).
-/

namespace ChipScript.Binary64

theorem fractionSize_eq : fractionSize = 2 ^ 52 := rfl

theorem infinityBits_eq : infinityBits = 2047 * 2 ^ 52 := rfl

theorem pow2_pos (e : ℕ) : 0 < pow2 e :=
  Nat.pow_pos (by decide)

theorem pow2_add (d e : ℕ) : pow2 (d + e) = pow2 d * pow2 e :=
  Nat.pow_add 2 d e

theorem pow2_mono {d e : ℕ} (h : d ≤ e) : pow2 d ≤ pow2 e :=
  Nat.pow_le_pow_right (by decide) h

/-! ### Correct rounding -/

/-- A number of units with at most so many significant bits. With 53 of them these are the values of
the positive doubles, except that here the exponent has no upper bound. -/
def HasSignificand (bits u : ℕ) : Prop :=
  ∃ m e, m < 2 ^ bits ∧ u = m * pow2 e

/-- `r` is nearest to `p` among the numbers with 53 significant bits. Where another one is as near,
the significand of `r` is even, which leaves 52 bits that are significant. -/
structure IsRounded (p r : ℕ) : Prop where
  hasSignificand : HasSignificand 53 r
  nearest {s : ℕ} (hs : HasSignificand 53 s) : p.dist r ≤ p.dist s
  even {s : ℕ} (hs : HasSignificand 53 s) (hne : s ≠ r) (htie : p.dist s = p.dist r) :
    HasSignificand 52 r

section

variable {p r : ℕ}

/-- What needs no rounding is not changed. -/
theorem IsRounded.eq_self (h : IsRounded p r) (hp : HasSignificand 53 p) : r = p := by
  have hnear := h.nearest hp
  unfold Nat.dist at hnear
  omega

/-- A significand may also be the power of two after the largest one. -/
theorem hasSignificand_of_le {bits m : ℕ} (hbits : 0 < bits) (h : m ≤ 2 ^ bits) (e : ℕ) :
    HasSignificand bits (m * pow2 e) := by
  rcases h.lt_or_eq with hlt | rfl
  · exact ⟨m, e, hlt, rfl⟩
  · exact ⟨1, bits + e, Nat.one_lt_two_pow hbits.ne', by rw [Nat.one_mul, pow2_add]; rfl⟩

/-- A number with 53 significant bits is a multiple of a power of two, or too small to need to be.
-/
theorem HasSignificand.exists_multiple_or_lt {s : ℕ} (hs : HasSignificand 53 s) (e : ℕ) :
    (∃ k, s = k * pow2 e) ∨ 0 < e ∧ s < pow2 52 * pow2 e := by
  obtain ⟨m, d, hm, rfl⟩ := hs
  by_cases hde : e ≤ d
  · refine .inl ⟨m * pow2 (d - e), ?_⟩
    rw [Nat.mul_assoc, ← pow2_add, Nat.sub_add_cancel hde]
  · refine .inr ⟨by omega, ?_⟩
    calc m * pow2 d < pow2 53 * pow2 d := Nat.mul_lt_mul_of_pos_right hm (pow2_pos d)
      _ = pow2 (53 + d) := (pow2_add 53 d).symm
      _ ≤ pow2 (52 + e) := pow2_mono (by omega)
      _ = pow2 52 * pow2 e := pow2_add 52 e

end

/-! ### The rounded number is determined -/

/-- The bits of a number of units below its first 53. -/
def excess (p : ℕ) : ℕ := p.log2 - 52

/-- Without its excess bits a number has no more than 53. -/
theorem lt_pow2_excess (p : ℕ) : p < pow2 53 * pow2 (excess p) := by
  calc p < pow2 (p.log2 + 1) := Nat.lt_log2_self
    _ ≤ pow2 (53 + excess p) := pow2_mono (by unfold excess; omega)
    _ = pow2 53 * pow2 (excess p) := pow2_add _ _

/-- A number with excess bits has no fewer than 53 others. -/
theorem pow2_excess_le {p : ℕ} (h : 0 < excess p) : pow2 52 * pow2 (excess p) ≤ p := by
  unfold excess at h
  have hne : p ≠ 0 := by
    rintro rfl
    rw [Nat.log2_zero] at h
    omega
  calc pow2 52 * pow2 (excess p) = pow2 (52 + excess p) := (pow2_add _ _).symm
    _ = pow2 p.log2 := congrArg pow2 (by unfold excess; omega)
    _ ≤ p := Nat.log2_self_le hne

section

variable {p r p' r' : ℕ}

theorem IsRounded.pow2_excess_le (h : IsRounded p r) (hpos : 0 < excess p) :
    pow2 52 * pow2 (excess p) ≤ r := by
  have hpower : HasSignificand 53 (pow2 52 * pow2 (excess p)) :=
    hasSignificand_of_le (by decide) (by decide) _
  have hnear := h.nearest hpower
  have hle := Binary64.pow2_excess_le hpos
  unfold Nat.dist at hnear
  omega

/-- A number with excess bits is rounded to a multiple of the last place that is kept. -/
theorem IsRounded.exists_multiple (h : IsRounded p r) (hpos : 0 < excess p) :
    ∃ k, 2 ^ 52 ≤ k ∧ r = k * pow2 (excess p) := by
  have hle := h.pow2_excess_le hpos
  rcases h.hasSignificand.exists_multiple_or_lt (excess p) with ⟨k, rfl⟩ | ⟨_, hlt⟩
  · exact ⟨k, Nat.le_of_mul_le_mul_right hle (pow2_pos _), rfl⟩
  · exact absurd hlt hle.not_gt

/-- A significand of 53 bits of which 52 are significant is even. -/
theorem HasSignificand.even {k e : ℕ} (h : HasSignificand 52 (k * pow2 e)) (hk : 2 ^ 52 ≤ k) :
    k % 2 = 0 := by
  obtain ⟨m, d, hm, heq⟩ := h
  by_cases hde : d ≤ e
  · rw [← Nat.sub_add_cancel hde, pow2_add, ← Nat.mul_assoc] at heq
    have hm' : k * pow2 (e - d) = m := Nat.eq_of_mul_eq_mul_right (pow2_pos d) heq
    have hle := Nat.le_mul_of_pos_right k (pow2_pos (e - d))
    omega
  · obtain ⟨c, rfl⟩ : ∃ c, d = 1 + c + e := ⟨d - e - 1, by omega⟩
    rw [pow2_add, ← Nat.mul_assoc] at heq
    have hm' : k = m * pow2 (1 + c) := Nat.eq_of_mul_eq_mul_right (pow2_pos e) heq
    have htwo : pow2 (1 + c) = 2 * pow2 c := pow2_add 1 c
    rw [hm', htwo, Nat.mul_left_comm]
    exact Nat.mul_mod_right 2 _

/-- Of two neighbours that are equally near only one has an even significand. -/
theorem IsRounded.not_lt (h : IsRounded p r) (h' : IsRounded p r') : ¬ r < r' := by
  intro hlt
  have htie : p.dist r = p.dist r' :=
    Nat.le_antisymm (h.nearest h'.hasSignificand) (h'.nearest h.hasSignificand)
  by_cases hpos : 0 < excess p
  · have heven := h.even h'.hasSignificand hlt.ne' htie.symm
    have heven' := h'.even h.hasSignificand hlt.ne htie
    obtain ⟨k, hk, rfl⟩ := h.exists_multiple hpos
    obtain ⟨k', hk', rfl⟩ := h'.exists_multiple hpos
    have hbound := lt_pow2_excess p
    have hsucc := Nat.add_one_mul k (pow2 (excess p))
    have hlt' : k < k' := Nat.lt_of_mul_lt_mul_right hlt
    have hp : k * pow2 (excess p) < p := by
      unfold Nat.dist at htie
      omega
    have hk53 : k < 2 ^ 53 := Nat.lt_of_mul_lt_mul_right (hp.trans hbound)
    have hbetween : HasSignificand 53 ((k + 1) * pow2 (excess p)) :=
      hasSignificand_of_le (by decide) hk53 _
    have hnear := h.nearest hbetween
    have hnext : k' = k + 1 := by
      refine Nat.le_antisymm (Nat.le_of_not_lt fun hgap => ?_) hlt'
      have hmul : (k + 1) * pow2 (excess p) < k' * pow2 (excess p) :=
        Nat.mul_lt_mul_of_pos_right hgap (pow2_pos _)
      have hpos' := pow2_pos (excess p)
      unfold Nat.dist at hnear htie
      omega
    have hkeven := heven.even hk
    have hkeven' := heven'.even hk'
    omega
  · have hbound := lt_pow2_excess p
    rw [Nat.eq_zero_of_not_pos hpos] at hbound
    have hp : HasSignificand 53 p := ⟨p, 0, hbound, (Nat.mul_one p).symm⟩
    rw [h.eq_self hp, h'.eq_self hp] at hlt
    exact Nat.lt_irrefl p hlt

/-- There is one correctly rounded number only. -/
theorem IsRounded.unique (h : IsRounded p r) (h' : IsRounded p r') : r = r' :=
  Nat.le_antisymm (Nat.le_of_not_lt (h'.not_lt h)) (Nat.le_of_not_lt (h.not_lt h'))

/-- Rounding to the nearest keeps order. -/
theorem IsRounded.mono (h : IsRounded p r) (h' : IsRounded p' r') (hle : p ≤ p') : r ≤ r' := by
  rcases hle.eq_or_lt with rfl | hlt
  · exact (h.unique h').le
  · have hnear := h.nearest h'.hasSignificand
    have hnear' := h'.nearest h.hasSignificand
    unfold Nat.dist at hnear hnear'
    omega

end

/-! ### Rounding quotients -/

section

variable {p q : ℕ} (k : ℕ)

theorem roundDiv_le (p q : ℕ) : roundDiv p q ≤ p / q + 1 := by
  unfold roundDiv
  split <;> omega

theorem le_roundDiv (p q : ℕ) : p / q ≤ roundDiv p q := by
  unfold roundDiv
  split <;> omega

/-- The multiples of `q` around `k * q`. -/
theorem mul_le_or_eq_or_le (d q : ℕ) :
    k * q + q ≤ d * q ∨ k = d ∨ k = d + 1 ∨ d * q + 2 * q ≤ k * q := by
  rcases Nat.lt_trichotomy k d with h | h | h
  · exact .inl ((Nat.succ_mul k q).symm.trans_le (Nat.mul_le_mul_right q h))
  · exact .inr (.inl h)
  · rcases Nat.eq_or_lt_of_le h with h | h
    · exact .inr (.inr (.inl h.symm))
    · refine .inr (.inr (.inr ?_))
      rw [← Nat.add_mul]
      exact Nat.mul_le_mul_right q h

/-- No multiple of `q` is nearer to `p` than the one that rounding gives. -/
theorem roundDiv_nearest (hq : 0 < q) : p.dist (roundDiv p q * q) ≤ p.dist (k * q) := by
  have hdiv := Nat.div_add_mod' p q
  have hmod := Nat.mod_lt p hq
  have hsucc := Nat.add_one_mul (p / q) q
  have hk := mul_le_or_eq_or_le k (p / q) q
  unfold roundDiv Nat.dist
  split <;> rcases hk with hk | rfl | rfl | hk <;> omega

/-- In a tie rounding gives the even multiple. -/
theorem roundDiv_even (hq : 0 < q) (hne : k ≠ roundDiv p q)
    (htie : p.dist (k * q) = p.dist (roundDiv p q * q)) : roundDiv p q % 2 = 0 := by
  have hdiv := Nat.div_add_mod' p q
  have hmod := Nat.mod_lt p hq
  have hsucc := Nat.add_one_mul (p / q) q
  have hk := mul_le_or_eq_or_le k (p / q) q
  by_cases hdown : 2 * (p % q) < q ∨ (2 * (p % q) = q ∧ p / q % 2 = 0)
  · have hround : roundDiv p q = p / q := if_pos hdown
    rw [hround] at hne htie ⊢
    unfold Nat.dist at htie
    rcases hk with hk | rfl | rfl | hk <;> omega
  · have hround : roundDiv p q = p / q + 1 := if_neg hdown
    rw [hround] at hne htie ⊢
    unfold Nat.dist at htie
    rcases hk with hk | rfl | rfl | hk <;> omega

end

/-- A number of units rounded to 53 significant bits, however large it is. -/
def rounded (p : ℕ) : ℕ := roundDiv p (pow2 (excess p)) * pow2 (excess p)

theorem roundDiv_excess_le (p : ℕ) : roundDiv p (pow2 (excess p)) ≤ 2 ^ 53 := by
  have hdiv : p / pow2 (excess p) < 2 ^ 53 :=
    Nat.div_lt_of_lt_mul ((lt_pow2_excess p).trans_eq (Nat.mul_comm _ _))
  have hround := roundDiv_le p (pow2 (excess p))
  omega

/-- Rounding a number with excess bits leaves all the 53 others. -/
theorem le_roundDiv_excess {p : ℕ} (h : 0 < excess p) : 2 ^ 52 ≤ roundDiv p (pow2 (excess p)) := by
  have hdiv : 2 ^ 52 ≤ p / pow2 (excess p) :=
    (Nat.le_div_iff_mul_le (pow2_pos _)).2 (pow2_excess_le h)
  exact hdiv.trans (le_roundDiv _ _)

/-- What is computed is correctly rounded. -/
theorem isRounded_rounded (p : ℕ) : IsRounded p (rounded p) where
  hasSignificand := hasSignificand_of_le (by decide) (roundDiv_excess_le p) _
  nearest {s} hs := by
    rcases hs.exists_multiple_or_lt (excess p) with ⟨k, rfl⟩ | ⟨hpos, hlt⟩
    · exact roundDiv_nearest k (pow2_pos _)
    · -- The power of two between the two is a multiple, so it is not nearer than the rounded one.
      have hpower := roundDiv_nearest (p := p) (pow2 52) (pow2_pos (excess p))
      have hle := pow2_excess_le hpos
      unfold rounded
      unfold Nat.dist at hpower ⊢
      omega
  even {s} hs hne htie := by
    rcases hs.exists_multiple_or_lt (excess p) with ⟨k, rfl⟩ | ⟨hpos, hlt⟩
    · have heven := roundDiv_even k (pow2_pos _) (fun h => hne (congrArg (· * _) h)) htie
      have hle := roundDiv_excess_le p
      obtain ⟨j, hj⟩ := Nat.dvd_of_mod_eq_zero heven
      have hrounded : rounded p = j * pow2 (1 + excess p) := by
        rw [rounded, hj, pow2_add, Nat.mul_comm 2 j, Nat.mul_assoc]
        rfl
      rw [hrounded]
      exact hasSignificand_of_le (by decide) (by omega) _
    · have hpower := roundDiv_nearest (p := p) (pow2 52) (pow2_pos (excess p))
      have hle := pow2_excess_le hpos
      unfold rounded at htie
      unfold Nat.dist at hpower htie
      omega

/-- Rounding keeps the order. -/
theorem rounded_mono : Monotone rounded :=
  fun p p' hle => (isRounded_rounded p).mono (isRounded_rounded p') hle

/-! ### Patterns of rounded numbers -/

/-- The pattern of a rounded number, before it is known whether there is such a double. -/
def roundedBits (p : ℕ) : ℕ :=
  excess p * fractionSize + roundDiv p (pow2 (excess p))

/-- The nearest pattern is that of the rounded number, up to infinity. -/
theorem nearestBits_eq_min (p : ℕ) : nearestBits p 1 = min (roundedBits p) infinityBits := by
  unfold nearestBits
  dsimp only
  rw [Nat.div_one, Nat.one_mul]
  rfl

theorem units_of_lt {bits : ℕ} (h : bits < 2 ^ 52) : units bits = bits :=
  if_pos h

/-- A normal pattern has a significand of 53 bits, which the exponent shifts. -/
theorem units_of_fraction (e : ℕ) {f : ℕ} (hf : f < 2 ^ 52) :
    units ((e + 1) * 2 ^ 52 + f) = (2 ^ 52 + f) * pow2 e := by
  have hfraction : ((e + 1) * 2 ^ 52 + f) % 2 ^ 52 = f := by omega
  have hexponent : ((e + 1) * 2 ^ 52 + f) / 2 ^ 52 - 1 = e := by omega
  unfold units
  rw [fractionSize_eq, if_neg (by omega), hfraction, hexponent]

/-- The next pattern after the largest fraction has the next exponent. -/
theorem pow2_mul_succ (e : ℕ) : 2 ^ 52 * pow2 (e + 1) = 2 ^ 53 * pow2 e := by
  rw [Nat.add_comm, pow2_add, ← Nat.mul_assoc]
  rfl

/-- Larger patterns stand for larger numbers. -/
theorem units_strictMono : StrictMono units := by
  apply strictMono_nat_of_lt_succ
  intro bits
  by_cases hsmall : bits < 2 ^ 52
  · rw [units_of_lt hsmall]
    by_cases hnext : bits + 1 < 2 ^ 52
    · rw [units_of_lt hnext]
      omega
    · have hbits : bits + 1 = (0 + 1) * 2 ^ 52 + 0 := by omega
      have hone : pow2 0 = 1 := rfl
      rw [hbits, units_of_fraction 0 (by decide), hone]
      omega
  · obtain ⟨e, f, hf, rfl⟩ : ∃ e f, f < 2 ^ 52 ∧ bits = (e + 1) * 2 ^ 52 + f :=
      ⟨bits / 2 ^ 52 - 1, bits % 2 ^ 52, by omega, by omega⟩
    have hpos := pow2_pos e
    rw [units_of_fraction e hf]
    by_cases hnext : f + 1 < 2 ^ 52
    · rw [Nat.add_assoc, units_of_fraction e hnext]
      exact Nat.mul_lt_mul_of_pos_right (by omega) hpos
    · have hbits : (e + 1) * 2 ^ 52 + f + 1 = (e + 1 + 1) * 2 ^ 52 + 0 := by omega
      rw [hbits, units_of_fraction (e + 1) (by decide), Nat.add_zero, pow2_mul_succ]
      exact Nat.mul_lt_mul_of_pos_right (by omega) hpos

/-- A significand that was rounded up to `2 ^ 53` is counted by the next exponent. -/
theorem units_roundedBits (p : ℕ) : units (roundedBits p) = rounded p := by
  have hhigh := roundDiv_excess_le p
  have hlow := @le_roundDiv_excess p
  unfold roundedBits rounded
  rw [fractionSize_eq]
  generalize roundDiv p (pow2 (excess p)) = k at *
  generalize excess p = e at *
  by_cases hsmall : k < 2 ^ 52
  · obtain rfl : e = 0 := by omega
    rw [Nat.zero_mul, Nat.zero_add, units_of_lt hsmall]
    exact (Nat.mul_one k).symm
  · by_cases hnormal : k < 2 ^ 53
    · have hbits : e * 2 ^ 52 + k = (e + 1) * 2 ^ 52 + (k - 2 ^ 52) := by omega
      rw [hbits, units_of_fraction e (by omega), Nat.add_sub_cancel' (by omega)]
    · obtain rfl : k = 2 ^ 53 := by omega
      have hbits : e * 2 ^ 52 + 2 ^ 53 = (e + 1 + 1) * 2 ^ 52 + 0 := by omega
      rw [hbits, units_of_fraction (e + 1) (by decide), Nat.add_zero, pow2_mul_succ]

/-- The largest finite double, in units. -/
def largest : ℕ := units (infinityBits - 1)

example : largest = (2 ^ 53 - 1) * pow2 971 * one := by decide +kernel

/-- There is a finite double that is nearest if the rounded number is not beyond the largest one. -/
theorem roundedBits_lt_iff (p : ℕ) : roundedBits p < infinityBits ↔ rounded p ≤ largest := by
  have hpos : 0 < infinityBits := by decide
  rw [← units_roundedBits, largest, units_strictMono.le_iff_le]
  omega

theorem nearestBits_le (p q : ℕ) : nearestBits p q ≤ infinityBits :=
  Nat.min_le_right _ _

theorem log2_lt_of_lt_pow2 {n k : ℕ} (hn : n ≠ 0) (h : n < pow2 k) : n.log2 < k :=
  (Nat.log2_lt hn).2 h

/-- A quotient that is far enough below the largest double is finite. -/
theorem nearestBits_lt {p q : ℕ} (h : p / q < pow2 2097) : nearestBits p q < infinityBits := by
  have hexponent : excess (p / q) ≤ 2044 := by
    unfold excess
    by_cases hzero : p / q = 0
    · rw [hzero]
      decide
    · have : (p / q).log2 < 2097 := log2_lt_of_lt_pow2 hzero h
      omega
  have hround : roundDiv p (q * pow2 (excess (p / q))) ≤ 2 ^ 53 := by
    have hle := roundDiv_le p (q * pow2 (excess (p / q)))
    have hlt : p / q / pow2 (excess (p / q)) < 2 ^ 53 :=
      Nat.div_lt_of_lt_mul (by rw [Nat.mul_comm]; exact lt_pow2_excess (p / q))
    rw [← Nat.div_div_eq_div_mul] at hle
    omega
  have hsum : excess (p / q) * 2 ^ 52 ≤ 2044 * 2 ^ 52 := Nat.mul_le_mul_right _ hexponent
  have hbits : nearestBits p q ≤
      excess (p / q) * 2 ^ 52 + roundDiv p (q * pow2 (excess (p / q))) := Nat.min_le_left _ _
  rw [infinityBits_eq]
  omega

/-- A larger number of units never has a smaller pattern. -/
theorem nearestBits_mono {p p' : ℕ} (h : p ≤ p') : nearestBits p 1 ≤ nearestBits p' 1 := by
  have hbits : roundedBits p ≤ roundedBits p' := by
    rw [← units_strictMono.le_iff_le, units_roundedBits, units_roundedBits]
    exact rounded_mono h
  rw [nearestBits_eq_min, nearestBits_eq_min]
  exact min_le_min_right infinityBits hbits

/-- The units of a pattern have no more than 53 binary digits. -/
theorem hasSignificand_units (bits : ℕ) : HasSignificand 53 (units bits) := by
  by_cases hsmall : bits < 2 ^ 52
  · rw [units_of_lt hsmall]
    exact ⟨bits, 0, by omega, (Nat.mul_one bits).symm⟩
  · have hbits : bits = (bits / 2 ^ 52 - 1 + 1) * 2 ^ 52 + bits % 2 ^ 52 := by omega
    rw [hbits, units_of_fraction _ (Nat.mod_lt _ (by decide))]
    exact ⟨_, _, by omega, rfl⟩

/-- The pattern of a finite double is the one nearest to its units. -/
theorem nearestBits_units {bits : ℕ} (h : bits < infinityBits) :
    nearestBits (units bits) 1 = bits := by
  have hrounded := (isRounded_rounded (units bits)).eq_self (hasSignificand_units bits)
  have hbits : roundedBits (units bits) = bits :=
    units_strictMono.injective ((units_roundedBits _).trans hrounded)
  rw [nearestBits_eq_min, hbits, min_eq_left h.le]

end ChipScript.Binary64
