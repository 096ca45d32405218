import Mathlib.Algebra.Group.Nat.Defs
import ChipScript.Number.Basic
import ChipScript.Proofs.Rounding

/-!
# Bit patterns of doubles

A double that is built from a pattern has that pattern (`toBits_ofBits`), unless it is the pattern
of a NaN, of which only one is kept. Lean takes the pattern apart into sign, exponent and mantissa
and puts it together again; the first part shows that this loses nothing.

The second part is about integers. Rounding keeps their order, so those whose nearest double is
infinite are those from one bound on (`magnitude_ofInt_eq_infinityBits_iff`). In particular no
integer up to `2 ^ 53` becomes infinite when it is converted.

The third part is about doubles as numerals. The pattern of a finite double is the one nearest to
what it counts, so all digits of a whole double denote that double (`ofDecimal_whole`).
-/

namespace ChipScript.Binary64

open Float.Model Float.Model.UnpackedFloat

/-! ### Taking a pattern apart -/

section Pattern

variable (b : BitVec Format.binary64.numBits)

theorem toBitVec_ofBitVec (v : BitVec 1) : (Sign.ofBitVec v).toBitVec = v := by
  revert v
  decide

/-- The parts of a pattern follow one another: sign, exponent, mantissa. -/
theorem toNat_packComponents (sign : Sign) (e : BitVec 11) (m : BitVec 52) :
    (packComponents .binary64 sign e m).toNat =
      sign.toBitVec.toNat * 2 ^ 63 + e.toNat * 2 ^ 52 + m.toNat := by
  show (sign.toBitVec ++ e ++ m).toNat = _
  rw [BitVec.toNat_append, BitVec.toNat_append, ← Nat.shiftLeft_add_eq_or_of_lt e.isLt,
    ← Nat.shiftLeft_add_eq_or_of_lt m.isLt, Nat.shiftLeft_eq, Nat.shiftLeft_eq]
  omega

theorem toNat_unpackMantissa : (unpackMantissa b).toNat = b.toNat % 2 ^ 52 := by
  unfold unpackMantissa
  rw [BitVec.toNat_cast, BitVec.extractLsb_toNat]
  simp

theorem toNat_unpackExponent : (unpackExponent b).toNat = b.toNat / 2 ^ 52 % 2 ^ 11 := by
  unfold unpackExponent
  rw [BitVec.toNat_cast, BitVec.extractLsb_toNat, Nat.shiftRight_eq_div_pow]
  simp

theorem toNat_unpackSign : (unpackSign b).toNat = b.toNat / 2 ^ 63 := by
  unfold unpackSign
  rw [BitVec.toNat_cast, BitVec.extractLsb_toNat, Nat.shiftRight_eq_div_pow]
  have h : b.toNat < 2 ^ 64 := b.isLt
  show b.toNat / 2 ^ 63 % 2 ^ (63 - 63 + 1) = _
  omega

/-- The parts of a pattern give the pattern. -/
theorem packComponents_unpack :
    packComponents .binary64 (Sign.ofBitVec (unpackSign b)) (unpackExponent b)
      (unpackMantissa b) = b := by
  apply BitVec.eq_of_toNat_eq
  rw [toNat_packComponents, toBitVec_ofBitVec, toNat_unpackSign, toNat_unpackExponent,
    toNat_unpackMantissa]
  omega

/-- Without an exponent the mantissa is the whole magnitude. -/
theorem pack_subnormal (s : Sign) {m : BitVec 52} (h : 0 < m.toNat) :
    UnpackedFloat.pack .binary64 (.finite s m.toNat (-1074) h) =
      packComponents .binary64 s 0#11 m := by
  have hlog : m.toNat.log2 < 52 := (Nat.log2_lt (by omega)).2 m.isLt
  unfold UnpackedFloat.pack
  dsimp only
  have hbias : ((-1074 : Int) + Format.binary64.exponentBias + (52 : Nat)).toNat = 1 := rfl
  have hshort : ¬ m.toNat.log2 + 1 = Format.binary64.mantissaBits := by
    show ¬ m.toNat.log2 + 1 = 53
    omega
  rw [hbias, if_neg (by decide), if_neg hshort, BitVec.ofNat_toNat, BitVec.setWidth_eq]

/-- With an exponent a leading one stands before the mantissa. -/
theorem pack_normal (s : Sign) {e : BitVec 11} (he : e ≠ -1#11) (m : BitVec 52)
    (h : 0 < (1#1 ++ m).toNat) :
    UnpackedFloat.pack .binary64 (.finite s (1#1 ++ m).toNat
        ((e.toNat : Int) - (Format.binary64.exponentBias + (52 : Nat))) h) =
      packComponents .binary64 s e m := by
  have hm := m.isLt
  have hleading : (1#1 ++ m).toNat = 2 ^ 52 + m.toNat := by
    rw [BitVec.toNat_append, ← Nat.shiftLeft_add_eq_or_of_lt m.isLt]
    rfl
  have hlog : (1#1 ++ m).toNat.log2 = 52 := by
    rw [hleading]
    have hlow : 52 ≤ (2 ^ 52 + m.toNat).log2 := (Nat.le_log2 (by omega)).2 (by omega)
    have hhigh : (2 ^ 52 + m.toNat).log2 < 53 := (Nat.log2_lt (by omega)).2 (by omega)
    omega
  have hbiased : ((e.toNat : Int) - (Format.binary64.exponentBias + (52 : Nat)) +
      Format.binary64.exponentBias + (52 : Nat)).toNat = e.toNat := by
    omega
  have hexponent : ¬ 2 ^ 11 ≤ e.toNat + 1 := by
    have hlt := e.isLt
    have hne : e.toNat ≠ 2047 := fun h0 => he (BitVec.eq_of_toNat_eq h0)
    omega
  have hmantissa : BitVec.ofNat 52 (2 ^ 52 + m.toNat) = m := by
    apply BitVec.eq_of_toNat_eq
    rw [BitVec.toNat_ofNat]
    omega
  unfold UnpackedFloat.pack
  dsimp only
  rw [hbiased, hlog, if_neg hexponent, if_pos (by rfl), BitVec.ofNat_toNat, BitVec.setWidth_eq,
    hleading, hmantissa]

theorem mantissa_eq_zero_of_infinite (h : b.toNat % 2 ^ 63 ≤ 2047 * 2 ^ 52)
    (hinf : unpackExponent b = -1#11) : unpackMantissa b = 0#52 := by
  have he := toNat_unpackExponent b
  rw [hinf] at he
  change 2047 = _ at he
  apply BitVec.eq_of_toNat_eq
  rw [toNat_unpackMantissa]
  show b.toNat % 2 ^ 52 = 0
  omega

/-- What a pattern is taken apart to may change its sign before it is put together. -/
theorem pack_map_unpack {f : UnpackedFloat → UnpackedFloat} {s : Sign}
    (hinfinity : f (.infinity (Sign.ofBitVec (unpackSign b))) = .infinity s)
    (hzero : f (.zero (Sign.ofBitVec (unpackSign b))) = .zero s)
    (hfinite : ∀ m e hm, f (.finite (Sign.ofBitVec (unpackSign b)) m e hm) = .finite s m e hm)
    (h : unpackExponent b = -1#11 → unpackMantissa b = 0#52) :
    UnpackedFloat.pack .binary64 (f (UnpackedFloat.unpack .binary64 b)) =
      packComponents .binary64 s (unpackExponent b) (unpackMantissa b) := by
  unfold UnpackedFloat.unpack
  dsimp only
  by_cases hinf : unpackExponent b = -1#11
  · rw [if_pos hinf, if_pos (h hinf), hinfinity, hinf, h hinf]
    rfl
  · rw [if_neg hinf]
    by_cases hexponent : unpackExponent b = 0#11
    · rw [if_pos hexponent, hexponent]
      by_cases hm : unpackMantissa b = 0#52
      · rw [dif_pos hm, hzero, hm]
        rfl
      · rw [dif_neg hm, hfinite]
        exact pack_subnormal _ _
    · rw [if_neg hexponent, hfinite]
      exact pack_normal _ hinf _ _

/-- Taking a pattern apart and putting it together gives it back, unless it is that of a NaN. -/
theorem pack_unpack (h : unpackExponent b = -1#11 → unpackMantissa b = 0#52) :
    UnpackedFloat.pack .binary64 (UnpackedFloat.unpack .binary64 b) = b :=
  (pack_map_unpack b (f := id) rfl rfl (fun _ _ _ => rfl) h).trans (packComponents_unpack b)

/-- Changing the sign changes one bit. -/
theorem toNat_pack_neg_unpack (h : unpackExponent b = -1#11 → unpackMantissa b = 0#52) :
    (UnpackedFloat.pack .binary64 (UnpackedFloat.unpack .binary64 b).neg).toNat =
      if b.toNat < 2 ^ 63 then 2 ^ 63 + b.toNat else b.toNat - 2 ^ 63 := by
  have hsign (v : BitVec 1) : (-Sign.ofBitVec v).toBitVec.toNat = 1 - v.toNat := by
    revert v
    decide
  have hlt : b.toNat < 2 ^ 64 := b.isLt
  rw [pack_map_unpack b (f := neg) rfl rfl (fun _ _ _ => rfl) h, toNat_packComponents, hsign,
    toNat_unpackSign, toNat_unpackExponent, toNat_unpackMantissa]
  split <;> omega

end Pattern

theorem signBit_eq : signBit = 2 ^ 63 := rfl

/-- A double has the pattern that it is built from. -/
theorem toBits_ofBits {a : UInt64} (h : a.toNat % signBit ≤ infinityBits) :
    (Float.ofBits a).toBits = a := by
  rw [signBit_eq, infinityBits_eq] at h
  show UInt64.ofBitVec
    (UnpackedFloat.pack .binary64 (UnpackedFloat.unpack .binary64 a.toBitVec)) = a
  rw [pack_unpack _ (mantissa_eq_zero_of_infinite _ h)]

/-- The pattern of a double that was made from a sign and a magnitude. -/
theorem toNat_toBits_ofMagnitude (negative : Bool) {bits : Nat} (h : bits ≤ infinityBits) :
    (ofMagnitude negative bits).toBits.toNat = if negative then signBit + bits else bits := by
  rw [infinityBits_eq] at h
  have hword : (UInt64.ofNat (if negative then signBit + bits else bits)).toNat =
      if negative then signBit + bits else bits := by
    rw [UInt64.toNat_ofNat', signBit_eq]
    apply Nat.mod_eq_of_lt
    split <;> omega
  unfold ofMagnitude
  rw [toBits_ofBits, hword]
  rw [hword, signBit_eq, infinityBits_eq]
  split <;> omega

theorem magnitude_ofMagnitude (negative : Bool) {bits : Nat} (h : bits ≤ infinityBits) :
    magnitude (ofMagnitude negative bits) = bits := by
  rw [magnitude, toNat_toBits_ofMagnitude negative h, signBit_eq]
  rw [infinityBits_eq] at h
  split <;> omega

theorem isNegative_ofMagnitude (negative : Bool) {bits : Nat} (h : bits ≤ infinityBits) :
    isNegative (ofMagnitude negative bits) = negative := by
  rw [isNegative, toNat_toBits_ofMagnitude negative h, signBit_eq]
  rw [infinityBits_eq] at h
  cases negative with
  | false => exact decide_eq_false (show ¬ 2 ^ 63 ≤ bits by omega)
  | true => exact decide_eq_true (Nat.le_add_right _ _)

/-- A double is known by its pattern. -/
theorem eq_of_toBits_eq {x y : Float} (h : x.toBits.toNat = y.toBits.toNat) : x = y := by
  obtain ⟨⟨a, _⟩⟩ := x
  obtain ⟨⟨b, _⟩⟩ := y
  obtain rfl : a = b := UInt64.toNat_inj.1 h
  rfl

/-- The negative of a double has the other sign and, apart from it, the same pattern. -/
theorem neg_ofMagnitude (negative : Bool) {bits : Nat} (h : bits ≤ infinityBits) :
    -ofMagnitude negative bits = ofMagnitude (!negative) bits := by
  have hword : (ofMagnitude negative bits).toBits.toBitVec.toNat =
      if negative then signBit + bits else bits := toNat_toBits_ofMagnitude negative h
  have hpattern : (ofMagnitude negative bits).toBits.toBitVec.toNat % 2 ^ 63 ≤ 2047 * 2 ^ 52 := by
    rw [← infinityBits_eq]
    exact Nat.le_trans (Nat.le_of_eq (magnitude_ofMagnitude negative h)) h
  have hneg := toNat_pack_neg_unpack _ (mantissa_eq_zero_of_infinite _ hpattern)
  apply eq_of_toBits_eq
  rw [toNat_toBits_ofMagnitude _ h]
  refine hneg.trans ?_
  rw [infinityBits_eq] at h
  rw [hword, signBit_eq]
  cases negative with
  | false => exact if_pos (show bits < 2 ^ 63 by omega)
  | true =>
    have hlarge : ¬ 2 ^ 63 + bits < 2 ^ 63 := by omega
    exact (if_neg hlarge).trans (Nat.add_sub_cancel_left _ _)

/-! ### Rounded integers -/

/-- The double nearest to an integer has the magnitude nearest to that of the integer. -/
theorem magnitude_ofInt (n : Int) : magnitude (ofInt n) = nearestBits (n.natAbs * one) 1 := by
  rw [ofInt, ofUnits, magnitude_ofMagnitude _ (nearestBits_le _ _), Int.natAbs_mul,
    Int.natAbs_natCast]

/-- Half way from the largest double to `2 ^ 1024`. A tie goes to the even pattern, and that is the
one of infinity. -/
def overflowBound : Nat := 2 ^ 1024 - 2 ^ 970

/-- The nearest double to an integer is infinite from `overflowBound` on. -/
theorem magnitude_ofInt_eq_infinityBits_iff (n : Int) :
    magnitude (ofInt n) = infinityBits ↔ overflowBound ≤ n.natAbs := by
  rw [magnitude_ofInt]
  constructor
  · intro h
    refine Nat.le_of_not_lt fun hsmall => ?_
    have hbelow : nearestBits ((overflowBound - 1) * one) 1 < infinityBits := by decide +kernel
    have hle : n.natAbs * one ≤ (overflowBound - 1) * one := Nat.mul_le_mul_right _ (by omega)
    have := nearestBits_mono hle
    omega
  · intro h
    have hbound : nearestBits (overflowBound * one) 1 = infinityBits := by decide +kernel
    have := nearestBits_mono (Nat.mul_le_mul_right one h)
    have := nearestBits_le (n.natAbs * one) 1
    omega

/-- An integer up to `2 ^ 53` in magnitude is converted to a finite double. -/
theorem ofInt_ne_infinity {n : Int} (h : n.natAbs ≤ 2 ^ 53) :
    magnitude (ofInt n) ≠ infinityBits := by
  have hbound : 2 ^ 53 < overflowBound := by decide +kernel
  rw [ne_eq, magnitude_ofInt_eq_infinityBits_iff]
  omega

/-- Only zero is converted to a zero. -/
theorem magnitude_ofInt_eq_zero_iff (n : Int) : magnitude (ofInt n) = 0 ↔ n = 0 := by
  rw [magnitude_ofInt]
  constructor
  · intro h
    by_contra hn
    have hone : 0 < nearestBits one 1 := by decide +kernel
    have hle : one ≤ n.natAbs * one := Nat.le_mul_of_pos_left _ (by omega)
    have := nearestBits_mono hle
    omega
  · rintro rfl
    decide +kernel

/-- The magnitude of the double nearest to a quotient of integers. -/
theorem magnitude_ofQuotient (m n : Int) :
    magnitude (ofQuotient m n) = nearestBits (m.natAbs * one) n.natAbs := by
  rw [ofQuotient, magnitude_ofMagnitude _ (nearestBits_le _ _)]

/-- A quotient of integers is finite if the dividend is at most `2 ^ 53`. -/
theorem ofQuotient_ne_infinity {m : Int} (h : m.natAbs ≤ 2 ^ 53) (n : Int) :
    magnitude (ofQuotient m n) ≠ infinityBits := by
  have hbound : 2 ^ 53 * one < pow2 2097 := by decide +kernel
  have hdividend : m.natAbs * one ≤ 2 ^ 53 * one := Nat.mul_le_mul_right one h
  have hquotient : m.natAbs * one / n.natAbs ≤ m.natAbs * one := Nat.div_le_self _ _
  have hfinite := nearestBits_lt (p := m.natAbs * one) (q := n.natAbs) (by omega)
  rw [magnitude_ofQuotient]
  omega

/-! ### Whole values -/

/-- A double that counts whole ones is finite, and its pattern counts as many. -/
theorem exists_units_of_exact {x : Float} {k : Int} (h : exact x = .finite (k * one)) :
    magnitude x < infinityBits ∧ units (magnitude x) = k.natAbs * one := by
  unfold exact at h
  split at h
  · next hfinite =>
    refine ⟨hfinite, ?_⟩
    have habs := congrArg Int.natAbs (Exact.finite.inj h)
    rw [Int.natAbs_mul, Int.natAbs_natCast] at habs
    rw [← habs]
    split <;> simp
  · split at h
    · split at h <;> cases h
    · cases h

theorem units_eq_zero_iff (bits : Nat) : units bits = 0 ↔ bits = 0 :=
  units_strictMono.injective.eq_iff' rfl

/-- Of all doubles only the two zeros have the value zero. -/
theorem exact_eq_zero_iff (x : Float) :
    exact x = .finite 0 ↔ x = zero false ∨ x = zero true := by
  have hzero (negative : Bool) : (zero negative).toBits.toNat = if negative then signBit else 0 :=
    toNat_toBits_ofMagnitude negative (Nat.zero_le _)
  constructor
  · intro h
    have hmagnitude : magnitude x = 0 := by
      rw [← Int.zero_mul one] at h
      rw [← units_eq_zero_iff, (exists_units_of_exact h).2, Int.natAbs_zero, Nat.zero_mul]
    have hword : x.toBits.toNat < 2 ^ 64 := x.toBits.toNat_lt
    rw [magnitude, signBit_eq] at hmagnitude
    by_cases hsign : x.toBits.toNat = 0
    · refine .inl (eq_of_toBits_eq ?_)
      rw [hzero, hsign]
      rfl
    · refine .inr (eq_of_toBits_eq ?_)
      rw [hzero, if_pos rfl, signBit_eq]
      omega
  · rintro (rfl | rfl) <;> decide +kernel

/-! ### Numerals of whole doubles -/

/-- Rounding depends on the quotient only. -/
theorem roundDiv_mul_left {c : Nat} (hc : 0 < c) (p q : Nat) :
    roundDiv (c * p) (c * q) = roundDiv p q := by
  have hless : 2 * (c * p % (c * q)) < c * q ↔ 2 * (p % q) < q := by
    rw [Nat.mul_mod_mul_left, Nat.mul_left_comm]
    exact Nat.mul_lt_mul_left hc
  have htie : 2 * (c * p % (c * q)) = c * q ↔ 2 * (p % q) = q := by
    rw [Nat.mul_mod_mul_left, Nat.mul_left_comm]
    exact Nat.mul_right_inj (Nat.ne_of_gt hc)
  simp only [roundDiv, hless, htie, Nat.mul_div_mul_left _ _ hc]

/-- A common factor does not change the nearest double. -/
theorem nearestBits_mul_left {c : Nat} (hc : 0 < c) (p q : Nat) :
    nearestBits (c * p) (c * q) = nearestBits p q := by
  unfold nearestBits
  dsimp only
  rw [Nat.mul_div_mul_left _ _ hc, Nat.mul_assoc, roundDiv_mul_left hc]

/-- The finite doubles are below `2 ^ 1024`. -/
theorem units_lt {bits : Nat} (h : bits < infinityBits) : units bits < pow2 1024 * one := by
  have hbound : units infinityBits = pow2 1024 * one := by decide +kernel
  rw [← hbound]
  exact units_strictMono h

/-- A double is put together from its sign and its pattern, unless it is NaN. -/
theorem ofMagnitude_magnitude {x : Float} (h : magnitude x ≤ infinityBits) :
    ofMagnitude (isNegative x) (magnitude x) = x := by
  have hword : x.toBits.toNat < 2 ^ 64 := x.toBits.toNat_lt
  apply eq_of_toBits_eq
  rw [toNat_toBits_ofMagnitude _ h, magnitude, isNegative, signBit_eq]
  simp only [decide_eq_true_eq]
  split <;> omega

/-- The digits of a whole double written with a zero after the point denote that double. -/
theorem ofDecimal_whole {k bits : Nat} (hbits : bits < infinityBits) (hk : units bits = k * one)
    (negative : Bool) : ofDecimal negative (10 * k) (-1) = ofMagnitude negative bits := by
  by_cases hzero : k = 0
  · have : bits = 0 := by rw [← units_eq_zero_iff, hk, hzero, Nat.zero_mul]
    rw [hzero, this]
    rfl
  · have hbound : k < 10 ^ 400 := by
      have hunits := units_lt hbits
      rw [hk] at hunits
      calc k < pow2 1024 := Nat.lt_of_mul_lt_mul_right hunits
        _ ≤ 10 ^ 400 := by decide +kernel
    have hsize : (Nat.toDigits 10 (10 * k)).length ≤ 401 :=
      (Nat.length_toDigits_le_iff (by decide) (by decide)).2 (by omega)
    have hten : 10 * k * one = 10 * units bits := by rw [hk, Nat.mul_assoc]
    unfold ofDecimal
    dsimp only
    rw [if_neg (by omega), if_neg (by omega), if_neg (by decide), hten,
      show pow10 (-(-1 : Int)).toNat = 10 * 1 from rfl, nearestBits_mul_left (by decide),
      nearestBits_units hbits]

end ChipScript.Binary64
