import ChipScript.Number.Arithmetic
import ChipScript.Number.Decimal
import ChipScript.Proofs.Binary64

/-!
# Arithmetic on bounded numbers

An integer within `±2 ^ 53` is *bounded*, and so is every double. On bounded numbers no operation of
arithmetic fails for want of a double, and each has a bounded result for a reason of its own: sums
and products are normalised, quotients and powers are doubles, a remainder is smaller than its
divisor. What is left to fail for is a divisor of zero (`div_succeeds_iff`, `mod_succeeds_iff`).

Writing a number never fails, since it is normalised first (`write_eq`).
-/

namespace ChipScript

namespace Number

/-- An integer that is carried as one, or any double. -/
def Bounded : Number → Prop
  | int n => -maxExact ≤ n ∧ n ≤ maxExact
  | float _ => True

instance : DecidablePred Bounded
  | int n => inferInstanceAs (Decidable (-maxExact ≤ n ∧ n ≤ maxExact))
  | float _ => inferInstanceAs (Decidable True)

/-- A bounded integer is no larger than the doubles are exact. -/
theorem natAbs_le_of_bounded {n : Int} (h : (int n).Bounded) : n.natAbs ≤ 2 ^ 53 := by
  have hmax : maxExact = 2 ^ 53 := rfl
  unfold Bounded at h
  omega

/-- Whatever was normalised is bounded. -/
theorem bounded_normalize (a : Number) : a.normalize.Bounded := by
  cases a with
  | float x => trivial
  | int n =>
    by_cases h : -maxExact ≤ n ∧ n ≤ maxExact
    · rw [normalize, if_pos h]
      exact h
    · rw [normalize, if_neg h]
      trivial

/-- A bounded number is normalised already. -/
theorem normalize_of_bounded {a : Number} (h : a.Bounded) : a.normalize = a := by
  cases a with
  | int n => exact if_pos h
  | float x => rfl

theorem bounded_ofLiteral? {s : String} {a : Number} (h : ofLiteral? s = some a) : a.Bounded := by
  unfold ofLiteral? at h
  split at h
  · cases h
    exact bounded_normalize _
  · obtain ⟨x, _, rfl⟩ := Option.map_eq_some_iff.1 h
    trivial

/-- What is read from a text is bounded. -/
theorem bounded_ofText? {s : String} {a : Number} (h : ofText? s = some a) : a.Bounded := by
  unfold ofText? at h
  split at h
  · cases h
    exact bounded_normalize _
  · obtain ⟨x, _, rfl⟩ := Option.map_eq_some_iff.1 (Option.filter_eq_some_iff.1 h).1
    trivial

end Number

/-! ### Zeros -/

theorem Binary64.Exact.compare?_eq_eq_iff {x y : Binary64.Exact} :
    x.compare? y = some .eq ↔ x = y ∧ x ≠ .nan := by
  cases x <;> cases y <;> simp [compare?]

namespace Number

/-- Numbers are equal if they have the same value, unless that is NaN. -/
theorem equal_iff {a b : Number} :
    a.equal b = true ↔ a.exact = b.exact ∧ a.exact ≠ .nan := by
  simp [equal, compare?, Binary64.Exact.compare?_eq_eq_iff]

/-- One of the three forms of zero. -/
def IsZero (a : Number) : Prop :=
  a = int 0 ∨ a = float (Binary64.zero false) ∨ a = float (Binary64.zero true)

/-- Equal to zero are the integer zero and the two doubles. -/
theorem isZero_iff (a : Number) : a.isZero = true ↔ a.IsZero := by
  have hzero : (int 0).exact = .finite 0 := congrArg Binary64.Exact.finite (Int.zero_mul _)
  have hvalue : a.isZero = true ↔ a.exact = .finite 0 := by
    rw [isZero, equal_iff, hzero]
    constructor
    · exact And.left
    · intro h
      exact ⟨h, by rw [h]; exact nofun⟩
  rw [hvalue]
  cases a with
  | int n =>
    have hone : (Binary64.one : Int) ≠ 0 := by decide +kernel
    have hunits : n * (Binary64.one : Int) = 0 ↔ n = 0 := by
      rw [Int.mul_eq_zero, or_iff_left hone]
    show Binary64.Exact.finite (n * Binary64.one) = .finite 0 ↔ _
    rw [Binary64.Exact.finite.injEq, hunits]
    simp [IsZero]
  | float x =>
    show Binary64.exact x = .finite 0 ↔ _
    rw [Binary64.exact_eq_zero_iff]
    simp [IsZero]

theorem isZero_int_iff (n : Int) : (int n).isZero = true ↔ n = 0 := by
  simp [isZero_iff, IsZero]

/-! ### Doubles -/

/-- A bounded number has a nearest double. -/
theorem exists_toFloat {a : Number} (h : a.Bounded) : ∃ x, a.toFloat = .ok x := by
  cases a with
  | float x => exact ⟨x, rfl⟩
  | int n =>
    exact ⟨_, if_neg (Binary64.ofInt_ne_infinity (natAbs_le_of_bounded h))⟩

theorem ofInt_eq_of_toFloat {n : Int} {x : Float} (hx : (int n).toFloat = .ok x) :
    Binary64.ofInt n = x := by
  unfold toFloat at hx
  dsimp only at hx
  split at hx
  · cases hx
  · exact Except.ok.inj hx

/-- A number that is not zero has no double that is zero. -/
theorem isZero_toFloat {a : Number} {x : Float} (hx : a.toFloat = .ok x) :
    (float x).isZero = a.isZero := by
  cases a with
  | float y =>
    obtain rfl := Except.ok.inj hx
    rfl
  | int n =>
    have hofInt := ofInt_eq_of_toFloat hx
    have hmagnitude (negative : Bool) : Binary64.magnitude (Binary64.zero negative) = 0 :=
      Binary64.magnitude_ofMagnitude negative (Nat.zero_le _)
    rw [Bool.eq_iff_iff, isZero_int_iff, isZero_iff, ← Binary64.magnitude_ofInt_eq_zero_iff, hofInt]
    constructor
    · rintro (h | h | h)
      · cases h
      · rw [float.inj h, hmagnitude]
      · rw [float.inj h, hmagnitude]
    · intro h
      have hzero : Binary64.ofInt 0 = Binary64.zero false := by decide +kernel
      rw [← hofInt, Binary64.magnitude_ofInt_eq_zero_iff] at h
      rw [← hofInt, h, hzero]
      exact .inr (.inl rfl)

/-- An integer has no double that is NaN. -/
theorem isNaN_toFloat {a : Number} {x : Float} (hx : a.toFloat = .ok x) :
    (float x).isNaN = a.isNaN := by
  cases a with
  | float y =>
    obtain rfl := Except.ok.inj hx
    rfl
  | int n =>
    obtain rfl := ofInt_eq_of_toFloat hx
    have hle : Binary64.magnitude (Binary64.ofInt n) ≤ Binary64.infinityBits := by
      rw [Binary64.magnitude_ofInt]
      exact Binary64.nearestBits_le _ _
    have hexact : Binary64.exact (Binary64.ofInt n) ≠ .nan := by
      unfold Binary64.exact
      split
      · exact nofun
      · rw [if_pos (by omega)]
        split <;> exact nofun
    exact decide_eq_false hexact

/-! ### Operations -/

/-- The operation has a result, and a bounded one. -/
def Succeeds (r : Except ArithmeticError Number) : Prop :=
  ∃ a, r = .ok a ∧ a.Bounded

section

variable {a b : Number} (ha : a.Bounded) (hb : b.Bounded)

include ha hb in
/-- An operation on bounded numbers is one on integers or one on doubles. -/
theorem combine_succeeds {onIntegers : Int → Int → Except ArithmeticError Number}
    {onDoubles : Float → Float → Except ArithmeticError Number}
    (hintegers : ∀ m n, a = int m → b = int n → Succeeds (onIntegers m n))
    (hdoubles : ∀ x y, a.toFloat = .ok x → b.toFloat = .ok y → Succeeds (onDoubles x y)) :
    Succeeds (combine onIntegers onDoubles a b) := by
  obtain ⟨x, hx⟩ := exists_toFloat ha
  obtain ⟨y, hy⟩ := exists_toFloat hb
  have hmixed : Succeeds (do onDoubles (← a.toFloat) (← b.toFloat)) := by
    rw [hx, hy]
    exact hdoubles x y hx hy
  cases a with
  | float u => exact hmixed
  | int m =>
    cases b with
    | float v => exact hmixed
    | int n => exact hintegers m n rfl rfl

include ha hb in
theorem add_succeeds : Succeeds (a.add b) :=
  combine_succeeds ha hb (fun _ _ _ _ => ⟨_, rfl, bounded_normalize _⟩)
    fun _ _ _ _ => ⟨_, rfl, trivial⟩

include ha hb in
theorem sub_succeeds : Succeeds (a.sub b) :=
  combine_succeeds ha hb (fun _ _ _ _ => ⟨_, rfl, bounded_normalize _⟩)
    fun _ _ _ _ => ⟨_, rfl, trivial⟩

include ha hb in
theorem mul_succeeds : Succeeds (a.mul b) :=
  combine_succeeds ha hb (fun _ _ _ _ => ⟨_, rfl, bounded_normalize _⟩)
    fun _ _ _ _ => ⟨_, rfl, trivial⟩

include ha hb in
/-- A power of bounded numbers has a result, since both are taken as doubles. -/
theorem power_succeeds : Succeeds (a.power b) := by
  obtain ⟨x, hx⟩ := exists_toFloat ha
  obtain ⟨y, hy⟩ := exists_toFloat hb
  rw [power, hx, hy]
  exact ⟨_, rfl, trivial⟩

/-- A remainder lies between zero and the divisor, whichever its sign. -/
theorem bounded_fmod {m n : Int} (hn : (int n).Bounded) (hzero : n ≠ 0) :
    (int (m.fmod n)).Bounded := by
  have hlow := Int.emod_nonneg m hzero
  have hhigh := Int.emod_lt m hzero
  have hbounds : -maxExact ≤ n ∧ n ≤ maxExact := hn
  show -maxExact ≤ m.fmod n ∧ m.fmod n ≤ maxExact
  rw [Int.fmod_eq_emod]
  split <;> omega

include ha hb in
/-- An operation that refuses zeros on the right, and nothing else, fails just for those, whether it
meets them as integers or as doubles. -/
theorem combine_succeeds_iff {onIntegers : Int → Int → Except ArithmeticError Number}
    {onDoubles : Float → Float → Except ArithmeticError Number}
    (hintegers : ∀ m n, (int m).Bounded → (int n).Bounded →
      (Succeeds (onIntegers m n) ↔ n ≠ 0))
    (hdoubles : ∀ x y, Succeeds (onDoubles x y) ↔ (float y).isZero = false) :
    Succeeds (combine onIntegers onDoubles a b) ↔ b.isZero = false := by
  obtain ⟨x, hx⟩ := exists_toFloat ha
  obtain ⟨y, hy⟩ := exists_toFloat hb
  have hmixed : Succeeds (do onDoubles (← a.toFloat) (← b.toFloat)) ↔ b.isZero = false := by
    rw [hx, hy, ← isZero_toFloat hy]
    exact hdoubles x y
  cases a with
  | float u => exact hmixed
  | int m =>
    cases b with
    | float v => exact hmixed
    | int n =>
      rw [← Bool.not_eq_true, isZero_int_iff]
      exact hintegers m n ha hb

include ha hb in
/-- A quotient fails just for a divisor of zero. -/
theorem div_succeeds_iff : Succeeds (a.div b) ↔ b.isZero = false := by
  refine combine_succeeds_iff ha hb ?_ ?_
  · intro m n hm _
    have hfinite := Binary64.ofQuotient_ne_infinity (natAbs_le_of_bounded hm) n
    by_cases hn : n = 0 <;> simp [Succeeds, hn, hfinite, Bounded]
  · intro x y
    cases h : (float y).isZero <;> simp [Succeeds, Bounded]

include ha hb in
/-- A remainder fails just for a divisor of zero. -/
theorem mod_succeeds_iff : Succeeds (a.mod b) ↔ b.isZero = false := by
  refine combine_succeeds_iff ha hb ?_ ?_
  · intro m n _ hn
    by_cases hzero : n = 0
    · simp [Succeeds, hzero]
    · simp [Succeeds, hzero, bounded_fmod hn hzero]
  · intro x y
    cases h : (float y).isZero <;> simp [Succeeds, Bounded]

end

/-! ### Writing -/

/-- No integer that is left after normalising has too many digits to be written. -/
theorem write_eq (a : Number) : a.write = .ok a.toText := by
  have hbounded := a.bounded_normalize
  unfold write toText
  cases h : a.normalize with
  | float x => rfl
  | int n =>
    rw [h] at hbounded
    have hle := natAbs_le_of_bounded hbounded
    have hdigits : 2 ^ 53 < Binary64.pow10 Numeral.maxDigits := by decide +kernel
    exact if_pos (by omega)

end Number

/-! ### Rows of digits -/

theorem Text.asciiDigitValue_lt {c : Char} (h : c.isDigit = true) : asciiDigitValue c < 10 := by
  have hnine : c.toNat ≤ 57 := by
    simp only [Char.isDigit, Bool.and_eq_true, decide_eq_true_eq] at h
    exact UInt32.le_iff_toNat_le.1 h.2
  show c.toNat - 48 < 10
  omega

/-- More digits make more numbers. -/
theorem Binary64.pow10_mono {m n : Nat} (h : m ≤ n) : pow10 m ≤ pow10 n :=
  Nat.pow_le_pow_right (by decide) h

/-- A row of digits denotes less than ten to its length. -/
theorem Text.digitsValue_lt {ds : List Char} (h : ∀ c ∈ ds, c.isDigit = true) :
    digitsValue ds < Binary64.pow10 ds.length := by
  -- In the middle of the row some number has been built up.
  have hfrom (n : Nat) : ds.foldl (fun n c => 10 * n + asciiDigitValue c) n <
      (n + 1) * Binary64.pow10 ds.length := by
    induction ds generalizing n with
    | nil => simp [Binary64.pow10]
    | cons c rest ih =>
      have hdigit := asciiDigitValue_lt (h c (by simp))
      calc _ < (10 * n + asciiDigitValue c + 1) * Binary64.pow10 rest.length :=
            ih (fun c' hc' => h c' (by simp [hc'])) _
        _ ≤ ((n + 1) * 10) * Binary64.pow10 rest.length := Nat.mul_le_mul_right _ (by omega)
        _ = (n + 1) * (10 * Binary64.pow10 rest.length) := Nat.mul_assoc _ _ _
        _ = (n + 1) * Binary64.pow10 (rest.length + 1) := by rw [Nat.mul_comm 10]; rfl
  simpa [digitsValue] using hfrom 0

namespace Numeral

/-- A row of digits that is short enough denotes a number that can be written, with either sign. -/
theorem natAbs_signed_lt {ds : List Char} (hdigits : ∀ c ∈ ds, c.isDigit = true)
    (hlength : ds.length ≤ maxDigits) (negative : Bool) :
    (if negative then -(Text.digitsValue ds : Int) else Text.digitsValue ds).natAbs <
      Binary64.pow10 maxDigits := by
  have hvalue := Nat.lt_of_lt_of_le (Text.digitsValue_lt hdigits) (Binary64.pow10_mono hlength)
  cases negative with
  | false => exact hvalue
  | true => rwa [if_pos rfl, Int.natAbs_neg]

/-- A whole number that was read can be written. -/
theorem natAbs_lt_of_whole? {s : String} {n : Int} (h : whole? s = some n) :
    n.natAbs < Binary64.pow10 maxDigits := by
  obtain ⟨cs, _, h⟩ := Option.bind_eq_some_iff.1 h
  generalize splitSign cs = sign at h
  obtain ⟨negative, ds⟩ := sign
  dsimp only at h
  cases hguard : isDigits ds && decide (ds.length ≤ maxDigits) with
  | false =>
    rw [hguard] at h
    cases h
  | true =>
    rw [hguard] at h
    obtain rfl := Option.some.inj h
    rw [Bool.and_eq_true, decide_eq_true_eq, isDigits, Bool.and_eq_true] at hguard
    exact natAbs_signed_lt (List.all_eq_true.1 hguard.1.2) hguard.2 negative

end Numeral

/-- A keyword takes bounded numbers to bounded ones. -/
theorem MathKeyword.bounded_apply (keyword : MathKeyword) {a : Number} (h : a.Bounded) :
    (keyword.apply a).Bounded := by
  unfold MathKeyword.apply
  split
  · next n =>
    unfold Number.Bounded at h ⊢
    show -Number.maxExact ≤ (n.natAbs : Int) ∧ (n.natAbs : Int) ≤ Number.maxExact
    omega
  · split <;> trivial

end ChipScript
