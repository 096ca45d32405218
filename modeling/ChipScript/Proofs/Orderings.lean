import Mathlib.Algebra.Order.Field.Power
import Mathlib.Algebra.Order.Field.Rat
import Mathlib.Data.Int.ConditionallyCompleteOrder
import Mathlib.Data.String.Basic
import Mathlib.Order.WithBot
import Mathlib.Tactic.FieldSimp
import Mathlib.Tactic.Positivity
import Mathlib.Tactic.Ring
import ChipScript.Proofs.Operators

/-!
# One order for each kind of value

Two texts, or two numbers none of which is NaN, are compared by one linear order
(`comparisons_follow_one_order`). For texts it is the order of dictionaries, by code points. For
numbers it is that of their values, whatever carries them: `Number.value?` gives a number its place
among the rational numbers and two infinities, and `compare?_eq_cmp` shows that comparing whole
units, as the operators do, is comparing these values. Nothing is converted on the way, so an
integer beyond the doubles keeps its place among them.

All that the six operators have to agree on follows from there being such an order
(`Operator.RankedBy.comparesTotally`).
-/

namespace ChipScript

/-! ### Values of doubles -/

namespace Binary64

/-- The rational numbers in order, with an infinity at either end. -/
abbrev Extended := WithBot (WithTop ℚ)

/-- A rational number among the extended ones. -/
def Extended.ofRat (q : ℚ) : Extended := ((q : WithTop ℚ) : Extended)

theorem Extended.ofRat_lt_ofRat {p q : ℚ} : ofRat p < ofRat q ↔ p < q := by
  unfold ofRat
  rw [WithBot.coe_lt_coe, WithTop.coe_lt_coe]

theorem Extended.bot_lt_ofRat (q : ℚ) : ⊥ < ofRat q :=
  WithBot.bot_lt_coe _

theorem Extended.ofRat_lt_top (q : ℚ) : ofRat q < ⊤ := by
  show ((q : WithTop ℚ) : Extended) < ((⊤ : WithTop ℚ) : Extended)
  rw [WithBot.coe_lt_coe]
  exact WithTop.coe_lt_top q

/-- Units are ordered as their values. -/
theorem Extended.strictMono_ofUnits : StrictMono fun u : ℤ => ofRat (u / 2 ^ 1074) := by
  intro u v huv
  rw [ofRat_lt_ofRat]
  exact div_lt_div_of_pos_right (Int.cast_lt.2 huv) (by positivity)

/-- The rational number that the pattern of a finite double without its sign stands for. The
fraction has 52 bits; a leading one stands before it unless the exponent is zero, which then counts
as one. -/
def fractionValue (bits : Nat) : ℚ :=
  let exponent : Nat := bits / 2 ^ 52
  let fraction : ℚ := (bits % 2 ^ 52 : Nat) / 2 ^ 52
  if exponent = 0 then fraction * 2 ^ ((1 : ℤ) - 1023)
  else (1 + fraction) * 2 ^ ((exponent : ℤ) - 1023)

/-- The value of a double, nothing for NaN. -/
def value? (x : Float) : Option Extended :=
  if magnitude x < infinityBits then
    some (.ofRat (if isNegative x then -fractionValue (magnitude x)
      else fractionValue (magnitude x)))
  else if magnitude x = infinityBits then some (if isNegative x then ⊥ else ⊤)
  else none

theorem cast_pow2 (n : Nat) : (pow2 n : ℚ) = 2 ^ n :=
  Nat.cast_pow 2 n

/-- A power of two, counted in units with 52 bits below the point. -/
theorem zpow_exponent {e : Nat} (he : e ≠ 0) :
    (2 : ℚ) ^ ((e : ℤ) - 1023) = 2 ^ 52 * 2 ^ (e - 1) / 2 ^ 1074 := by
  have htwo : (2 : ℚ) ≠ 0 := two_ne_zero
  rw [← pow_add, ← zpow_natCast, ← zpow_natCast, ← zpow_sub₀ htwo]
  congr 1
  omega

/-- The value of a pattern is its number of units, each the smallest double. -/
theorem fractionValue_eq (bits : Nat) : fractionValue bits = units bits / 2 ^ 1074 := by
  have hscale : (2 : ℚ) ^ 52 ≠ 0 := by positivity
  have hexponent : bits / 2 ^ 52 = 0 ↔ bits < 2 ^ 52 := by omega
  unfold fractionValue units
  rw [fractionSize_eq]
  dsimp only
  by_cases h : bits < 2 ^ 52
  · have hone := zpow_exponent one_ne_zero
    rw [Nat.cast_one] at hone
    rw [if_pos (hexponent.2 h), if_pos h, Nat.mod_eq_of_lt h, hone]
    field_simp
    ring
  · have hne := mt hexponent.1 h
    rw [if_neg hne, if_neg h, zpow_exponent hne, Nat.cast_mul, cast_pow2, Nat.cast_add,
      Nat.cast_pow]
    field_simp
    push_cast
    ring

/-- The place of a number of units among the extended rational numbers. -/
def Exact.value? : Exact → Option Extended
  | nan => none
  | negInfinity => some ⊥
  | finite u => some (.ofRat (u / 2 ^ 1074))
  | infinity => some ⊤

/-- Exact values are told apart by their values. -/
theorem Exact.value?_injective : Function.Injective Exact.value? := by
  have hne : (2 : ℚ) ^ 1074 ≠ 0 := by positivity
  intro x y h
  cases x <;> cases y <;> simp_all [value?, Extended.ofRat, div_left_inj']

/-- The value of a double is that of its exact value. -/
theorem value?_exact (x : Float) : (exact x).value? = value? x := by
  unfold exact value?
  split
  · rw [fractionValue_eq]
    split <;> simp [Exact.value?, neg_div]
  · split
    · split <;> rfl
    · rfl

/-- Comparing units is comparing values. -/
theorem Exact.compare?_eq_cmp (x y : Exact) :
    x.compare? y = x.value?.bind fun p => y.value?.map fun q => cmp p q := by
  have hlt {p q : Extended} (h : p < q) : some Ordering.lt = some (cmp p q) :=
    congrArg some ((cmp_eq_lt_iff p q).2 h).symm
  have hgt {p q : Extended} (h : q < p) : some Ordering.gt = some (cmp p q) :=
    congrArg some ((cmp_eq_gt_iff p q).2 h).symm
  have heq (p : Extended) : some Ordering.eq = some (cmp p p) :=
    congrArg some (cmp_self_eq_eq p).symm
  cases x with
  | nan => cases y <;> rfl
  | negInfinity =>
    cases y with
    | nan => rfl
    | negInfinity => exact heq ⊥
    | finite v => exact hlt (Extended.bot_lt_ofRat _)
    | infinity => exact hlt bot_lt_top
  | finite u =>
    cases y with
    | nan => rfl
    | negInfinity => exact hgt (Extended.bot_lt_ofRat _)
    | finite v =>
      show some (compare u v) = some (cmp _ _)
      rw [← cmp_eq_compare, ← Extended.strictMono_ofUnits.cmp_map_eq u v]
    | infinity => exact hlt (Extended.ofRat_lt_top _)
  | infinity =>
    cases y with
    | nan => rfl
    | negInfinity => exact hgt bot_lt_top
    | finite v => exact hgt (Extended.ofRat_lt_top _)
    | infinity => exact heq ⊤

end Binary64

namespace Number

/-- The value of a number, nothing for NaN. -/
def value? : Number → Option Binary64.Extended
  | int n => some (.ofRat n)
  | float x => Binary64.value? x

theorem value?_exact (a : Number) : a.exact.value? = a.value? := by
  cases a with
  | float x => exact Binary64.value?_exact x
  | int n =>
    have hne : (2 : ℚ) ^ 1074 ≠ 0 := by positivity
    show some (Binary64.Extended.ofRat _) = some (Binary64.Extended.ofRat _)
    rw [Int.cast_mul, Int.cast_natCast, Binary64.one, Binary64.cast_pow2, Binary64.unitShift,
      mul_div_cancel_right₀ _ hne]

/-- Numbers compare as their values do, and a NaN with nothing. -/
theorem compare?_eq_cmp (a b : Number) :
    a.compare? b = a.value?.bind fun x => b.value?.map fun y => cmp x y := by
  rw [compare?, Binary64.Exact.compare?_eq_cmp, value?_exact, value?_exact]

theorem value?_eq_none_iff {a : Number} : a.value? = none ↔ a.isNaN = true := by
  rw [isNaN, ← value?_exact]
  cases a.exact <;> simp [Binary64.Exact.value?]

/-- A number that is not NaN has a value. -/
theorem exists_value_of_not_isNaN {a : Number} (h : a.isNaN = false) : ∃ x, a.value? = some x := by
  rw [← Option.ne_none_iff_exists', ne_eq, value?_eq_none_iff, h]
  decide

end Number

/-! ### What a comparison answers -/

namespace Operator

/-- The operator answers one, and does nothing else. -/
def Holds (op : Operator) (a b : Value) : Prop :=
  ∀ {σ : Type} (s : σ), op.on a b s = ⟨.done (.int 1), s, []⟩

def Fails (op : Operator) (a b : Value) : Prop :=
  ∀ {σ : Type} (s : σ), op.on a b s = ⟨.done (.int 0), s, []⟩

def comparisons : List Operator :=
  [equal, unequal, greater, atLeast, less, atMost]

/-- Whether a comparison answers one, given how two values compare. -/
def accepts : Operator → Option Ordering → Bool
  | equal, c => c = some .eq
  | unequal, c => c ≠ some .eq
  | greater, c => c = some .gt
  | atLeast, c => c = some .gt ∨ c = some .eq
  | less, c => c = some .lt
  | atMost, c => c = some .lt ∨ c = some .eq
  | _, _ => false

section

variable {op : Operator} {a b : Value} {c : Option Ordering}

/-- What an operator comes to does not depend on the state. -/
theorem on_eq_done_iff {v : Value} :
    (∀ {σ : Type} (s : σ), op.on a b s = ⟨.done v, s, []⟩) ↔ op.apply a b = .done v := by
  constructor
  · intro h
    rw [← ending_on op a b (), h]
  · intro h σ s
    rw [on_eq, h]
    rfl

/-- A comparison holds if it gives one. -/
theorem holds_iff : op.Holds a b ↔ op.apply a b = .done (.int 1) :=
  on_eq_done_iff

/-- A comparison fails if it gives zero. -/
theorem fails_iff : op.Fails a b ↔ op.apply a b = .done (.int 0) :=
  on_eq_done_iff

/-- Values are equal just if they compare so. -/
theorem equal_of_order (h : order a b = .done c) : a.equal b = decide (c = some .eq) := by
  cases a with
  | num x =>
    cases b with
    | num y =>
      cases h
      rfl
    | text t => cases h
  | text s =>
    cases b with
    | num y => cases h
    | text t =>
      cases h
      apply decide_eq_decide.2
      rw [← cmp_eq_compare, Option.some_inj, cmp_eq_eq_iff]

/-- A comparison accepts some of the outcomes that an order can have. -/
theorem apply_of_order (hop : op ∈ comparisons) (h : order a b = .done c) :
    op.apply a b = .done (.ofBool (op.accepts c)) := by
  have hequal := equal_of_order h
  have horder (orders : List Ordering) :
      inOrder orders a b = .done (.ofBool (c.any orders.contains)) := by
    rw [inOrder, h]
    rfl
  simp only [comparisons, List.mem_cons, List.not_mem_nil, or_false] at hop
  rcases hop with rfl | rfl | rfl | rfl | rfl | rfl
  · rw [apply, hequal]
    rfl
  · rw [apply, hequal]
    simp [accepts]
  all_goals
    rw [apply, horder]
    rcases c with _ | _ | _ | _ <;> rfl

theorem holds_iff_of_order (hop : op ∈ comparisons) (h : order a b = .done c) :
    op.Holds a b ↔ op.accepts c = true := by
  rw [holds_iff, apply_of_order hop h]
  cases op.accepts c <;> simp [Value.ofBool, Value.int]

theorem fails_iff_of_order (hop : op ∈ comparisons) (h : order a b = .done c) :
    op.Fails a b ↔ op.accepts c = false := by
  rw [fails_iff, apply_of_order hop h]
  cases op.accepts c <;> simp [Value.ofBool, Value.int]

end

/-! ### One order for all six -/

/-- The six comparisons of some values answer as one linear order does: just one of less, equal and
greater holds, the other three are made of them, less is transitive and equal is an equivalence. -/
structure ComparesTotally (S : Value → Prop) : Prop where
  answers {a b : Value} (ha : S a) (hb : S b) :
    ∀ op ∈ comparisons, (op.Holds a b ∧ ¬ op.Fails a b) ∨ (op.Fails a b ∧ ¬ op.Holds a b)
  existsUnique {a b : Value} (ha : S a) (hb : S b) :
    ∃! op, op ∈ [less, equal, greater] ∧ op.Holds a b
  atMost_iff {a b : Value} (ha : S a) (hb : S b) :
    atMost.Holds a b ↔ less.Holds a b ∨ equal.Holds a b
  atLeast_iff {a b : Value} (ha : S a) (hb : S b) :
    atLeast.Holds a b ↔ greater.Holds a b ∨ equal.Holds a b
  unequal_iff {a b : Value} (ha : S a) (hb : S b) : unequal.Holds a b ↔ equal.Fails a b
  less_trans {a b c : Value} (ha : S a) (hb : S b) (hc : S c) (hab : less.Holds a b)
    (hbc : less.Holds b c) : less.Holds a c
  equal_refl {a : Value} (ha : S a) : equal.Holds a a
  equal_symm {a b : Value} (ha : S a) (hb : S b) (hab : equal.Holds a b) : equal.Holds b a
  equal_trans {a b c : Value} (ha : S a) (hb : S b) (hc : S c) (hab : equal.Holds a b)
    (hbc : equal.Holds b c) : equal.Holds a c

theorem accepts_less_iff {c : Option Ordering} : less.accepts c = true ↔ c = some .lt :=
  decide_eq_true_iff

theorem accepts_greater_iff {c : Option Ordering} : greater.accepts c = true ↔ c = some .gt :=
  decide_eq_true_iff

theorem accepts_equal_iff {c : Option Ordering} : equal.accepts c = true ↔ c = some .eq :=
  decide_eq_true_iff

theorem accepts_atMost_iff {c : Option Ordering} :
    atMost.accepts c = true ↔ less.accepts c = true ∨ equal.accepts c = true := by
  simp [accepts]

theorem accepts_atLeast_iff {c : Option Ordering} :
    atLeast.accepts c = true ↔ greater.accepts c = true ∨ equal.accepts c = true := by
  simp [accepts]

theorem accepts_unequal_iff {c : Option Ordering} :
    unequal.accepts c = true ↔ equal.accepts c = false := by
  simp [accepts]

/-- However two values compare, one of three comparisons accepts it. -/
theorem existsUnique_accepts (o : Ordering) :
    ∃! op, op ∈ [less, equal, greater] ∧ op.accepts (some o) = true := by
  cases o with
  | lt => exact ⟨less, by decide, fun op h => by cases op <;> simp_all [accepts]⟩
  | eq => exact ⟨equal, by decide, fun op h => by cases op <;> simp_all [accepts]⟩
  | gt => exact ⟨greater, by decide, fun op h => by cases op <;> simp_all [accepts]⟩

section

variable {α : Type} [LinearOrder α] {S : Value → Prop} {rank : Value → α}

/-- A rank of values that comparing them follows. -/
def RankedBy (S : Value → Prop) (rank : Value → α) : Prop :=
  ∀ ⦃a b : Value⦄, S a → S b → order a b = .done (some (cmp (rank a) (rank b)))

variable (h : RankedBy S rank) {a b : Value} (ha : S a) (hb : S b)
include h ha hb

/-- Where values have a rank, a comparison is one of ranks. -/
theorem RankedBy.holds_iff {op : Operator} (hop : op ∈ comparisons) :
    op.Holds a b ↔ op.accepts (some (cmp (rank a) (rank b))) = true :=
  holds_iff_of_order hop (h ha hb)

theorem RankedBy.less_iff : less.Holds a b ↔ rank a < rank b := by
  rw [h.holds_iff ha hb (by decide), accepts_less_iff, Option.some_inj, cmp_eq_lt_iff]

theorem RankedBy.equal_iff : equal.Holds a b ↔ rank a = rank b := by
  rw [h.holds_iff ha hb (by decide), accepts_equal_iff, Option.some_inj, cmp_eq_eq_iff]

theorem RankedBy.greater_iff : greater.Holds a b ↔ rank b < rank a := by
  rw [h.holds_iff ha hb (by decide), accepts_greater_iff, Option.some_inj, cmp_eq_gt_iff]

theorem RankedBy.atMost_iff : atMost.Holds a b ↔ rank a ≤ rank b := by
  rw [h.holds_iff ha hb (by decide), accepts_atMost_iff, ← h.holds_iff ha hb (by decide),
    ← h.holds_iff ha hb (by decide), h.less_iff ha hb, h.equal_iff ha hb, le_iff_lt_or_eq]

theorem RankedBy.atLeast_iff : atLeast.Holds a b ↔ rank b ≤ rank a := by
  rw [h.holds_iff ha hb (by decide), accepts_atLeast_iff, ← h.holds_iff ha hb (by decide),
    ← h.holds_iff ha hb (by decide), h.greater_iff ha hb, h.equal_iff ha hb, le_iff_lt_or_eq,
    eq_comm]

omit ha hb

/-- Values that have ranks compare totally. -/
theorem RankedBy.comparesTotally : ComparesTotally S where
  answers ha hb op hop := by
    rw [h.holds_iff ha hb hop, fails_iff_of_order hop (h ha hb)]
    cases op.accepts (some (cmp (rank _) (rank _))) <;> simp
  existsUnique {a b} ha hb := by
    obtain ⟨op, ⟨hmem, haccepts⟩, hunique⟩ := existsUnique_accepts (cmp (rank a) (rank b))
    have hcomparison {op : Operator} (hmem : op ∈ [less, equal, greater]) : op ∈ comparisons := by
      simp only [List.mem_cons, List.not_mem_nil, or_false] at hmem
      rcases hmem with rfl | rfl | rfl <;> decide
    refine ⟨op, ⟨hmem, (h.holds_iff ha hb (hcomparison hmem)).2 haccepts⟩, ?_⟩
    rintro op' ⟨hmem', hholds⟩
    exact hunique op' ⟨hmem', (h.holds_iff ha hb (hcomparison hmem')).1 hholds⟩
  atMost_iff ha hb := by
    rw [h.holds_iff ha hb (by decide : atMost ∈ comparisons),
      h.holds_iff ha hb (by decide : less ∈ comparisons),
      h.holds_iff ha hb (by decide : equal ∈ comparisons)]
    exact accepts_atMost_iff
  atLeast_iff ha hb := by
    rw [h.holds_iff ha hb (by decide : atLeast ∈ comparisons),
      h.holds_iff ha hb (by decide : greater ∈ comparisons),
      h.holds_iff ha hb (by decide : equal ∈ comparisons)]
    exact accepts_atLeast_iff
  unequal_iff ha hb := by
    rw [h.holds_iff ha hb (by decide : unequal ∈ comparisons),
      fails_iff_of_order (by decide) (h ha hb)]
    exact accepts_unequal_iff
  less_trans ha hb hc hab hbc := by
    rw [h.less_iff ha hb] at hab
    rw [h.less_iff hb hc] at hbc
    exact (h.less_iff ha hc).2 (hab.trans hbc)
  equal_refl ha := (h.equal_iff ha ha).2 rfl
  equal_symm ha hb hab := (h.equal_iff hb ha).2 ((h.equal_iff ha hb).1 hab).symm
  equal_trans ha hb hc hab hbc :=
    (h.equal_iff ha hc).2 (((h.equal_iff ha hb).1 hab).trans ((h.equal_iff hb hc).1 hbc))

end

/-! ### Texts and numbers -/

/-- Texts are ranked as they stand in a dictionary. -/
def textRank : Value → String
  | .text s => s
  | .num _ => ""

/-- Numbers are ranked by their values; the rank of a NaN means nothing. -/
def numberRank : Value → Binary64.Extended
  | .num a => a.value?.getD ⊥
  | .text _ => ⊥

def IsText (v : Value) : Prop := ∃ s, v = .text s

def IsOrdered (v : Value) : Prop := ∃ a, v = .num a ∧ a.isNaN = false

/-- Texts are ranked by their characters. -/
theorem rankedBy_textRank : RankedBy IsText textRank := by
  rintro _ _ ⟨s, rfl⟩ ⟨t, rfl⟩
  rw [cmp_eq_compare]
  rfl

theorem numberRank_eq {a : Number} {x : Binary64.Extended} (h : a.value? = some x) :
    numberRank (.num a) = x := by
  rw [numberRank, h, Option.getD_some]

/-- Numbers but NaN are ranked by their values. -/
theorem rankedBy_numberRank : RankedBy IsOrdered numberRank := by
  rintro _ _ ⟨a, rfl, ha⟩ ⟨b, rfl, hb⟩
  obtain ⟨x, hx⟩ := Number.exists_value_of_not_isNaN ha
  obtain ⟨y, hy⟩ := Number.exists_value_of_not_isNaN hb
  show Ending.done (a.compare? b) = _
  rw [Number.compare?_eq_cmp, hx, hy, numberRank_eq hx, numberRank_eq hy]
  rfl

/-- With a NaN there is no order. -/
theorem order_of_isNaN {a b : Number} (h : a.isNaN = true ∨ b.isNaN = true) :
    order (.num a) (.num b) = .done none := by
  rw [← Number.value?_eq_none_iff, ← Number.value?_eq_none_iff] at h
  show Ending.done (a.compare? b) = _
  rw [Number.compare?_eq_cmp]
  rcases h with h | h
  · rw [h]
    rfl
  · rw [h]
    cases a.value? <;> rfl

end Operator

def Text.codePoints (s : String) : List Nat :=
  s.toList.map Char.toNat

/-- Texts are ordered as their code points are, one after another. -/
theorem Text.lt_iff_codePoints_lt {s t : String} : s < t ↔ codePoints s < codePoints t := by
  have hlists (as bs : List Char) : as < bs ↔ as.map Char.toNat < bs.map Char.toNat := by
    induction as generalizing bs with
    | nil => cases bs <;> simp
    | cons a as ih =>
      cases bs with
      | nil => simp
      | cons b bs =>
        rw [List.map_cons, List.map_cons, List.cons_lt_cons_iff, List.cons_lt_cons_iff, ih bs,
          Char.toNat_inj]
        rfl
  rw [String.lt_iff_toList_lt, hlists]
  rfl

open Operator in
/-- The six comparisons of texts follow one linear order, and so do those of numbers other than NaN.
Texts are ordered by their code points like words in a dictionary, numbers by their values, whatever
carries them. A NaN is unequal to every number, and no other comparison of the two holds. -/
theorem comparisons_follow_one_order :
    ComparesTotally IsText ∧ ComparesTotally IsOrdered ∧
    (∀ s t, (less.Holds (.text s) (.text t) ↔ Text.codePoints s < Text.codePoints t) ∧
      (equal.Holds (.text s) (.text t) ↔ s = t)) ∧
    (∀ a b : Number, a.isNaN = false → b.isNaN = false →
      ∃ x y, a.value? = some x ∧ b.value? = some y ∧
        (less.Holds (.num a) (.num b) ↔ x < y) ∧ (equal.Holds (.num a) (.num b) ↔ x = y)) ∧
    ∀ a b : Number, a.isNaN = true ∨ b.isNaN = true →
      (∀ op ∈ [less, atMost, greater, atLeast, equal], op.Fails (.num a) (.num b)) ∧
      unequal.Holds (.num a) (.num b) := by
  refine ⟨rankedBy_textRank.comparesTotally, rankedBy_numberRank.comparesTotally, ?_, ?_, ?_⟩
  · intro s t
    have hs : IsText (.text s) := ⟨s, rfl⟩
    have ht : IsText (.text t) := ⟨t, rfl⟩
    rw [rankedBy_textRank.less_iff hs ht, ← Text.lt_iff_codePoints_lt,
      rankedBy_textRank.equal_iff hs ht]
    exact ⟨Iff.rfl, Iff.rfl⟩
  · intro a b ha hb
    obtain ⟨x, hx⟩ := Number.exists_value_of_not_isNaN ha
    obtain ⟨y, hy⟩ := Number.exists_value_of_not_isNaN hb
    refine ⟨x, y, hx, hy, ?_⟩
    rw [rankedBy_numberRank.less_iff ⟨a, rfl, ha⟩ ⟨b, rfl, hb⟩,
      rankedBy_numberRank.equal_iff ⟨a, rfl, ha⟩ ⟨b, rfl, hb⟩, numberRank_eq hx,
      numberRank_eq hy]
    exact ⟨Iff.rfl, Iff.rfl⟩
  · intro a b h
    have horder := order_of_isNaN h
    refine ⟨?_, (holds_iff_of_order (by decide) horder).2 rfl⟩
    intro op hop
    simp only [List.mem_cons, List.not_mem_nil, or_false] at hop
    rcases hop with rfl | rfl | rfl | rfl | rfl <;>
      exact (fails_iff_of_order (by decide) horder).2 rfl

open Operator in
/-- The integer after `2 ^ 53`, which no double is equal to, stands above the double before it, and
an integer beyond all doubles stands below infinity. -/
theorem integers_keep_their_place_among_doubles :
    let before : Number := .float (Binary64.ofInt (2 ^ 53))
    let after : Number := .int (2 ^ 53 + 1)
    let beyond : Number := .int (2 ^ 1024)
    let infinite : Number := .float (Binary64.infinity false)
    (∃ x y, before.value? = some x ∧ after.value? = some y ∧ x < y) ∧
      less.Holds (.num after) (.num infinite) ∧
      (∀ op ∈ [less, atMost, greater, atLeast, equal],
        op.Fails (.num beyond) (.num (.float Binary64.nan))) := by
  intro before after beyond infinite
  obtain ⟨_, htotal, _, hvalues, hnan⟩ := comparisons_follow_one_order
  obtain ⟨x, y, hx, hy, hless, _⟩ := hvalues before after (by decide +kernel) (by decide +kernel)
  have hbefore : less.Holds (.num before) (.num after) := holds_iff.2 (by decide +kernel)
  have hafter : less.Holds (.num after) (.num beyond) := holds_iff.2 (by decide +kernel)
  have hbeyond : less.Holds (.num beyond) (.num infinite) := holds_iff.2 (by decide +kernel)
  refine ⟨⟨x, y, hx, hy, hless.1 hbefore⟩, ?_, ?_⟩
  · exact htotal.less_trans ⟨after, rfl, by decide +kernel⟩ ⟨beyond, rfl, by decide +kernel⟩
      ⟨infinite, rfl, by decide +kernel⟩ hafter hbeyond
  · exact (hnan beyond (.float Binary64.nan) (.inr (by decide +kernel))).1

end ChipScript
