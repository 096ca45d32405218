import ChipScript.Proofs.Orderings

/-!
# Numbers that are read back

The text of a number denotes the number again, if the number is whole and in bounds
(`Number.ofText?_toText`). An integer is written as a sign and digits, and nothing but an integer is
read from these. A whole double has a point and a zero behind all its digits, which makes it a
decimal numeral and no integer; what it denotes is the double itself, the sign of a zero included.

The first part is about texts that are free of anything that reading would change: no blanks at the
ends, no underscores, no digits of other scripts.
-/

namespace ChipScript

/-! ### Reading digits -/

namespace Text

variable {p : Char → Bool} {cs : List Char}

/-- Neither end of a text is of a kind that is trimmed. -/
def Trimmed (p : Char → Bool) (cs : List Char) : Prop :=
  (∀ c ∈ cs.head?, p c = false) ∧ ∀ c ∈ cs.getLast?, p c = false

-- Both parts are named, since going through all characters would decide them as well.
instance : Decidable (Trimmed p cs) :=
  @instDecidableAnd _ _ (Option.decidableForallMem cs.head?) (Option.decidableForallMem cs.getLast?)

theorem dropWhile_eq_self (h : ∀ c ∈ cs.head?, p c = false) : cs.dropWhile p = cs := by
  cases cs with
  | nil => rfl
  | cons c rest => rw [List.dropWhile_cons, h c rfl]; rfl

/-- What is trimmed off both ends of a text leaves the text. -/
theorem trimWith_pad (h : Trimmed p cs) {before after : List Char}
    (hbefore : ∀ c ∈ before, p c = true) (hafter : ∀ c ∈ after, p c = true) :
    trimWith p (before ++ cs ++ after) = cs := by
  have hleft : (before ++ cs ++ after).dropWhile p = (cs ++ after).dropWhile p := by
    rw [List.append_assoc, List.dropWhile_append_of_pos hbefore]
  have hright (cs : List Char) : (cs ++ after).reverse.dropWhile p = cs.reverse.dropWhile p := by
    rw [List.reverse_append, List.dropWhile_append_of_pos (by simpa using hafter)]
  unfold trimWith
  rw [hleft]
  cases cs with
  | nil =>
    have hnil : (after ++ []).dropWhile p = [] := List.dropWhile_append_of_pos hafter
    rw [List.nil_append, ← List.append_nil after, hnil]
    rfl
  | cons c rest =>
    have hfirst : (c :: rest ++ after).dropWhile p = c :: rest ++ after := dropWhile_eq_self h.1
    have hlast : (c :: rest).reverse.dropWhile p = (c :: rest).reverse := by
      apply dropWhile_eq_self
      rw [List.head?_reverse]
      exact h.2
    rw [hfirst, hright, hlast, List.reverse_reverse]

/-- Nothing is trimmed where there is nothing to trim. -/
theorem trimWith_eq_self (h : Trimmed p cs) : trimWith p cs = cs := by
  have hpad : trimWith p ([] ++ cs ++ []) = cs := trimWith_pad h nofun nofun
  rwa [List.nil_append, List.append_nil] at hpad

theorem trimmed_of_forall (h : ∀ c ∈ cs, p c = false) : Trimmed p cs :=
  ⟨fun c hc => h c (List.mem_of_mem_head? hc), fun c hc => h c (List.mem_of_mem_getLast? hc)⟩

end Text

namespace Numeral

open Text

variable {c : Char} {cs : List Char} {n k : Nat}

/-- A character from the plus sign to the nine. Those of numerals without an exponent are among
them. -/
def IsPlain (c : Char) : Prop := 43 ≤ c.toNat ∧ c.toNat ≤ 57

instance (c : Char) : Decidable (IsPlain c) :=
  inferInstanceAs (Decidable (43 ≤ c.toNat ∧ c.toNat ≤ 57))

theorem isPlain_of_isDigit (h : c.isDigit = true) : IsPlain c := by
  obtain ⟨hlow, hhigh⟩ := Char.isDigit_iff_toNat.1 h
  change 48 ≤ c.toNat at hlow
  exact ⟨by omega, hhigh⟩

theorem IsPlain.isBlank (h : IsPlain c) : isBlank c = false := by
  obtain ⟨hlow, hhigh⟩ := h
  simp [Text.isBlank, blanks, CodeRanges.has]
  omega

theorem IsPlain.isSpace (h : IsPlain c) : isSpace c = false := by
  obtain ⟨hlow, hhigh⟩ := h
  have hspace : c ≠ ' ' := by
    rintro rfl
    exact absurd hlow (by decide)
  simp [Numeral.isSpace, hspace]
  omega

/-- Without separators a row of digits stays as it is. -/
theorem dropSeparators?_eq_some (h : ∀ c ∈ cs, c ≠ '_') (afterDigit : Bool) :
    dropSeparators? afterDigit cs = some cs := by
  induction cs generalizing afterDigit with
  | nil => rfl
  | cons c rest ih =>
    obtain ⟨hc, hrest⟩ := List.forall_mem_cons.1 h
    rw [dropSeparators?, ih hrest]
    · rfl
    · exact fun hunderscore => absurd hunderscore hc
    · exact fun _ _ hunderscore => absurd hunderscore hc

/-- Plain characters are read as they are. -/
theorem plain?_ofList (h : ∀ c ∈ cs, IsPlain c) : plain? (String.ofList cs) = some cs := by
  have hascii : cs.map toAscii = cs := by
    have hkept : ∀ c ∈ cs, toAscii c = id c := by
      intro c hc
      have hlow : c.toNat < 128 := by
        have := (h c hc).2
        omega
      exact if_pos hlow
    rw [List.map_congr_left hkept, List.map_id]
  have hunderscore : ∀ c ∈ cs, c ≠ '_' := by
    rintro _ hc rfl
    exact absurd (h _ hc).2 (by decide)
  rw [plain?, String.toList_ofList, hascii,
    trimWith_eq_self (trimmed_of_forall fun c hc => (h c hc).isSpace),
    dropSeparators?_eq_some hunderscore]

/-- A numeral has no blanks to trim. -/
theorem trim_ofList (h : ∀ c ∈ cs, IsPlain c) : trim (String.ofList cs) = String.ofList cs := by
  rw [trim, String.toList_ofList,
    trimWith_eq_self (trimmed_of_forall fun c hc => (h c hc).isBlank)]

/-! ### A sign and digits -/

/-- A sign is split off from digits, if there is one. -/
theorem splitSign_signed (h : ∀ c ∈ cs.head?, c.isDigit = true) (negative : Bool) :
    splitSign (Decimal.signed negative cs) = (negative, cs) := by
  cases negative with
  | true => rfl
  | false =>
    show splitSign cs = (false, cs)
    unfold splitSign
    split
    · cases h _ rfl
    · cases h _ rfl
    · rfl

theorem isPlain_signed (h : ∀ c ∈ cs, IsPlain c) (negative : Bool) :
    ∀ c ∈ Decimal.signed negative cs, IsPlain c := by
  cases negative with
  | false => exact h
  | true => exact List.forall_mem_cons.2 ⟨by decide, h⟩

theorem isDigit_toDigits (n : Nat) : ∀ c ∈ Nat.toDigits 10 n, c.isDigit = true :=
  fun _ hc => Nat.isDigit_of_mem_toDigits (by decide) (by decide) hc

theorem isDigits_iff : isDigits cs = true ↔ cs ≠ [] ∧ ∀ c ∈ cs, c.isDigit = true := by
  simp [isDigits]

/-- The digits of a number are read as that number. -/
theorem digitsValue_toDigits (n : Nat) : digitsValue (Nat.toDigits 10 n) = n :=
  Nat.ofDigitChars_ten_toDigits

/-- Digits after a sign are a whole numeral. -/
theorem whole?_signed (h : (Nat.toDigits 10 n).length ≤ maxDigits) (negative : Bool) :
    whole? (String.ofList (Decimal.signed negative (Nat.toDigits 10 n))) =
      some (if negative then -(n : Int) else n) := by
  have hdigits := isDigit_toDigits n
  have hall : isDigits (Nat.toDigits 10 n) = true :=
    isDigits_iff.2 ⟨Nat.toDigits_ne_nil, hdigits⟩
  have hsplit := splitSign_signed (fun c hc => hdigits c (List.mem_of_mem_head? hc)) negative
  unfold whole?
  rw [plain?_ofList (isPlain_signed (fun c hc => isPlain_of_isDigit (hdigits c hc)) negative)]
  simp [hsplit, hall, h, digitsValue_toDigits]

/-- The digits of a whole number with a zero after the point. -/
def withZero (k : Nat) : List Char :=
  Nat.toDigits 10 k ++ ['.', '0']

theorem isPlain_withZero (k : Nat) : ∀ c ∈ withZero k, IsPlain c := by
  intro c hc
  rcases List.mem_append.1 hc with hc | hc
  · exact isPlain_of_isDigit (isDigit_toDigits k c hc)
  · simp only [List.mem_cons, List.not_mem_nil, or_false] at hc
    rcases hc with rfl | rfl <;> decide

theorem isDigit_head?_withZero (k : Nat) : ∀ c ∈ (withZero k).head?, c.isDigit = true := by
  intro c hc
  rw [withZero, List.head?_append_of_ne_nil _ Nat.toDigits_ne_nil] at hc
  exact isDigit_toDigits k c (List.mem_of_mem_head? hc)

/-- A numeral with a point is no whole numeral. -/
theorem whole?_withZero (negative : Bool) (k : Nat) :
    whole? (String.ofList (Decimal.signed negative (withZero k))) = none := by
  have hpoint : isDigits (withZero k) = false := by
    simp [isDigits, withZero]
  unfold whole?
  rw [plain?_ofList (isPlain_signed (isPlain_withZero k) negative)]
  simp [splitSign_signed (isDigit_head?_withZero k), hpoint]

/-- A numeral with a zero after its point is a decimal one, of one digit more. -/
theorem decimal?_withZero (negative : Bool) (k : Nat) :
    decimal? (String.ofList (Decimal.signed negative (withZero k))) =
      some (Binary64.ofDecimal negative (10 * k) (-1)) := by
  have hdigits := isDigit_toDigits k
  have hword (word : String) (h : '.' ∉ word.toList) :
      (withZero k).map Char.toLower ≠ word.toList := by
    intro heq
    apply h
    rw [← heq]
    exact List.mem_map.2 ⟨'.', by simp [withZero], rfl⟩
  have hinf := hword "inf" (by decide)
  have hinfinity := hword "infinity" (by decide)
  have hnan := hword "nan" (by decide)
  have htake : (withZero k).takeWhile Char.isDigit = Nat.toDigits 10 k := by
    rw [withZero, List.takeWhile_append_of_pos hdigits]
    exact List.append_nil _
  have hdrop : (withZero k).dropWhile Char.isDigit = ['.', '0'] := by
    rw [withZero, List.dropWhile_append_of_pos hdigits]
    rfl
  have hall : isDigits (Nat.toDigits 10 k ++ ['0']) = true :=
    isDigits_iff.2 ⟨List.append_ne_nil_of_right_ne_nil _ (List.cons_ne_nil _ _),
      List.forall_mem_append.2 ⟨hdigits, List.forall_mem_singleton.2 rfl⟩⟩
  have hvalue : digitsValue (Nat.toDigits 10 k ++ ['0']) = 10 * k := by
    unfold digitsValue
    rw [List.foldl_append]
    show 10 * digitsValue (Nat.toDigits 10 k) + 0 = 10 * k
    rw [digitsValue_toDigits, Nat.add_zero]
  unfold decimal?
  rw [plain?_ofList (isPlain_signed (isPlain_withZero k) negative)]
  simp only [splitSign_signed (isDigit_head?_withZero k), Option.bind_eq_bind, Option.bind_some]
  unfold unsigned?
  simp only [htake, hdrop]
  have hfraction : splitFraction ['.', '0'] = (['0'], []) := by decide
  rw [decide_eq_false hinf, decide_eq_false hinfinity, if_neg (by decide), if_neg hnan, hfraction]
  simp only [hall, hvalue]
  show some (Binary64.ofDecimal negative (10 * k) (0 - 1)) = _
  rw [Int.zero_sub]

end Numeral

/-- A finite double is written with its sign and the digits of its magnitude. -/
theorem Decimal.write_of_finite {x : Float} (h : Binary64.magnitude x < Binary64.infinityBits)
    (finite : Nat → List Char) :
    write finite x =
      String.ofList (signed (Binary64.isNegative x) (finite (Binary64.magnitude x))) := by
  unfold write
  dsimp only
  rw [if_neg (by omega), if_neg (by omega)]

namespace Number

open Numeral

/-- An integer is written with its sign and its digits. -/
theorem toText_int {n : Int} (h : (int n).Bounded) :
    (int n).toText = String.ofList (Decimal.signed (n < 0) (Nat.toDigits 10 n.natAbs)) := by
  have htoString :
      toString n = String.ofList (Decimal.signed (n < 0) (Nat.toDigits 10 n.natAbs)) := by
    cases n with
    | ofNat m => exact Nat.repr_eq_ofList_toDigits
    | negSucc m =>
      rw [decide_eq_true (Int.negSucc_lt_zero m)]
      show "-" ++ Nat.repr (m + 1) = String.ofList ('-' :: Nat.toDigits 10 (m + 1))
      rw [Nat.repr_eq_ofList_toDigits, ← String.toList_inj]
      simp
  rw [toText, normalize_of_bounded h]
  exact htoString

/-- The text of a bounded integer has plain characters only. -/
theorem isPlain_toText {n : Int} (h : (int n).Bounded) :
    ∀ c ∈ (int n).toText.toList, IsPlain c := by
  rw [toText_int h, String.toList_ofList]
  exact isPlain_signed (fun c hc => isPlain_of_isDigit (isDigit_toDigits _ c hc)) _

/-- A whole double is written with one digit after the point, which is zero. -/
theorem toText_float {x : Float} {k : Nat} (hfinite : Binary64.magnitude x < Binary64.infinityBits)
    (hk : Binary64.units (Binary64.magnitude x) = k * Binary64.one) :
    (float x).toText = String.ofList (Decimal.signed (Binary64.isNegative x) (withZero k)) := by
  have hone : 0 < Binary64.one := Binary64.pow2_pos _
  have hwhole : k * Binary64.one % Binary64.one = 0 := Nat.mul_mod_left k Binary64.one
  show floatText x = _
  unfold floatText
  simp only [Decimal.write_of_finite hfinite, hk, hwhole, if_true, Nat.mul_div_cancel _ hone]
  rfl

/-- The value of the number is that of an integer. -/
def IsWhole (a : Number) : Prop :=
  ∃ k : ℤ, a.value? = (int k).value?

/-- Whole numbers are those whose exact value is a number of whole units. -/
theorem isWhole_iff {a : Number} : a.IsWhole ↔ ∃ k : ℤ, a.exact = .finite (k * Binary64.one) := by
  unfold IsWhole
  simp only [← value?_exact, Binary64.Exact.value?_injective.eq_iff]
  rfl

theorem isWhole_int (n : Int) : (int n).IsWhole :=
  ⟨n, rfl⟩

theorem ofText?_of_whole? {cs : List Char} {n : Int} (hplain : ∀ c ∈ cs, IsPlain c)
    (h : whole? (String.ofList cs) = some n) (hn : (int n).Bounded) :
    ofText? (String.ofList cs) = some (int n) := by
  rw [ofText?, trim_ofList hplain, h]
  exact congrArg some (normalize_of_bounded hn)

theorem ofText?_of_decimal? {cs : List Char} {x : Float} (hplain : ∀ c ∈ cs, IsPlain c)
    (hwhole : whole? (String.ofList cs) = none) (h : decimal? (String.ofList cs) = some x)
    (hfinite : (float x).isFinite = true) : ofText? (String.ofList cs) = some (float x) := by
  rw [ofText?, trim_ofList hplain, hwhole, h]
  exact Option.filter_some_pos hfinite

/-- A whole number in bounds is read back from its text. -/
theorem ofText?_toText {a : Number} (hbounded : a.Bounded) (hwhole : a.IsWhole) :
    ofText? a.toText = some a := by
  obtain ⟨k, hk⟩ := isWhole_iff.1 hwhole
  cases a with
  | int n =>
    have hsmall : n.natAbs < 10 ^ 16 := by
      have hmax : maxExact < 10 ^ 16 := by decide
      obtain ⟨hlow, hhigh⟩ := hbounded
      omega
    have hlength : (Nat.toDigits 10 n.natAbs).length ≤ maxDigits :=
      ((Nat.length_toDigits_le_iff (by decide) (by decide)).2 hsmall).trans (by decide)
    have hread := whole?_signed hlength (n < 0)
    have hsign : (if decide (n < 0) = true then -(n.natAbs : Int) else n.natAbs) = n := by
      simp only [decide_eq_true_eq]
      split <;> omega
    rw [hsign] at hread
    have hplain := isPlain_toText hbounded
    rw [toText_int hbounded, String.toList_ofList] at hplain
    rw [toText_int hbounded]
    exact ofText?_of_whole? hplain hread hbounded
  | float x =>
    obtain ⟨hfinite, hunits⟩ := Binary64.exists_units_of_exact hk
    have hread := decimal?_withZero (Binary64.isNegative x) k.natAbs
    rw [Binary64.ofDecimal_whole hfinite hunits, Binary64.ofMagnitude_magnitude hfinite.le] at hread
    rw [toText_float hfinite hunits]
    have hplain := isPlain_signed (isPlain_withZero k.natAbs) (Binary64.isNegative x)
    refine ofText?_of_decimal? hplain (whole?_withZero _ _) hread ?_
    rw [isFinite, hk]

end Number

namespace Operator

variable {v w : Value}

/-- Arithmetic does not tell values apart that stand for the same number. -/
theorem onNumbers_congr (h : v.number = w.number) (f : Number → Number → Ending Number)
    (b : Value) : onNumbers f v b = onNumbers f w b ∧ onNumbers f b v = onNumbers f b w := by
  unfold onNumbers
  rw [h]
  exact ⟨rfl, rfl⟩

/-- Operators other than addition take values as the numbers that they stand for. -/
theorem apply_congr {op : Operator} (hop : op ∈ [power, times, divide, modulo, minus])
    (h : v.number = w.number) (b : Value) :
    op.apply v b = op.apply w b ∧ op.apply b v = op.apply b w := by
  simp only [List.mem_cons, List.not_mem_nil, or_false] at hop
  rcases hop with rfl | rfl | rfl | rfl | rfl <;> exact onNumbers_congr h _ b

end Operator

open Operator in
/-- A whole number in bounds becomes a text when it is joined with the empty text, and that text
stands for the same number, carried in the same way. So it makes no difference to operators that
calculate and to mathematical keywords. -/
theorem whole_number_outlives_joining {a : Number} (hbounded : a.Bounded) (hwhole : a.IsWhole) :
    (∀ {σ : Type} (s : σ), plus.on (.num a) (.text "") s = ⟨.done (.text a.toText), s, []⟩ ∧
      plus.on (.text "") (.num a) s = ⟨.done (.text a.toText), s, []⟩) ∧
    (Value.text a.toText).toNumber? = some a ∧
    (∀ op ∈ [power, times, divide, modulo, minus], ∀ (b : Value) {σ : Type} (s : σ),
      op.on (.text a.toText) b s = op.on (.num a) b s ∧
      op.on b (.text a.toText) s = op.on b (.num a) s) ∧
    ∀ keyword : MathKeyword,
      (Keyword.math keyword).apply (.text a.toText) = (Keyword.math keyword).apply (.num a) := by
  have hread := Number.ofText?_toText hbounded hwhole
  have hnumber : (Value.text a.toText).number = (Value.num a).number := by
    simp only [Value.number, Value.toNumber?, hread, Number.normalize_of_bounded hbounded]
  refine ⟨fun s => ?_, hread, fun op hop b σ s => ?_, fun keyword => ?_⟩
  · have hleft : plus.apply (.num a) (.text "") = .done (.text a.toText) := by
      show join (.num a) (.text "") = _
      rw [join_eq]
      exact congrArg (Ending.done ∘ Value.text) String.append_empty
    have hright : plus.apply (.text "") (.num a) = .done (.text a.toText) := by
      show join (.text "") (.num a) = _
      rw [join_eq]
      exact congrArg (Ending.done ∘ Value.text) String.empty_append
    rw [on_eq, on_eq, hleft, hright]
    exact ⟨rfl, rfl⟩
  · obtain ⟨hleft, hright⟩ := apply_congr hop hnumber b
    rw [on_eq, on_eq, on_eq, on_eq, hleft, hright]
    exact ⟨rfl, rfl⟩
  · rw [Keyword.apply, Keyword.apply, hnumber]

/-- The sign of a zero is kept, and so are the largest double and the least integer in bounds. -/
theorem extreme_numbers_outlive_joining :
    let zero : Number := .float (Binary64.zero true)
    let largest : Number := .float (Float.ofBits 0x7fefffffffffffff)
    let least : Number := .int (-9007199254740992)
    (zero.IsWhole ∧ zero.toText = "-0.0" ∧ (Value.text "-0.0").toNumber? = some zero) ∧
      (largest.IsWhole ∧ (Value.text largest.toText).toNumber? = some largest) ∧
      (least.Bounded ∧ (Value.text least.toText).toNumber? = some least) := by
  intro zero largest least
  have hzero : zero.IsWhole := Number.isWhole_iff.2 ⟨0, by decide +kernel⟩
  have htext : zero.toText = "-0.0" := by decide +kernel
  have hlargest : largest.IsWhole := by
    -- The pattern is found once, and its units are computed from there.
    have hbits : Binary64.magnitude (Float.ofBits 0x7fefffffffffffff) = 0x7fefffffffffffff := by
      decide +kernel
    have hsign : Binary64.isNegative (Float.ofBits 0x7fefffffffffffff) = false := by decide +kernel
    refine Number.isWhole_iff.2 ⟨(2 ^ 53 - 1) * Binary64.pow2 971, ?_⟩
    show Binary64.exact _ = _
    rw [Binary64.exact, hbits, hsign]
    decide +kernel
  have hleast : least.Bounded := by decide
  have hread := (whole_number_outlives_joining (show zero.Bounded from trivial) hzero).2.1
  rw [htext] at hread
  exact ⟨⟨hzero, htext, hread⟩,
    ⟨hlargest, (whole_number_outlives_joining (show largest.Bounded from trivial) hlargest).2.1⟩,
    ⟨hleast, (whole_number_outlives_joining hleast (Number.isWhole_int _)).2.1⟩⟩

end ChipScript
