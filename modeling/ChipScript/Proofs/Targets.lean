import ChipScript.Proofs.Bounds
import ChipScript.Proofs.Jumps

/-!
# What a goto makes of its target

A goto takes the value of its target as it is, without the normalisation that every other use of a
number begins with. Three things can come of it.

* A text or a NaN is no target: the line is halted and the counter stays.
* Any other number leads to its line (`jumpLine`), whatever its size, with two exceptions.
* An integer whose nearest double is infinite (`Number.Overlong`) is not compared with the limit but
  fails, and so does a jump to a line of more digits than can be written, which needs a limit of as
  many digits. Nothing else fails: `goto_fails_only_for_oversize`.

`overlong_target_is_not_clamped` is the smallest overlong integer in a run.
-/

namespace ChipScript

/-! ### Integers that no double can hold -/

namespace Number

/-- The number is an integer beyond the doubles. -/
def Overlong : Number → Prop
  | int n => Binary64.overflowBound ≤ n.natAbs
  | float _ => False

/-- Being too large is the only reason for a number to have no double. -/
theorem toFloat_eq_error_iff (a : Number) (why : ArithmeticError) :
    a.toFloat = .error why ↔ why = .integerTooLarge ∧ a.Overlong := by
  cases a with
  | float x => simp [toFloat, Overlong]
  | int n =>
    rw [Overlong, ← Binary64.magnitude_ofInt_eq_infinityBits_iff, toFloat]
    split
    · next h => simp [h, eq_comm]
    · next h => simp [h]

/-- NaN is a double, so it is not overlong. -/
theorem not_overlong_of_isNaN {a : Number} (h : a.isNaN = true) : ¬ a.Overlong := by
  cases a with
  | float x => exact id
  | int n => cases of_decide_eq_true h

end Number

/-! ### The outcomes -/

/-- The line has more digits than can be written. -/
def TooLongToTell (line : Int) : Prop :=
  Binary64.pow10 Numeral.maxDigits ≤ line.natAbs

instance (line : Int) : Decidable (TooLongToTell line) :=
  inferInstanceAs (Decidable (_ ≤ line.natAbs))

section

variable {limit : Int} {a : Number}

/-- An overlong integer fails before it is compared with anything. -/
theorem gotoValue_of_overlong (h : a.Overlong) (limit : Int) (m : Machine) :
    gotoValue limit (.num a) m = ⟨.failed (.arithmetic .integerTooLarge), m, []⟩ := by
  rcases gotoValue_num_cases limit a m with ⟨why, hfloat, hrun⟩ | ⟨⟨x, hfloat⟩, _⟩
  · rw [hrun, ((a.toFloat_eq_error_iff why).1 hfloat).1]
  · have herror := (a.toFloat_eq_error_iff .integerTooLarge).2 ⟨rfl, h⟩
    exact absurd (hfloat.symm.trans herror) nofun

theorem gotoValue_of_isNaN (h : a.isNaN = true) (limit : Int) (m : Machine) :
    gotoValue limit (.num a) m = ⟨.halted .invalidGoto, m, [.halting .invalidGoto]⟩ := by
  rcases gotoValue_num_cases limit a m with ⟨why, hfloat, _⟩ | ⟨_, ⟨_, hrun⟩ | ⟨hnan, _⟩⟩
  · exact absurd ((a.toFloat_eq_error_iff why).1 hfloat).2 (Number.not_overlong_of_isNaN h)
  · exact hrun
  · exact absurd (h.symm.trans hnan) nofun

/-- A number that is neither overlong nor NaN leads to its line, if that can be written. -/
theorem gotoValue_of_target (hlimit : 1 ≤ limit) (hnan : a.isNaN = false) (h : ¬ a.Overlong)
    (m : Machine) :
    TooLongToTell (jumpLine limit a) ∧ gotoValue limit (.num a) m =
        ⟨.failed (.arithmetic (.tooManyDigits Numeral.maxDigits)), m, []⟩ ∨
      ¬ TooLongToTell (jumpLine limit a) ∧ gotoValue limit (.num a) m =
        ⟨.done (), { m with line := jumpLine limit a - 1 },
          [.jump (jumpLine limit a) (toString (jumpLine limit a))]⟩ := by
  rcases gotoValue_num_cases limit a m with
    ⟨why, hfloat, _⟩ | ⟨_, ⟨hnan', _⟩ | ⟨_, line, hline, hcases⟩⟩
  · exact absurd ((a.toFloat_eq_error_iff why).1 hfloat).2 h
  · exact absurd (hnan'.symm.trans hnan) nofun
  · obtain rfl : jumpLine limit a = line := jumpLine_of_clampLine hlimit hnan hline
    exact hcases.imp_right fun hshort => ⟨Nat.not_le.2 hshort.1, hshort.2⟩

/-- A goto fails for an overlong integer and for a line that is too long, and for nothing else. -/
theorem exists_failed_gotoValue_iff (hlimit : 1 ≤ limit) (v : Value) (m : Machine) :
    (∃ why, (gotoValue limit v m).ending = .failed why) ↔
      ∃ a, v = .num a ∧ (a.Overlong ∨ a.isNaN = false ∧ TooLongToTell (jumpLine limit a)) := by
  cases v with
  | text s => simp [gotoValue, Action.halt]
  | num a =>
    simp only [Value.num.injEq, exists_eq_left']
    by_cases hlong : a.Overlong
    · simp [gotoValue_of_overlong hlong, hlong]
    · cases hnan : a.isNaN with
      | true => simp [gotoValue_of_isNaN hnan, hlong]
      | false =>
        rcases gotoValue_of_target hlimit hnan hlong m with ⟨hline, hrun⟩ | ⟨hline, hrun⟩
        · simp [hrun, hline]
        · simp [hrun, hline, hlong]

end

/-- What a run of a goto shows: how it ended, what it reported and where it left the counter. -/
def Run.shown (r : Run Machine Unit) : Ending Unit × List ScriptError × Int :=
  (r.ending, r.trace.reports, r.state.line)

/-- Finding a target reports nothing and does not move the counter, so the goto shows what it makes
of the value. -/
theorem shown_goto {device : Option String} {target : Expr} {m : Machine} {v : Value}
    (hv : (evaluate device target m.memory).ending = .done v) (limit : Int) :
    ∃ m', m'.line = m.line ∧
      (execute device limit (.goto target) m).shown = (gotoValue limit v m').shown := by
  have hreported := compositional_reported.evaluate (reported_read device) (reported_write device)
    target m.memory
  have hquiet : (evaluate device target m.memory).trace.reports = [] := by
    rw [hreported.reports, hv]
    rfl
  have hdone : Machine.onMemory (evaluate device target) m =
      ⟨.done v, { m with memory := (evaluate device target m.memory).state },
        (evaluate device target m.memory).trace⟩ := by
    rw [← hv]
    rfl
  refine ⟨{ m with memory := (evaluate device target m.memory).state }, rfl, ?_⟩
  rw [execute, Action.bind_of_done hdone]
  simp only [Run.shown, Trace.reports_append, hquiet, List.nil_append]

/-- A goto whose target has a value fails if and only if the value is an overlong integer or leads
to a line of too many digits to be written. A text or a NaN halts it with one report, and any other
number takes it to the line of that number. -/
theorem goto_fails_only_for_oversize {device : Option String} {limit : Int}
    (hlimit : 1 ≤ limit) {target : Expr} {m : Machine} {v : Value}
    (hv : (evaluate device target m.memory).ending = .done v) :
    ((∃ why, (execute device limit (.goto target) m).ending = .failed why) ↔
      ∃ a, v = .num a ∧ (a.Overlong ∨ a.isNaN = false ∧ TooLongToTell (jumpLine limit a))) ∧
    (∀ a, v = .num a → a.Overlong →
      (execute device limit (.goto target) m).shown =
        (.failed (.arithmetic .integerTooLarge), [], m.line)) ∧
    (∀ a, v = .num a → a.isNaN = false → ¬ a.Overlong →
      (execute device limit (.goto target) m).shown =
        if TooLongToTell (jumpLine limit a) then
          (.failed (.arithmetic (.tooManyDigits Numeral.maxDigits)), [], m.line)
        else (.done (), [], jumpLine limit a - 1)) ∧
    (∀ a, v = .num a → a.isNaN = true →
      (execute device limit (.goto target) m).shown =
        (.halted .invalidGoto, [.invalidGoto], m.line)) ∧
    ∀ s, v = .text s →
      (execute device limit (.goto target) m).shown =
        (.halted .invalidGoto, [.invalidGoto], m.line) := by
  obtain ⟨m', hline, hshown⟩ := shown_goto hv limit
  have hending : (execute device limit (.goto target) m).ending = (gotoValue limit v m').ending :=
    congrArg Prod.fst hshown
  rw [hshown, hending, ← hline]
  refine ⟨exists_failed_gotoValue_iff hlimit v m', ?_, ?_, ?_, ?_⟩
  · rintro a rfl ha
    rw [gotoValue_of_overlong ha]
    rfl
  · rintro a rfl hnan ha
    rcases gotoValue_of_target hlimit hnan ha m' with ⟨hlong, hrun⟩ | ⟨hlong, hrun⟩
    · rw [hrun, if_pos hlong]
      rfl
    · rw [hrun, if_neg hlong]
      rfl
  · rintro a rfl hnan
    rw [gotoValue_of_isNaN hnan]
    rfl
  · rintro s rfl
    rfl

/-- A machine on line five whose local `x` holds an integer. -/
def afar (n : Int) : Machine where
  memory := { locals := (∅ : Locals).insert "x" (.int n) }
  line := 5

/-- The largest integer that a goto takes leads to the limit like every other large one. -/
theorem largest_target_leads_to_limit :
    (evaluate none (.name ⟨"x"⟩) (afar (Binary64.overflowBound - 1)).memory).ending =
        .done (.int (Binary64.overflowBound - 1)) ∧
      (execute none 20 (.goto (.name ⟨"x"⟩)) (afar (Binary64.overflowBound - 1))).shown =
        (.done (), [], 19) := by
  have hv : (evaluate none (.name ⟨"x"⟩) (afar (Binary64.overflowBound - 1)).memory).ending =
      .done (.int (Binary64.overflowBound - 1)) := by decide +kernel
  have hline : jumpLine 20 (.int (Binary64.overflowBound - 1)) = 20 :=
    jumpLine_of_clampLine (by decide) rfl (by decide +kernel)
  have hshort : ¬ (Number.int (Binary64.overflowBound - 1)).Overlong := by
    show ¬ Binary64.overflowBound ≤ (Binary64.overflowBound - 1 : Int).natAbs
    decide +kernel
  have hgoto :=
    (goto_fails_only_for_oversize (by decide : (1 : Int) ≤ 20) hv).2.2.1 _ rfl rfl hshort
  refine ⟨hv, ?_⟩
  rw [hgoto, hline]
  exact if_neg (by decide +kernel)

/-- One more, and the goto fails where it is, although the line of such a target is the limit. -/
theorem overlong_target_is_not_clamped :
    (evaluate none (.name ⟨"x"⟩) (afar Binary64.overflowBound).memory).ending =
        .done (.int Binary64.overflowBound) ∧
      (execute none 20 (.goto (.name ⟨"x"⟩)) (afar Binary64.overflowBound)).shown =
        (.failed (.arithmetic .integerTooLarge), [], 5) ∧
      jumpLine 20 (.int Binary64.overflowBound) = 20 :=
  ⟨by decide +kernel, by decide +kernel, jumpLine_of_clampLine (by decide) rfl (by decide +kernel)⟩

end ChipScript
