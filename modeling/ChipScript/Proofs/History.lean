import Mathlib.Algebra.Ring.Nat
import Mathlib.Data.List.DropRight
import ChipScript.ErrorLog

/-!
# The error log as a history

A log is changed by pushes, resets and clears, in any order and on any lines (`LogAction`). What it
holds in the end can be told from the list of these actions alone: for each line, the records that
were pushed to it since it was last reset or the log was cleared (`pushedSince`), as many of them as
a line may hold and the oldest first (`ErrorLog.recalls_leftBy`).

Everything else that can be asked of a log agrees with this. A push answers whether its record is
there, and the items are the lines that hold something. The count and the question for errors go
through all lines, those left without records too, which add nothing to either.
-/

namespace ChipScript

/-- What changes a log. -/
inductive LogAction where
  | push (line : Int) (r : Record)
  | reset (line : Int)
  | clear

namespace LogAction

/-- The action makes a line lose its records. -/
def forgets (line : Int) : LogAction → Bool
  | push _ _ => false
  | reset other => other = line
  | clear => true

/-- The record that the action pushes to a line. -/
def pushed? (line : Int) : LogAction → Option Record
  | push other r => if other = line then some r else none
  | reset _ | clear => none

end LogAction

/-- The records pushed to a line since an action last made it lose them, in order. -/
def pushedSince (line : Int) (actions : List LogAction) : List Record :=
  (actions.rtakeWhile (!·.forgets line)).filterMap (·.pushed? line)

/-- The history of a line grows by a push to it, and ends at whatever forgets its records. -/
theorem pushedSince_concat (line : Int) (actions : List LogAction) (action : LogAction) :
    pushedSince line (actions ++ [action]) =
      if action.forgets line then []
      else pushedSince line actions ++ (action.pushed? line).toList := by
  unfold pushedSince
  rw [List.rtakeWhile_concat]
  cases hforgets : action.forgets line with
  | true => simp
  | false => cases hpushed : action.pushed? line <;> simp [hpushed]

/-- As long as nothing makes the line lose its records, the records pushed to it are added. -/
theorem pushedSince_append {line : Int} {later : List LogAction}
    (h : ∀ action ∈ later, action.forgets line = false) (actions : List LogAction) :
    pushedSince line (actions ++ later) =
      pushedSince line actions ++ later.filterMap (·.pushed? line) := by
  induction later using List.reverseRecOn with
  | nil => simp
  | append_singleton later action ih =>
    rw [← List.append_assoc, pushedSince_concat, h action (by simp),
      ih fun action' h' => h action' (by simp [h'])]
    cases hpushed : action.pushed? line <;> simp [hpushed]

namespace ErrorLog

def perform (log : ErrorLog) : LogAction → ErrorLog
  | .push line r => log.push line r
  | .reset line => log.reset line
  | .clear => log.clear

def leftBy (maxPerLine : Int) (actions : List LogAction) : ErrorLog :=
  actions.foldl perform { maxPerLine }

variable {log : ErrorLog}

/-- What holds of the empty log and is kept by every action holds of every log that is left. -/
theorem leftBy_induction {maxPerLine : Int} {P : List LogAction → ErrorLog → Prop}
    (empty : P [] { maxPerLine })
    (step : ∀ actions log action, P actions log → P (actions ++ [action]) (log.perform action))
    (actions : List LogAction) : P actions (leftBy maxPerLine actions) := by
  induction actions using List.reverseRecOn with
  | nil => exact empty
  | append_singleton actions action ih =>
    rw [leftBy, List.foldl_concat]
    exact step actions _ action ih

/-! ### What a line holds -/

theorem maxPerLine_perform (log : ErrorLog) (action : LogAction) :
    (log.perform action).maxPerLine = log.maxPerLine := by
  cases action with
  | push line r => rfl
  | reset line => rfl
  | clear => rfl

/-- The log holds what a list of actions leaves of its pushes. -/
structure Recalls (log : ErrorLog) (maxPerLine : Int) (actions : List LogAction) : Prop where
  maxPerLine_eq : log.maxPerLine = maxPerLine
  get_eq (line : Int) : log.get line = (pushedSince line actions).take maxPerLine.toNat

/-- A push stores its record if fewer have been pushed since the line lost its records than it may
hold. -/
theorem Recalls.stores_iff {maxPerLine : Int} {actions : List LogAction}
    (h : log.Recalls maxPerLine actions) (line : Int) :
    log.stores line = true ↔ ((pushedSince line actions).length : Int) < maxPerLine := by
  simp only [stores, isFull, h.maxPerLine_eq, h.get_eq, List.length_take, Bool.not_eq_true',
    decide_eq_false_iff_not]
  omega

/-- Every action keeps a log to its history. -/
theorem Recalls.perform {maxPerLine : Int} {actions : List LogAction}
    (h : log.Recalls maxPerLine actions) (action : LogAction) :
    (log.perform action).Recalls maxPerLine (actions ++ [action]) where
  maxPerLine_eq := (log.maxPerLine_perform action).trans h.maxPerLine_eq
  get_eq line := by
    rw [pushedSince_concat]
    cases action with
    | push other r =>
      show (log.push other r).get line = _
      rw [get_push]
      by_cases hother : other = line
      · subst hother
        have hstores := h.stores_iff other
        have hget := h.get_eq other
        cases hfull : log.isFull other with
        | false =>
          -- There is room, so all that was pushed is there, and the new record after it.
          have hroom := hstores.1 (by rw [stores, hfull]; rfl)
          rw [List.take_of_length_le (by omega)] at hget
          simp only [hget, LogAction.forgets, LogAction.pushed?, and_self, if_true,
            Bool.false_eq_true, if_false, Option.toList_some]
          rw [List.take_of_length_le (by simp; omega)]
        | true =>
          have hroom : ¬ ((pushedSince other actions).length : Int) < maxPerLine := by
            rw [← hstores, stores, hfull]
            decide
          simp only [hget, LogAction.forgets, LogAction.pushed?, if_true, Bool.false_eq_true,
            and_false, if_false, Option.toList_some, Bool.true_eq_false]
          rw [List.take_append_of_le_length (by omega)]
      · simp [hother, h.get_eq, LogAction.forgets, LogAction.pushed?]
    | reset other =>
      show (log.reset other).get line = _
      rw [get_reset]
      by_cases hother : other = line <;>
        simp [hother, h.get_eq, LogAction.forgets, LogAction.pushed?]
    | clear =>
      show log.clear.get line = _
      simp [LogAction.forgets]

/-- A log always recalls its history. -/
theorem recalls_leftBy (maxPerLine : Int) (actions : List LogAction) :
    (leftBy maxPerLine actions).Recalls maxPerLine actions := by
  apply leftBy_induction (P := fun actions log => log.Recalls maxPerLine actions)
  · exact ⟨rfl, fun line => by simp [get, pushedSince]⟩
  · exact fun _ _ action h => h.perform action

/-- A push that answers yes has its record in its place, for as long as the line keeps its
records. -/
theorem stores_iff_getElem? (maxPerLine : Int) (before : List LogAction) (line : Int) (r : Record)
    {later : List LogAction} (h : ∀ action ∈ later, action.forgets line = false) :
    (leftBy maxPerLine before).stores line = true ↔
      ((leftBy maxPerLine (before ++ .push line r :: later)).get line)[
        (pushedSince line before).length]? = some r := by
  have hpushed : pushedSince line (before ++ .push line r :: later) =
      pushedSince line before ++ r :: later.filterMap (·.pushed? line) := by
    rw [pushedSince_append (by simpa [LogAction.forgets] using h)]
    simp [LogAction.pushed?]
  rw [(recalls_leftBy maxPerLine before).stores_iff, (recalls_leftBy maxPerLine _).get_eq, hpushed,
    List.getElem?_take]
  simp

/-! ### The lines that hold something -/

/-- A line is among the items with its records, if it has any. -/
theorem mem_items_iff (log : ErrorLog) (line : Int) (rs : List Record) :
    (line, rs) ∈ log.items ↔ log.get line = rs ∧ rs ≠ [] := by
  rw [items, List.mem_filter, Std.ExtTreeMap.mem_toList_iff_getElem?_eq_some, get,
    Std.ExtTreeMap.getD_eq_getD_getElem?]
  cases hlines : log.lines[line]? with
  | none =>
    -- What is not there is read as if it were there without records.
    constructor
    · rintro ⟨h, _⟩
      cases h
    · rintro ⟨rfl, hne⟩
      exact absurd rfl hne
  | some held => simp

/-- Items are in the order of lines. -/
theorem pairwise_items (log : ErrorLog) : (log.items.map Prod.fst).Pairwise (· < ·) := by
  rw [List.pairwise_map]
  refine (Std.ExtTreeMap.ordered_keys_toList (t := log.lines)).filter _ |>.imp ?_
  intro item item' h
  exact Int.compare_eq_lt.1 h

/-- Lines without records add nothing to the sum. -/
theorem sum_length_filter (lines : List (Int × List Record)) :
    ((lines.filter fun item => !item.2.isEmpty).map fun item => item.2.length).sum =
      (lines.map fun item => item.2.length).sum := by
  induction lines with
  | nil => rfl
  | cons item rest ih =>
    obtain ⟨line, records⟩ := item
    cases records with
    | nil => simpa using ih
    | cons r rs => simp [ih]

/-- A line without records counts for nothing. -/
theorem count_eq (log : ErrorLog) : log.count = (log.items.map fun item => item.2.length).sum := by
  rw [count, List.length_flatMap]
  exact (sum_length_filter log.lines.toList).symm

/-- An error stands in a line that holds a record, so it is found among the items. -/
theorem hasErrors_iff (log : ErrorLog) :
    log.hasErrors = true ↔ ∃ item ∈ log.items, ∃ r ∈ item.2, r.severity = .error := by
  simp only [hasErrors, items, List.any_eq_true, decide_eq_true_eq, List.mem_filter]
  constructor
  · rintro ⟨item, hitem, r, hr, herror⟩
    have hne : item.2 ≠ [] := List.ne_nil_of_mem hr
    exact ⟨item, ⟨hitem, by simp [hne]⟩, r, hr, herror⟩
  · rintro ⟨item, ⟨hitem, _⟩, r, hr, herror⟩
    exact ⟨item, hitem, r, hr, herror⟩

end ErrorLog

/-- After any actions on an empty log, a line holds the first records that were pushed to it since
it last lost its records, up to the limit, and every push answers whether its record is in its
place. The items are the lines that hold a record, in increasing order, each with all its records;
the count adds up their records, and there are errors if one of these is an error. -/
theorem log_holds_bounded_history (maxPerLine : Int) (actions : List LogAction) :
    (∀ line, (ErrorLog.leftBy maxPerLine actions).get line =
      (pushedSince line actions).take maxPerLine.toNat) ∧
    (∀ before line r later, (∀ action ∈ later, LogAction.forgets line action = false) →
      ((ErrorLog.leftBy maxPerLine before).stores line = true ↔
        ((ErrorLog.leftBy maxPerLine (before ++ .push line r :: later)).get line)[
          (pushedSince line before).length]? = some r)) ∧
    (∀ line rs, (line, rs) ∈ (ErrorLog.leftBy maxPerLine actions).items ↔
      (ErrorLog.leftBy maxPerLine actions).get line = rs ∧ rs ≠ []) ∧
    ((ErrorLog.leftBy maxPerLine actions).items.map Prod.fst).Pairwise (· < ·) ∧
    (ErrorLog.leftBy maxPerLine actions).count =
      ((ErrorLog.leftBy maxPerLine actions).items.map fun item => item.2.length).sum ∧
    ((ErrorLog.leftBy maxPerLine actions).hasErrors = true ↔
      ∃ item ∈ (ErrorLog.leftBy maxPerLine actions).items,
        ∃ r ∈ item.2, r.severity = .error) := by
  refine ⟨(ErrorLog.recalls_leftBy maxPerLine actions).get_eq, ?_,
    ErrorLog.mem_items_iff _, ErrorLog.pairwise_items _, ErrorLog.count_eq _,
    ErrorLog.hasErrors_iff _⟩
  intro before line r later hlater
  exact ErrorLog.stores_iff_getElem? maxPerLine before line r hlater

/-- Three pushes to line four and, around a reset, two to line two. -/
def fourAndTwo : List LogAction :=
  [.push 4 ⟨.info, "a", none⟩, .push 2 ⟨.error, "b", none⟩, .push 4 ⟨.warning, "c", some 7⟩,
    .push 4 ⟨.error, "d", none⟩, .reset 2, .push 2 ⟨.info, "e", none⟩]

/-- Of two records to a line, the third push to line four is told that its record is not stored. -/
theorem third_record_is_dropped :
    (∀ action ∈ fourAndTwo.drop 4, LogAction.forgets 4 action = false) ∧
      (ErrorLog.leftBy 2 (fourAndTwo.take 3)).stores 4 = false ∧
      (ErrorLog.leftBy 2 fourAndTwo).get 4 = [⟨.info, "a", none⟩, ⟨.warning, "c", some 7⟩] ∧
      (2, [⟨.info, "e", none⟩]) ∈ (ErrorLog.leftBy 2 fourAndTwo).items := by
  obtain ⟨hget, hpush, hitems, _⟩ := log_holds_bounded_history 2 fourAndTwo
  have hlater : ∀ action ∈ fourAndTwo.drop 4, LogAction.forgets 4 action = false := by decide
  have hfour : (ErrorLog.leftBy 2 fourAndTwo).get 4 =
      [⟨.info, "a", none⟩, ⟨.warning, "c", some 7⟩] := by
    rw [hget]
    decide
  refine ⟨hlater, ?_, hfour, ?_⟩
  · rw [← Bool.not_eq_true,
      hpush (fourAndTwo.take 3) 4 ⟨.error, "d", none⟩ (fourAndTwo.drop 4) hlater]
    show ¬ ((ErrorLog.leftBy 2 fourAndTwo).get 4)[_]? = _
    rw [hfour]
    decide
  · rw [hitems, hget]
    decide

end ChipScript
