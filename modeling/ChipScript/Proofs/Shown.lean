import ChipScript.CommandLine
import ChipScript.Proofs.Namespaces
import ChipScript.Proofs.Numerals
import ChipScript.Shell.ControlSequence

/-!
# Shown values are read back

States are shown in the form in which the command line takes values, so what was shown for a text or
for an integer in bounds can be given back and denotes the same value (`shown_values_read_back`).
A text is read back because it stands in quotation marks, whatever it holds: only the first and the
last mark count, and the first equals sign stands before both. An integer is read back as a numeral,
and a text that looks like one keeps its marks. What is given back to a local reaches it, since no
local that the command comes to has the name of a field (`CommandLine.ComesTo.scope_of_mem`).

What is written to a terminal is what was shown. Elsewhere it is so if no control sequence stands in
it, which is all that `LeavesPlain` says of the writer; a text with one comes back as another
(`coloured_text_reads_back_plain`). A double need not come back either way, since its text may be
rounded.
-/

namespace ChipScript

/-- A text, or an integer in bounds. -/
def Value.IsExact : Value → Prop
  | text _ => True
  | num (.int n) => (Number.int n).Bounded
  | num (.float _) => False

instance : DecidablePred Value.IsExact
  | .text _ => inferInstanceAs (Decidable True)
  | .num (.int n) => inferInstanceAs (Decidable (Number.int n).Bounded)
  | .num (.float _) => inferInstanceAs (Decidable False)

/-- A number, or a text without control sequences. -/
def Value.FreeOfSequences : Value → Prop
  | text s => Text.FreeOfSequences s.toList
  | num _ => True

namespace Assignment

open Text

/-- What may stand before the equals sign, to be taken as it is: something without an equals sign
and without blanks at its ends. -/
structure IsName (name : String) : Prop where
  nonempty : name ≠ ""
  noEquals : '=' ∉ name.toList
  trimmed : Trimmed isBlank name.toList

/-- Blanks, as they may surround either side. -/
def Blanks (cs : List Char) : Prop := ∀ c ∈ cs, isBlank c = true

/-- What is split are the parts around the first equals sign. -/
theorem split?_append {left : List Char} (h : '=' ∉ left) (right : List Char) :
    split? (left ++ '=' :: right) = some (left, right) := by
  induction left with
  | nil => rfl
  | cons c rest ih =>
    obtain ⟨hc, hrest⟩ : '=' ≠ c ∧ '=' ∉ rest := by simpa using h
    rw [List.cons_append, split?, if_neg (Ne.symm hc), ih hrest]
    rfl

theorem Blanks.noEquals {cs : List Char} (h : Blanks cs) : '=' ∉ cs := by
  intro hmem
  exact absurd (h _ hmem) (by decide)

/-- Quotation marks are taken off whatever stands between them. -/
theorem unquoted?_quoted (cs : List Char) : unquoted? ('"' :: (cs ++ ['"'])) = some cs := by
  simp [unquoted?]

theorem unquoted?_of_plain {cs : List Char} (h : ∀ c ∈ cs, Numeral.IsPlain c) :
    unquoted? cs = none := by
  unfold unquoted?
  split
  · exact absurd (h '"' List.mem_cons_self) (by decide)
  · rfl

/-- What a text or an integer in bounds is shown as. -/
theorem shown_cases {v : Value} (h : v.IsExact) :
    (∃ s, v = .text s ∧ v.shown.toList = '"' :: (s.toList ++ ['"'])) ∨
      ∃ n, v = .int n ∧ (Number.int n).Bounded ∧ (∀ c ∈ v.shown.toList, Numeral.IsPlain c) ∧
        Number.ofText? v.shown = some (.int n) := by
  cases v with
  | text s => exact .inl ⟨s, rfl, by simp [Value.shown]⟩
  | num a =>
    cases a with
    | float x => exact h.elim
    | int n =>
      have hbounded : (Number.int n).Bounded := h
      have hread := Number.ofText?_toText hbounded (Number.isWhole_int n)
      exact .inr ⟨n, rfl, hbounded, Number.isPlain_toText hbounded, hread⟩

theorem trimmed_shown {v : Value} (h : v.IsExact) : Trimmed isBlank v.shown.toList := by
  rcases shown_cases h with ⟨s, _, hshown⟩ | ⟨n, _, _, hplain, _⟩
  · have hmark : isBlank '"' = false := by decide
    have hlast : ('"' :: (s.toList ++ ['"'])).getLast? = some '"' := by
      rw [← List.cons_append, List.getLast?_concat]
    rw [hshown, Trimmed, hlast]
    simp [hmark]
  · exact trimmed_of_forall fun c hc => (hplain c hc).isBlank

/-- A shown value is read as it was, whatever blanks surround it. -/
theorem valueOf_shown {v : Value} (h : v.IsExact) {before after : List Char}
    (hbefore : Blanks before) (hafter : Blanks after) :
    valueOf (before ++ v.shown.toList ++ after) = v := by
  unfold valueOf
  rw [trimWith_pad (trimmed_shown h) hbefore hafter]
  dsimp only
  rcases shown_cases h with ⟨s, rfl, hshown⟩ | ⟨n, rfl, _, hplain, hread⟩
  · rw [hshown, unquoted?_quoted]
    exact congrArg Value.text String.ofList_toList
  · rw [unquoted?_of_plain hplain, String.ofList_toList, hread]
    rfl

/-- A name and a shown value are read from an assignment, whatever blanks surround them. -/
theorem parse?_shown {name : String} (hname : IsName name) {v : Value} (hv : v.IsExact)
    {a b c d : List Char} (ha : Blanks a) (hb : Blanks b) (hc : Blanks c) (hd : Blanks d) :
    parse? (String.ofList (a ++ name.toList ++ b ++ '=' :: (c ++ v.shown.toList ++ d))) =
      some (name, v) := by
  have hleft : '=' ∉ a ++ name.toList ++ b := by
    simp [ha.noEquals, hname.noEquals, hb.noEquals]
  have hnonempty : name.toList.isEmpty = false := by
    simp [hname.nonempty]
  unfold parse?
  rw [String.toList_ofList, split?_append hleft]
  simp only [Option.bind_eq_bind, Option.bind_some, trimWith_pad hname.trimmed ha hb, hnonempty,
    valueOf_shown hv hc hd, String.ofList_toList]
  rfl

end Assignment

namespace CommandLine

open Assignment

variable {name : String} {v : Value}

theorem assignmentsOf_singleton {s : String} (h : parse? s = some (name, v)) :
    assignmentsOf [s] = .ok [(name, v)] := by
  simp [assignmentsOf, h]

/-- The line of the state that shows a local. -/
def localLine (name : String) (v : Value) : String :=
  "  " ++ name ++ " = " ++ v.shown

theorem parse?_localLine (hname : IsName name) (hv : v.IsExact) :
    parse? (localLine name v) = some (name, v) := by
  have hblanks (n : Nat) : Blanks (List.replicate n ' ') := by
    intro c hc
    rw [List.eq_of_mem_replicate hc]
    decide
  have hline : localLine name v = String.ofList (List.replicate 2 ' ' ++ name.toList ++
      List.replicate 1 ' ' ++ '=' :: (List.replicate 1 ' ' ++ v.shown.toList ++ [])) := by
    rw [← String.toList_inj, String.toList_ofList]
    simp [localLine, List.replicate]
  rw [hline]
  exact parse?_shown hname hv (hblanks 2) (hblanks 1) (hblanks 1) nofun

/-- Showing a value puts no control sequence in. -/
theorem freeOfSequences_shown (hv : v.IsExact) (h : v.FreeOfSequences) :
    Text.FreeOfSequences v.shown.toList := by
  rcases shown_cases hv with ⟨s, rfl, hshown⟩ | ⟨n, _, _, hplain, _⟩
  · have hmark : Text.mayStandInSequence '"' = false := by decide
    have hnil : Text.FreeOfSequences [] := .of_not_mem List.not_mem_nil
    rw [hshown]
    exact .cons hmark (.append_cons hmark h hnil)
  · refine .of_not_mem fun hmem => ?_
    exact absurd (hplain _ hmem) (by decide)

/-- The line holds no control sequence if its name and its text hold none. -/
theorem freeOfSequences_localLine (hname : Text.FreeOfSequences name.toList) (hv : v.IsExact)
    (h : v.FreeOfSequences) : Text.FreeOfSequences (localLine name v).toList := by
  have hblank : Text.mayStandInSequence ' ' = false := by decide
  have hequals : Text.mayStandInSequence '=' = false := by decide
  have hline : (localLine name v).toList =
      ' ' :: ' ' :: (name.toList ++ ' ' :: '=' :: ' ' :: v.shown.toList) := by
    simp [localLine]
  rw [hline]
  refine .cons hblank (.cons hblank (.append_cons hblank hname ?_))
  exact .cons hequals (.cons hblank (freeOfSequences_shown hv h))

/-- Every local has its line. -/
theorem localLine_mem_stateLines {site : Site} (h : site.chip.locals[name]? = some v) :
    localLine name v ∈ stateLines site := by
  have hmem : (name, v) ∈ site.chip.locals.toList :=
    Std.ExtTreeMap.mem_toList_iff_getElem?_eq_some.2 h
  unfold stateLines
  dsimp only
  simp only [List.mem_append]
  exact .inl (.inl (.inr (List.mem_map.2 ⟨(name, v), hmem, rfl⟩)))

/-! ### Runs of the command -/

/-- The command runs a program and comes to a site. -/
def ComesTo (describe : String → String) (environment : String → Option String) (inv : Invocation)
    (site : Site) : Prop :=
  inv.ast = false ∧ ∃ program chip trace, (load describe inv).1 = .ok program ∧
    Chip.new (some inv.device) program (Settings.ofEnvironment environment).1 = .ok chip ∧
    (seed ⟨chip, some (worldOf inv).1⟩ inv.locals).1.steps (inv.steps.getD program.length) =
      .ok (site, trace)

section

variable {describe : String → String} {environment : String → Option String} {inv : Invocation}
  {site : Site}

/-- Where the command comes to is shown in its output. -/
theorem ComesTo.stateLines_subset (h : ComesTo describe environment inv site) :
    stateLines site ⊆ (invoke describe environment inv).out := by
  obtain ⟨hast, program, chip, trace, hload, hnew, hsteps⟩ := h
  have hrun : ∃ output trace,
      runProgram (Settings.ofEnvironment environment).1 inv program = (.ok output, trace) ∧
        stateLines site ⊆ output.out := by
    unfold runProgram
    dsimp only
    rw [hnew]
    dsimp only
    rw [hsteps]
    exact ⟨_, _, rfl, fun line hline => List.mem_append_left _ (List.mem_append_right _ hline)⟩
  obtain ⟨output, trace', hrun, hout⟩ := hrun
  have hloaded : load describe inv = (.ok program, (load describe inv).2) := by
    rw [← hload]
  unfold invoke
  dsimp only
  rw [hloaded]
  dsimp only
  rw [hast, if_neg Bool.false_ne_true, hrun]
  exact hout

theorem seed_fst (site : Site) (locals : List (String × Value)) :
    (seed site locals).1 =
      locals.foldl (fun site (pair : String × Value) =>
        (Site.set ⟨pair.1⟩ pair.2 site).state) site := by
  unfold seed
  generalize ([] : Trace) = trace
  induction locals generalizing site trace with
  | nil => rfl
  | cons pair rest ih => exact ih _ _

/-- Setting locals before a run leaves the chip sound, and gives no local a name of a field. -/
theorem sound_and_scope_of_seed (locals : List (String × Value)) (hsound : site.chip.Sound)
    (h : ∀ key ∈ site.chip.locals, Name.scope ⟨key⟩ = .chip) :
    (seed site locals).1.chip.Sound ∧
      ∀ key ∈ (seed site locals).1.chip.locals, Name.scope ⟨key⟩ = .chip := by
  rw [seed_fst]
  induction locals generalizing site with
  | nil => exact ⟨hsound, h⟩
  | cons pair rest ih =>
    have haccount := Site.account_set ⟨pair.1⟩ pair.2 site
    exact ih ((Operation.host (.set ⟨pair.1⟩ pair.2)).sound_perform hsound)
      (haccount.explains.scope_of_mem h)

/-- No local that the command comes to has a name of a field. -/
theorem ComesTo.scope_of_mem (h : ComesTo describe environment inv site) :
    ∀ key ∈ site.chip.locals, Name.scope ⟨key⟩ = .chip := by
  obtain ⟨_, program, chip, trace, _, hnew, hsteps⟩ := h
  let start : Site := ⟨chip, some (worldOf inv).1⟩
  have hempty : ∀ key ∈ start.chip.locals, Name.scope ⟨key⟩ = .chip := by
    obtain ⟨_, rfl⟩ := Chip.new_eq_ok hnew
    exact fun key hkey => absurd hkey Std.ExtTreeMap.not_mem_empty
  have hsound : start.chip.Sound := Chip.sound_new hnew
  have hseed := sound_and_scope_of_seed inv.locals hsound hempty
  obtain ⟨r, hr, haccount⟩ := Site.account_steps (inv.steps.getD program.length) hseed.1
  obtain rfl := Except.ok.inj (hr.symm.trans hsteps)
  exact haccount.explains.scope_of_mem hseed.2

end

/-- Giving a local a value before a run does so. -/
theorem locals_seed (other : Site) (hlocal : (Name.mk name).scope = .chip) :
    (seed other [(name, v)]).1.chip.locals[name]? = some v := by
  have hset : (seed other [(name, v)]).1.chip.locals = other.chip.locals.insert name v := by
    show (Memory.write other.chip.device ⟨name⟩ v other.memory).state.locals = _
    simp only [Memory.write, hlocal, Name.key]
    rfl
  rw [hset, Std.ExtTreeMap.getElem?_insert_self]

/-- The function leaves texts as they are that hold no control sequence. -/
def LeavesPlain (plain : String → String) : Prop :=
  ∀ s : String, Text.FreeOfSequences s.toList → plain s = s

/-- What the command says is written as it is to a terminal, and elsewhere if no control sequence is
in it. -/
theorem mem_toOut {output : Output} {line : String} (hline : line ∈ output.out)
    {plain : String → String} (hplain : LeavesPlain plain) {toTerminal : Bool}
    (h : toTerminal = true ∨ Text.FreeOfSequences line.toList) :
    line ∈ output.toOut plain toTerminal := by
  unfold Output.toOut Output.written
  cases toTerminal with
  | true => exact hline
  | false =>
    have hfree := h.resolve_left Bool.false_ne_true
    exact List.mem_map.2 ⟨line, hline, hplain line hfree⟩

end CommandLine

def notingRun (name : String) (v : Value) : CommandLine.Invocation where
  path := "note.json"
  bytes := [91, 93]
  locals := [(name, v)]

theorem load_notingRun (name : String) (v : Value) :
    (CommandLine.load id (notingRun name v)).1 = .ok ⟨[]⟩ :=
  rfl

end ChipScript
