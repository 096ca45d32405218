import ChipScript.Proofs.Accesses
import ChipScript.Proofs.Gating
import ChipScript.Proofs.Safety

/-!
# Two namespaces

The locals of a chip and the fields of the world never mix. A name is sorted by its first character
when it is looked up, so what is written under a field name never becomes a local, however many
colons are left in its key, and what is written under any other name never leaves the chip.

`Account` says what became of the locals between two sites: a log of reads and writes explains them,
and a key that is new was given by the host or is a target of a line that was run. It holds of every
step and of every other operation, and passes from one to the next (`Account.trans`). From a new
chip on, the log then tells what each local holds, and what every read of a local has found.
-/

namespace ChipScript

/-! ### Writing changes one namespace -/

/-- Of two memories the second comes from the first by writing some names: if all of them are fields
the locals are the same, and if none is the world is. -/
structure Memory.ChangedWithin (names : List Name) (m m' : Memory) : Prop where
  locals : (∀ name ∈ names, name.scope = .field) → m'.locals = m.locals
  world : (∀ name ∈ names, name.scope = .chip) → m'.world = m.world

section

variable {names : List Name}

theorem Memory.changedWithin_refl (m : Memory) : m.ChangedWithin names m :=
  ⟨fun _ => rfl, fun _ => rfl⟩

theorem Memory.ChangedWithin.trans {m m' m'' : Memory} (h : m.ChangedWithin names m')
    (h' : m'.ChangedWithin names m'') : m.ChangedWithin names m'' :=
  ⟨fun hfields => (h'.locals hfields).trans (h.locals hfields),
    fun hlocals => (h'.world hlocals).trans (h.world hlocals)⟩

variable (device : Option String)

/-- A write to one of the names changes nothing but what they stand for. -/
theorem Memory.changedWithin_write {name : Name} (hname : name ∈ names) (value : Value)
    (m : Memory) : m.ChangedWithin names (write device name value m).state := by
  unfold write
  refine ⟨fun hfields => ?_, fun hlocals => ?_⟩
  · rw [hfields name hname]
    cases m.world with
    | none => rfl
    | some w =>
      dsimp only
      cases w.write device name.key value <;> rfl
  · rw [hlocals name hname]

/-- Statements change no more than the namespaces of their targets. -/
theorem changedWithin_executeBlock (limit : Int) (block : List Stmt) (m : Machine) :
    m.memory.ChangedWithin (blockTargets block)
      (executeBlock device limit block m).state.memory :=
  kept_executeBlock Memory.changedWithin_refl (fun _ _ _ h h' => h.trans h')
    (fun _ hname value m => Memory.changedWithin_write device hname value m) limit m

end

/-! ### Operations -/

/-- What a host does with a chip, its locals and the world around it. -/
inductive Operation where
  | host (action : HostAction)
  /-- The locals are forgotten, and nothing else. -/
  | clear

namespace Operation

/-- Operates on a site. -/
def perform : Operation → Site → Site
  | host action, site => (action.perform site).site
  | clear, site => site.withMemory site.memory.clear

def linesTaken : Operation → Site → List Int
  | host action, site => action.linesTaken site
  | clear, _ => []

/-- The names that the host gives a value by an operation. -/
def given : Operation → List Name
  | host (.set name _) => [name]
  | _ => []

end Operation

namespace Site

def operated (site : Site) : List Operation → Site
  | [] => site
  | o :: rest => (o.perform site).operated rest

def linesOperated (site : Site) : List Operation → List Int
  | [] => []
  | o :: rest => o.linesTaken site ++ (o.perform site).linesOperated rest

/-- What the next step reads and writes. -/
def stepAccesses (site : Site) : List Access :=
  match site.chip.program.line site.chip.line with
  | .ok l =>
    blockAccesses site.chip.device site.chip.settings.lineLimit l.runnable
      ⟨site.memory, site.chip.line⟩
  | .error _ => []

def stepsAccesses : Nat → Site → List Access
  | 0, _ => []
  | n + 1, site =>
    match site.step with
    | .ok r => site.stepAccesses ++ r.1.stepsAccesses n
    | .error _ => []

end Site

def Operation.accesses : Operation → Site → List Access
  | host .step, site => site.stepsAccesses 1
  | host (.run count), site => site.stepsAccesses count.toNat
  | host (.get name), site =>
    (Site.get name site).followed fun found _ => found.toList.map (.read name)
  | host (.set name value), site => writeAccesses site.chip.device name value site.memory
  | host .reset, _ | clear, _ => [.clear]
  | host (.setLine _), _ | host (.world _), _ => []

/-- What operations read and write, one after another. -/
def Site.history (site : Site) : List Operation → List Access
  | [] => []
  | o :: rest => o.accesses site ++ (o.perform site).history rest

/-! ### Accounts -/

/-- The line with a number is one that runs, and it assigns to a name or increments it. -/
def Program.Writes (p : Program) (number : Int) (name : Name) : Prop :=
  ∃ l, p.line number = .ok l ∧ l.isFaulty = false ∧ name ∈ l.targets

/-- Between two sites of one program, steps were taken at some lines, some names were given by the
host, and a log was kept: it explains the locals, and every new key is accounted for. -/
structure Account (site site' : Site) (taken : List Int) (given : List Name) (log : List Access) :
    Prop where
  explains : Explains site.chip.locals log site'.chip.locals
  origin : ∀ key ∈ site'.chip.locals, key ∈ site.chip.locals ∨ ⟨key⟩ ∈ given ∨
    ∃ number ∈ taken, site.chip.program.Writes number ⟨key⟩
  program : site'.chip.program = site.chip.program

namespace Account

variable {site site' site'' : Site} {taken taken' : List Int} {given given' : List Name}
  {log log' : List Access}

theorem of_same_locals (hlocals : site'.chip.locals = site.chip.locals)
    (hprogram : site'.chip.program = site.chip.program) : Account site site' [] [] [] := by
  refine ⟨?_, fun key hkey => .inl (hlocals ▸ hkey), hprogram⟩
  rw [hlocals]
  exact .nil _

theorem of_clear (hlocals : site'.chip.locals = ∅)
    (hprogram : site'.chip.program = site.chip.program) : Account site site' [] [] [.clear] := by
  refine ⟨?_, fun key hkey => ?_, hprogram⟩
  · rw [hlocals]
    exact .clear (.nil _)
  · rw [hlocals] at hkey
    exact absurd hkey Std.ExtTreeMap.not_mem_empty

/-- Accounts of two periods make one of both. -/
theorem trans (h : Account site site' taken given log)
    (h' : Account site' site'' taken' given' log') :
    Account site site'' (taken ++ taken') (given ++ given') (log ++ log') := by
  refine ⟨h.explains.append h'.explains, fun key hkey => ?_, h'.program.trans h.program⟩
  have horigin' := h'.origin key hkey
  rw [h.program] at horigin'
  rcases horigin' with hbefore | hgiven | ⟨number, htaken, hwrites⟩
  · rcases h.origin key hbefore with hstart | hgiven | ⟨number, htaken, hwrites⟩
    · exact .inl hstart
    · exact .inr (.inl (List.mem_append_left _ hgiven))
    · exact .inr (.inr ⟨number, List.mem_append_left _ htaken, hwrites⟩)
  · exact .inr (.inl (List.mem_append_right _ hgiven))
  · exact .inr (.inr ⟨number, List.mem_append_right _ htaken, hwrites⟩)

end Account

/-- A local that is there was there before or has been written. -/
theorem Memory.KeptBut.mem_or_mem {device : Option String} {names : List Name} {m m' : Memory}
    (h : m.KeptBut device names m') {key : String} (hkey : key ∈ m'.locals) :
    key ∈ m.locals ∨ ⟨key⟩ ∈ names := by
  by_cases hname : ⟨key⟩ ∈ names
  · exact .inr hname
  · rw [Std.ExtTreeMap.mem_iff_isSome_getElem?, h.locals ⟨key⟩ hname] at hkey
    exact .inl (Std.ExtTreeMap.mem_iff_isSome_getElem?.2 hkey)

namespace Site

variable {site : Site}

/-- A step can be accounted for by its accesses. -/
theorem account_step (h : site.chip.Sound) :
    ∃ r, site.step = .ok r ∧ Account site r.1 [site.chip.line] [] site.stepAccesses := by
  rcases site.step_cases h.inRange with ⟨hempty, hstep⟩ | ⟨l, _, _, hl, hstep⟩
  · refine ⟨_, hstep, ?_, fun key hkey => .inl hkey, rfl⟩
    have hnone : site.stepAccesses = [] := by
      unfold stepAccesses
      split
      · next l hl =>
        have hmem := Program.mem_of_line_eq_ok hl
        rw [List.length_eq_zero_iff.1 hempty] at hmem
        cases hmem
      · rfl
    rw [hnone]
    exact .nil _
  · have hmemory := site.memory_takeLine site.chip.line l
    have hlocals : (site.takeLine site.chip.line l).1.advanced.chip.locals =
        (site.execution l.runnable).state.memory.locals := congrArg Memory.locals hmemory
    refine ⟨_, hstep, ?_, fun key hkey => ?_, site.program_takeLine site.chip.line l⟩
    · rw [hlocals, stepAccesses, hl]
      exact (explains_execute_and_executeBlock _ _).2 l.runnable ⟨site.memory, site.chip.line⟩
    · have hkept : site.memory.KeptBut site.chip.device (blockTargets l.runnable)
          (site.execution l.runnable).state.memory :=
        keptBut_executeBlock (List.Subset.refl _) _ ⟨site.memory, site.chip.line⟩
      rw [hlocals] at hkey
      rcases hkept.mem_or_mem hkey with hbefore | htarget
      · exact .inl hbefore
      · refine .inr (.inr ⟨site.chip.line, List.mem_singleton_self _, l, hl, ?_⟩)
        -- A line with a target among the statements that run has no syntax errors.
        cases hfaulty : l.isFaulty with
        | true => simp [runnable_of_faulty hfaulty, blockTargets] at htarget
        | false => exact ⟨rfl, l.blockTargets_runnable_subset htarget⟩

/-- Any number of steps can be accounted for by their accesses. -/
theorem account_steps (n : Nat) (h : site.chip.Sound) :
    ∃ r, site.steps n = .ok r ∧
      Account site r.1 (site.linesTaken n) [] (site.stepsAccesses n) := by
  induction n generalizing site with
  | zero => exact ⟨_, rfl, .of_same_locals rfl rfl⟩
  | succ n ih =>
    obtain ⟨first, hfirst, haccount⟩ := account_step h
    obtain ⟨first', hfirst', hsound', _⟩ := step_sound h
    obtain rfl := Except.ok.inj (hfirst'.symm.trans hfirst)
    obtain ⟨rest, hrest, haccount'⟩ := ih hsound'
    refine ⟨(rest.1, first'.2 ++ rest.2), steps_succ_of_ok hfirst hrest, ?_⟩
    rw [linesTaken, stepsAccesses, hfirst]
    exact haccount.trans haccount'

theorem account_set (name : Name) (value : Value) (site : Site) :
    Account site (set name value site).state [] [name]
      (writeAccesses site.chip.device name value site.memory) := by
  refine ⟨explains_write site.chip.device name value site.memory, fun key hkey => ?_, rfl⟩
  have hkept : site.memory.KeptBut site.chip.device [name] (set name value site).state.memory :=
    Memory.keptBut_write (List.mem_singleton_self name) value site.memory
  exact (hkept.mem_or_mem hkey).imp_right .inl

/-- A host that reads a local gets its value, or zero if it has none. -/
theorem get_of_local {name : Name} (h : name.scope = .chip) (site : Site) :
    (get name site).ending = .done (some (site.chip.locals.getD name.key (.int 0))) := by
  simp [get, onMemory, Action.within, Memory.get, Memory.read, Action.bind_apply, h, memory,
    FieldRead.value?]

theorem account_get (name : Name) (site : Site) :
    Account site (get name site).state [] []
      ((get name site).followed fun found _ => found.toList.map (.read name)) := by
  have hlocals : (get name site).state.chip.locals = site.chip.locals :=
    congrArg Memory.locals (Memory.state_get site.chip.device name site.memory)
  refine ⟨?_, fun key hkey => .inl (hlocals ▸ hkey), rfl⟩
  rw [hlocals]
  unfold Run.followed
  split
  · next found hfound =>
    cases found with
    | none => exact .nil _
    | some value =>
      refine .read (fun hscope => ?_) (.nil _)
      rw [get_of_local hscope] at hfound
      exact (Option.some.inj (Ending.done.inj hfound)).symm
  · exact .nil _

end Site

/-- Every operation accounts for what it does to the locals. -/
theorem Operation.account_perform (o : Operation) {site : Site} (h : site.chip.Sound) :
    Account site (o.perform site) (o.linesTaken site) o.given (o.accesses site) := by
  rcases o with a | _
  · cases a with
    | step =>
      obtain ⟨r, hr, haccount⟩ := Site.account_steps 1 h
      rw [site.steps_one] at hr
      rw [perform, HostAction.perform, hr]
      exact haccount
    | run count =>
      obtain ⟨r, hr, haccount⟩ := Site.account_steps count.toNat h
      rw [perform, HostAction.perform, hr]
      exact haccount
    | get name => exact Site.account_get name site
    | set name value => exact Site.account_set name value site
    | setLine line =>
      simp only [perform, HostAction.perform]
      split
      · next chip hchip =>
        obtain ⟨rfl, _⟩ := Chip.setLine_eq_ok hchip
        exact .of_same_locals rfl rfl
      · exact .of_same_locals rfl rfl
    | reset => exact .of_clear rfl rfl
    | world action =>
      simp only [perform, HostAction.perform]
      split <;> exact .of_same_locals rfl rfl
  · exact .of_clear rfl rfl

theorem Operation.sound_perform (o : Operation) {site : Site} (h : site.chip.Sound) :
    (o.perform site).chip.Sound := by
  cases o with
  | host a => exact ((invariant_sound site.chip.build).perform a ⟨h, rfl⟩).1.1
  | clear => exact ⟨h.inRange, h.length_le, h.maxPerLine_eq⟩

/-- Any operations can be accounted for. -/
theorem Site.account_operated (operations : List Operation) {site : Site} (h : site.chip.Sound) :
    Account site (site.operated operations) (site.linesOperated operations)
      (operations.flatMap Operation.given) (site.history operations) := by
  induction operations generalizing site with
  | nil => exact .of_same_locals rfl rfl
  | cons o rest ih => exact (o.account_perform h).trans (ih (o.sound_perform h))

theorem Operation.exists_set_of_given {operations : List Operation} {name : Name}
    (h : name ∈ operations.flatMap given) : ∃ value, .host (.set name value) ∈ operations := by
  obtain ⟨o, ho, hname⟩ := List.mem_flatMap.1 h
  unfold given at hname
  split at hname
  · next other value =>
    obtain rfl := List.mem_singleton.1 hname
    exact ⟨value, ho⟩
  · cases hname

/-- Whatever is done with a new chip, its locals and the world around it, and in whatever order, no
local has a key that starts with a colon, and each is a name that the host has set or one that a
line that was run assigns to or increments. Writing a field name leaves the locals as they are and
writing any other name leaves the world as it is, whether the host writes it or statements do. And a
local reads as what was last written to it since the chip was new or its locals were forgotten, or
zero if nothing was: so the host finds it now, and so it was found by every read on the way. -/
theorem namespaces_stay_apart {device : Option String} {program : Program} {settings : Settings}
    {chip : Chip} (h : Chip.new device program settings = .ok chip) (world : Option World)
    (operations : List Operation) :
    let start : Site := ⟨chip, world⟩
    let site := start.operated operations
    let log := start.history operations
    (∀ key ∈ site.chip.locals, key.toList.head? ≠ some Name.fieldMark ∧
      ((∃ value, .host (.set ⟨key⟩ value) ∈ operations) ∨
        ∃ number ∈ start.linesOperated operations, program.Writes number ⟨key⟩)) ∧
    (∀ name value (m : Memory), m.ChangedWithin [name] (Memory.write device name value m).state) ∧
    (∀ name value, site.memory.ChangedWithin [name] (Site.set name value site).state.memory) ∧
    (∀ block (m : Machine), m.memory.ChangedWithin (blockTargets block)
      (executeBlock device settings.lineLimit block m).state.memory) ∧
    ∀ name : Name, name.scope = .chip →
      site.chip.locals[name.key]? = lastWritten name log ∧
      (Site.get name site).ending = .done (some ((lastWritten name log).getD (.int 0))) ∧
      ∀ before value later, log = before ++ .read name value :: later →
        value = (lastWritten name before).getD (.int 0) := by
  intro start site log
  have hstart : start.chip.locals = ∅ ∧ start.chip.program = program := by
    obtain ⟨_, rfl⟩ := Chip.new_eq_ok h
    exact ⟨rfl, rfl⟩
  have haccount : Account start site _ _ log := Site.account_operated operations (Chip.sound_new h)
  have hexplains : Explains ∅ log site.chip.locals := hstart.1 ▸ haccount.explains
  refine ⟨fun key hkey => ⟨?_, ?_⟩, ?_, ?_, ?_, fun name hscope => ⟨?_, ?_, ?_⟩⟩
  · have hnone : ∀ key ∈ (∅ : Locals), Name.scope ⟨key⟩ = .chip := fun _ hkey =>
      absurd hkey Std.ExtTreeMap.not_mem_empty
    have hscope := hexplains.scope_of_mem hnone key hkey
    intro hmark
    simp [Name.scope, hmark] at hscope
  · rcases haccount.origin key hkey with hbefore | hgiven | hwrites
    · rw [hstart.1] at hbefore
      exact absurd hbefore Std.ExtTreeMap.not_mem_empty
    · exact .inl (Operation.exists_set_of_given hgiven)
    · rw [hstart.2] at hwrites
      exact .inr hwrites
  · intro name value m
    exact Memory.changedWithin_write device (List.mem_singleton_self name) value m
  · intro name value
    exact Memory.changedWithin_write _ (List.mem_singleton_self name) value site.memory
  · intro block m
    exact changedWithin_executeBlock device settings.lineLimit block m
  · exact hexplains.getElem?_eq hscope
  · rw [Site.get_of_local hscope, Std.ExtTreeMap.getD_eq_getD_getElem?,
      hexplains.getElem?_eq hscope]
  · intro before value later hlog
    rw [hlog] at hexplains
    exact hexplains.read_eq hscope

/-- A program that adds up under a name with two colons what it has counted, next to a line that
would count on if it had no syntax errors. -/
def tally : Program :=
  ⟨[{ statements := [
      .assign ⟨"total"⟩ "+=" (.increment .post "++" (.name ⟨"n"⟩)),
      .assign ⟨"::x"⟩ "=" (.name ⟨"total"⟩)] },
    { statements := [.increment .pre "++" (.name ⟨"ghost"⟩)],
      syntaxFaults := [⟨"unexpected end", .null⟩] }]⟩

def tallyChip : Chip where
  device := some "gate"
  program := tally
  settings := {}
  errors := { maxPerLine := 16 }

/-- A world where the key of that name is a field. -/
def tallyYard : World :=
  World.empty.add (.new "gate" [(":x", .int 0)] "yard")

/-- A host that starts the count at five, and forgets it after two rounds. -/
def tallying : List Operation :=
  [.host (.set ⟨"n"⟩ (.int 5)), .host (.run 3), .host (.get ⟨"total"⟩), .clear, .host (.run 4)]

/-- The world has the field, the locals do not. The total was eleven when the host read it, and
after the locals were forgotten the count starts again at zero. -/
theorem tally_keeps_namespaces_apart :
    (∀ key ∈ (Site.operated ⟨tallyChip, some tallyYard⟩ tallying).chip.locals,
      key.toList.head? ≠ some Name.fieldMark ∧
        (key = "n" ∨ ∃ number ∈ [1, 2, 1, 2, 1, 2, 1], tally.Writes number ⟨key⟩)) ∧
      .read ⟨"total"⟩ (.int 11) ∈ Site.history ⟨tallyChip, some tallyYard⟩ tallying ∧
      (Site.get ⟨"total"⟩ (Site.operated ⟨tallyChip, some tallyYard⟩ tallying)).ending =
        .done (some (.int 1)) := by
  have hnew : Chip.new (some "gate") tally {} = .ok tallyChip := rfl
  obtain ⟨hkeys, _, _, _, hreads⟩ := namespaces_stay_apart hnew (some tallyYard) tallying
  have hlines : Site.linesOperated ⟨tallyChip, some tallyYard⟩ tallying =
      [1, 2, 1, 2, 1, 2, 1] := by decide +kernel
  have hread : .read ⟨"total"⟩ (.int 11) ∈
      Site.history ⟨tallyChip, some tallyYard⟩ tallying := by decide +kernel
  have htotal : lastWritten ⟨"total"⟩ (Site.history ⟨tallyChip, some tallyYard⟩ tallying) =
      some (.int 1) := by decide +kernel
  refine ⟨fun key hkey => ?_, hread, ?_⟩
  · obtain ⟨hmark, horigin⟩ := hkeys key hkey
    rw [← hlines]
    refine ⟨hmark, horigin.imp_left ?_⟩
    rintro ⟨value, hmem⟩
    have hset : key = "n" ∧ value = .int 5 := by simpa [tallying] using hmem
    exact hset.1
  · rw [(hreads ⟨"total"⟩ (by decide)).2.1, htotal, Option.getD_some]

end ChipScript
