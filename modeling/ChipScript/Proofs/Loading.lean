import ChipScript.CommandLine
import ChipScript.Proofs.Json

/-!
# Refused programs

A program text is refused with a format error, except for one thing: an integer that is too long to
be read stops reading in a way that is not a matter of format
(`only_long_integers_escape_format_errors`). That happens just if the text is JSON up to such an
integer, and the command then ends as if something had gone wrong inside it.

The decoder adds nothing to this, since what was read holds no such integer. Nor do the texts in a
program: whether one of them was given with half a character decides neither way.
-/

namespace ChipScript

/-- Bytes below 128 are read as the characters of those numbers. -/
theorem Text.decodeUtf8_of_ascii {bytes : List UInt8} (h : ∀ b ∈ bytes, b < 0x80) :
    decodeUtf8 bytes = .ok (String.ofList (bytes.map fun b => Char.ofNat b.toNat)) := by
  have hfrom (done : List Char) (position : Nat) : decodeUtf8From done position none bytes =
      .ok (String.ofList (done.reverse ++ bytes.map fun b => Char.ofNat b.toNat)) := by
    induction bytes generalizing done position with
    | nil => simp [decodeUtf8From]
    | cons b rest ih =>
      obtain ⟨hb, hrest⟩ := List.forall_mem_cons.1 h
      simp [decodeUtf8From, hb, ih hrest]
  exact hfrom [] 0

namespace Program

variable {describe : String → String} {s : String} {p : Program} {e : LoadError} {digits : Nat}

/-- A text that is JSON is loaded as its tree is. -/
theorem ofText_of_ofJson {d : Data} (h : Data.ofJson s = .ok d) :
    (ofText describe s).1 = (ofData d).1.mapError .decode := by
  simp only [ofText, h]

/-- The programs that texts are read as are those of the grammar. -/
theorem ofText_eq_ok_iff :
    (ofText describe s).1 = .ok p ↔ ∃ d, Data.ofJson s = .ok d ∧ d.DenotesProgram p := by
  cases hs : Data.ofJson s with
  | error why => cases why <;> simp [ofText, hs]
  | ok d =>
    have hmap : (ofData d).1.mapError LoadError.decode = .ok p ↔ (ofData d).1 = .ok p := by
      cases (ofData d).1 <;> simp [Except.mapError]
    simp [ofText_of_ofJson hs, hmap, ofData_eq_ok_iff (Data.isWritable_of_ofJson hs)]

/-- A text is refused for a long integer just if it breaks off at one. -/
theorem ofText_eq_longInteger_iff :
    (ofText describe s).1 = .error (.longInteger digits) ↔ Data.BreaksOff s digits := by
  rw [← Data.ofJson_eq_longInteger_iff]
  cases hs : Data.ofJson s with
  | error why => cases why <;> simp [ofText, hs]
  | ok d =>
    rw [ofText_of_ofJson hs]
    cases (ofData d).1 <;> simp [Except.mapError]

/-- A refusal that is no format error is that of a long integer. -/
theorem exists_breaksOff (h : (ofText describe s).1 = .error e) (he : e.toFormatError? = none) :
    ∃ digits, e = .longInteger digits ∧ Data.BreaksOff s digits := by
  cases e with
  | notJson detail => cases he
  | longInteger digits => exact ⟨digits, rfl, ofText_eq_longInteger_iff.1 h⟩
  | decode why =>
    -- What was read holds no long integer, so the decoder refuses it for its form alone.
    cases hs : Data.ofJson s with
    | error why => cases why <;> simp [ofText, hs] at h
    | ok d =>
      have hformat := ofData_denotes_or_format (Data.isWritable_of_ofJson hs)
      rw [ofText_of_ofJson hs] at h
      cases hd : (ofData d).1 with
      | ok p =>
        rw [hd] at h
        cases h
      | error why =>
        rw [hd] at h hformat
        cases h
        exact absurd he (Option.isSome_iff_ne_none.1 hformat)

end Program

namespace CommandLine

/-- A command whose program is refused says just that. -/
theorem invoke_of_error {describe : String → String} {s : String} {e : Program.LoadError}
    {inv : Invocation} (environment : String → Option String)
    (hs : Text.decodeUtf8 inv.bytes = .ok s) (h : (Program.ofText describe s).1 = .error e) :
    ∃ log, invoke describe environment inv = (troubleOf e).output log := by
  have hload : (load describe inv).1 = .error (troubleOf e) := by
    simp only [load, hs, h]
    rfl
  simp only [invoke]
  split
  · next trouble trace heq =>
    rw [heq] at hload
    cases hload
    exact ⟨_, rfl⟩
  · next program trace heq =>
    rw [heq] at hload
    cases hload

end CommandLine

open CommandLine

/-- A text is a program of the grammar, or it is refused with a format error, which the command
tells of with exit code 1. Only a text that breaks off at a long integer is refused otherwise: the
command takes it for trouble of its own. What is said about a text that is not JSON does not
matter. -/
theorem only_long_integers_escape_format_errors (describe : String → String) (s : String) :
    (∀ p, (Program.ofText describe s).1 = .ok p ↔
      ∃ d, Data.ofJson s = .ok d ∧ d.DenotesProgram p) ∧
    ((∀ digits, ¬ Data.BreaksOff s digits) → ∀ e, (Program.ofText describe s).1 = .error e →
      ∃ f, e.toFormatError? = some f ∧
        ∀ inv environment, Text.decodeUtf8 inv.bytes = .ok s →
          (invoke describe environment inv).exitCode = 1 ∧
          (invoke describe environment inv).complaint = ["Error: " ++ f.message]) ∧
    ∀ digits,
      (Data.BreaksOff s digits ↔
        (Program.ofText describe s).1 = .error (.longInteger digits)) ∧
      (Data.BreaksOff s digits →
        (Numeral.maxDigits < digits ∧
          ∃ ds, ds <:+: s.toList ∧ ds.length = digits ∧ ∀ c ∈ ds, c.isDigit = true) ∧
        ∀ inv environment, Text.decodeUtf8 inv.bytes = .ok s →
          (invoke describe environment inv).exitCode = 3 ∧
          (invoke describe environment inv).complaint =
            ["Internal error: " ++ (Program.LoadError.longInteger digits).message]) := by
  refine ⟨fun p => Program.ofText_eq_ok_iff, ?_, fun digits => ⟨?_, ?_⟩⟩
  · intro hwhole e he
    cases hf : e.toFormatError? with
    | none =>
      obtain ⟨digits, -, hbreaks⟩ := Program.exists_breaksOff he hf
      exact absurd hbreaks (hwhole digits)
    | some f =>
      refine ⟨f, rfl, fun inv environment hs => ?_⟩
      obtain ⟨log, hinvoke⟩ := invoke_of_error environment hs he
      rw [hinvoke, troubleOf, hf]
      exact ⟨rfl, rfl⟩
  · exact Program.ofText_eq_longInteger_iff.symm
  · intro hbreaks
    refine ⟨hbreaks.exists_row, fun inv environment hs => ?_⟩
    have hrefused : (Program.ofText describe s).1 = .error (.longInteger digits) :=
      Program.ofText_eq_longInteger_iff.2 hbreaks
    obtain ⟨log, hinvoke⟩ := invoke_of_error environment hs hrefused
    rw [hinvoke]
    exact ⟨rfl, rfl⟩

def gateRun (bytes : List UInt8) : Invocation where
  path := "gate.json"
  bytes := bytes

/-- A record that is not closed is refused like everything that is no program. -/
theorem unclosed_record_is_refused :
    (∀ digits, ¬ Data.BreaksOff "[\x7b" digits) ∧
      Text.decodeUtf8 (gateRun [0x5b, 0x7b]).bytes = .ok "[\x7b" ∧
      (invoke (fun _ => "it breaks off") (fun _ => none) (gateRun [0x5b, 0x7b])).exitCode = 1 ∧
      (invoke (fun _ => "it breaks off") (fun _ => none) (gateRun [0x5b, 0x7b])).complaint =
        ["Error: error: invalid JSON: it breaks off"] := by
  obtain ⟨-, hformat, hlong⟩ :=
    only_long_integers_escape_format_errors (fun _ => "it breaks off") "[\x7b"
  have hrefused : (Program.ofText (fun _ => "it breaks off") "[\x7b").1 =
      .error (.notJson "it breaks off") := rfl
  have hwhole : ∀ digits, ¬ Data.BreaksOff "[\x7b" digits := by
    intro digits hbreaks
    have hother := (hlong digits).1.1 hbreaks
    rw [hrefused] at hother
    cases hother
  have hs : Text.decodeUtf8 (gateRun [0x5b, 0x7b]).bytes = .ok "[\x7b" := by decide +kernel
  obtain ⟨f, hf, hinvoke⟩ := hformat hwhole _ hrefused
  cases hf
  exact ⟨hwhole, hs, hinvoke _ _ hs⟩

def ones (n : Nat) : String := String.ofList (List.replicate n '1')

theorem toList_ones (n : Nat) : (ones n).toList = List.replicate n '1' :=
  String.toList_ofList

/-- A row of ones is read from as many bytes. -/
theorem decodeUtf8_ones (n : Nat) : Text.decodeUtf8 (List.replicate n 0x31) = .ok (ones n) := by
  have hascii : ∀ b ∈ List.replicate n (0x31 : UInt8), b < 0x80 := by
    intro b hb
    rw [List.eq_of_mem_replicate hb]
    decide
  rw [Text.decodeUtf8_of_ascii hascii, List.map_replicate]
  rfl

/-- A row that is too long by one is no program, but it is not refused with a format error. -/
theorem overlong_row_is_no_format_error :
    Data.BreaksOff (ones 4301) 4301 ∧
    (Program.ofText id (ones 4301)).1 = .error (.longInteger 4301) ∧
    (Program.LoadError.longInteger 4301).toFormatError? = none ∧
    Text.decodeUtf8 (gateRun (List.replicate 4301 0x31)).bytes = .ok (ones 4301) ∧
    (invoke id (fun _ => none) (gateRun (List.replicate 4301 0x31))).exitCode = 3 := by
  have htokens : Token.tokens 0 (ones 4301).toList = [.longInt 4301] := by
    rw [toList_ones]
    decide +kernel
  have hbreaks : Data.BreaksOff (ones 4301) 4301 := ⟨[], [], [], .int 0, htokens, rfl⟩
  have hrefused : (Program.ofText id (ones 4301)).1 = .error (.longInteger 4301) :=
    Program.ofText_eq_longInteger_iff.2 hbreaks
  have hs : Text.decodeUtf8 (gateRun (List.replicate 4301 0x31)).bytes = .ok (ones 4301) :=
    decodeUtf8_ones 4301
  refine ⟨hbreaks, hrefused, rfl, hs, ?_⟩
  obtain ⟨log, hinvoke⟩ := invoke_of_error (fun _ => none) hs hrefused
  rw [hinvoke]
  rfl

end ChipScript
