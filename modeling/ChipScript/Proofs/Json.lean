import ChipScript.Proofs.Actions
import ChipScript.Proofs.Arithmetic
import ChipScript.Proofs.Decoding
import Mathlib.Data.List.TakeWhile

/-!
# What is read from JSON

Two things about reading JSON matter for what comes after it.

* A tree that was read holds no integer that is too long to be written
  (`Data.isWritable_of_ofJson`): the only place where a long integer could come from is a token, and
  such a token is refused.
* Reading stops at a long integer just if the text is JSON up to there, so that with a short number
  in its place it could go on to a value (`Data.ofJson_eq_longInteger_iff`). Whatever has been read
  can be completed (`Data.exists_completion`), so nothing else can be said against such a text.

What tokens say of the text that they come from is gathered in `Token.Fits`.
-/

namespace ChipScript

namespace Token

/-- What a token says of the text that it comes from: an integer has no more digits than it may
have, and of one that is too long all digits stand in the text. -/
def Fits (cs : List Char) : Token → Prop
  | int n => (Data.int n).isWritable = true
  | longInt digits => Numeral.maxDigits < digits ∧
      ∃ ds, ds <:+: cs ∧ ds.length = digits ∧ ∀ c ∈ ds, c.isDigit = true
  | _ => True

/-- What fits a part of a text fits the text. -/
theorem Fits.mono {cs cs' : List Char} {t : Token} (h : t.Fits cs) (hcs : cs <:+: cs') :
    t.Fits cs' := by
  cases t with
  | longInt digits =>
    obtain ⟨hlong, ds, hds, hrow⟩ := h
    exact ⟨hlong, ds, hds.trans hcs, hrow⟩
  | _ => exact h

theorem wholeDigits_isInfix (cs : List Char) : wholeDigits cs <:+: cs := by
  apply List.IsPrefix.isInfix
  unfold wholeDigits
  split
  · exact List.prefix_append _ _
  · exact List.takeWhile_prefix _

theorem isDigit_of_mem_wholeDigits {cs : List Char} {c : Char} (h : c ∈ wholeDigits cs) :
    c.isDigit = true := by
  unfold wholeDigits at h
  split at h
  · obtain rfl := List.mem_singleton.1 h
    rfl
  · exact List.mem_takeWhile_imp h

theorem isWritable_wholeDigits {cs : List Char} (negative : Bool)
    (h : (wholeDigits cs).length ≤ Numeral.maxDigits) :
    (Data.int (if negative then -(Text.digitsValue (wholeDigits cs) : Int)
      else Text.digitsValue (wholeDigits cs))).isWritable = true := by
  rw [Data.isWritable, decide_eq_true_eq]
  exact Numeral.natAbs_signed_lt (fun _ => isDigit_of_mem_wholeDigits) h negative

/-- A number has no more digits than stand in the text. -/
theorem fits_number? {negative : Bool} {cs : List Char} {t : Token} {size : Nat}
    (h : number? negative cs = some (t, size)) : t.Fits cs := by
  unfold number? at h
  extract_lets whole fraction _ at h
  split at h
  split at h
  · cases h
  · split at h
    · split at h
      · next hlong =>
        obtain ⟨rfl, -⟩ := Prod.mk.inj (Option.some.inj h)
        exact ⟨hlong, whole, wholeDigits_isInfix cs, rfl, fun _ => isDigit_of_mem_wholeDigits⟩
      · next hshort =>
        obtain ⟨rfl, -⟩ := Prod.mk.inj (Option.some.inj h)
        exact isWritable_wholeDigits negative (Nat.le_of_not_lt hshort)
    · obtain ⟨rfl, -⟩ := Prod.mk.inj (Option.some.inj h)
      trivial

theorem fits_word? {cs : List Char} {t : Token} {size : Nat} (h : word? cs = some (t, size)) :
    t.Fits cs := by
  obtain ⟨w, hw, hfound⟩ := Option.map_eq_some_iff.1 h
  cases hfound
  have hmem := List.mem_of_find?_eq_some hw
  simp only [words, List.mem_cons, List.not_mem_nil, or_false] at hmem
  rcases hmem with rfl | rfl | rfl | rfl | rfl | rfl <;> trivial

theorem fits_mark {c : Char} {t : Token} (h : marks.lookup c = some t) (cs : List Char) :
    t.Fits cs := by
  have hmem := mem_of_lookup h
  simp only [marks, List.mem_cons, List.not_mem_nil, or_false, Prod.mk.injEq] at hmem
  rcases hmem with ⟨_, rfl⟩ | ⟨_, rfl⟩ | ⟨_, rfl⟩ | ⟨_, rfl⟩ | ⟨_, rfl⟩ | ⟨_, rfl⟩ <;> trivial

/-- What a token says of its text holds of every token that is found. -/
theorem fits_lexeme (c : Char) (rest : List Char) : (lexeme c rest).1.Fits (c :: rest) := by
  unfold lexeme
  split
  · next h => exact fits_mark h _
  · split
    · split <;> trivial
    · split
      · next h => exact fits_word? h
      · dsimp only
        split
        · next h =>
          split at h
          · obtain ⟨found, hfound, hsigned⟩ := Option.map_eq_some_iff.1 h
            cases hsigned
            exact (fits_number? hfound).mono (List.suffix_cons c rest).isInfix
          · exact fits_number? h
        · trivial

/-- All tokens of a text fit it. -/
theorem fits_of_mem_tokens {skip : Nat} {cs : List Char} {t : Token} (h : t ∈ tokens skip cs) :
    t.Fits cs := by
  induction cs generalizing skip with
  | nil => cases h
  | cons c rest ih =>
    have hrest {skip : Nat} (h : t ∈ tokens skip rest) : t.Fits (c :: rest) :=
      (ih h).mono (List.suffix_cons c rest).isInfix
    cases skip with
    | succ n => exact hrest h
    | zero =>
      rw [tokens] at h
      split at h
      · exact hrest h
      · rcases List.mem_cons.1 h with rfl | h
        · exact fits_lexeme c rest
        · exact hrest h

end Token

namespace Data

/-! ### What is read can be written -/

theorem itemsWritable_concat (items : List Data) (d : Data) :
    itemsWritable (items ++ [d]) = (itemsWritable items && d.isWritable) := by
  induction items with
  | nil => simp [itemsWritable]
  | cons d' rest ih => simp [itemsWritable, ih, Bool.and_assoc]

/-- A record can still be written after a member was put. -/
theorem membersWritable_put {members : List (String × Data)} {name : String} {d : Data}
    (hmembers : membersWritable members = true) (hd : d.isWritable = true) :
    membersWritable (Members.put name d members) = true := by
  induction members with
  | nil => simp [Members.put, membersWritable, hd]
  | cons member rest ih =>
    obtain ⟨n, v⟩ := member
    simp only [membersWritable, Bool.and_eq_true] at hmembers
    rw [Members.put]
    split
    · simp [membersWritable, hd, hmembers.2]
    · simp [membersWritable, hmembers.1, ih hmembers.2]

/-- The container holds nothing yet that is too long. -/
def Frame.Writable : Frame → Prop
  | list items => itemsWritable items = true
  | record members _ => membersWritable members = true

/-- Nothing that is being put together is too long. -/
def Expected.Writable : Expected → Prop
  | value | firstItem | firstName => True
  | name members | colon members _ => membersWritable members = true
  | after d => d.isWritable = true

/-- Nothing that has been read is too long. -/
def AllWritable (state : Expected × List Frame) : Prop :=
  state.1.Writable ∧ ∀ frame ∈ state.2, frame.Writable

theorem isWritable_ofToken? {t : Token} {cs : List Char} {d : Data} (ht : t.Fits cs)
    (h : ofToken? t = some d) : d.isWritable = true := by
  cases t <;> cases h
  case int => exact ht
  all_goals rfl

theorem allWritable_openValue {frames : List Frame} {t : Token} {cs : List Char}
    {state : Expected × List Frame} (hframes : ∀ frame ∈ frames, frame.Writable) (ht : t.Fits cs)
    (h : openValue frames t = .ok state) : AllWritable state := by
  unfold openValue at h
  split at h
  · cases h
    exact ⟨trivial, List.forall_mem_cons.2 ⟨rfl, hframes⟩⟩
  · cases h
    exact ⟨trivial, hframes⟩
  · cases h
  · split at h
    · next hd =>
      cases h
      exact ⟨isWritable_ofToken? ht hd, hframes⟩
    · cases h

/-- One more token keeps everything that was read writable. -/
theorem AllWritable.readToken {state state' : Expected × List Frame} {t : Token} {cs : List Char}
    (hstate : AllWritable state) (ht : t.Fits cs) (h : readToken state t = .ok state') :
    AllWritable state' := by
  obtain ⟨hexpected, hframes⟩ := hstate
  unfold Data.readToken at h
  split at h
  case h_2 => exact allWritable_openValue hframes ht h
  case h_3 => exact allWritable_openValue hframes ht h
  case h_12 => cases h
  all_goals cases h
  case h_1 =>
    obtain ⟨hframe, hrest⟩ := List.forall_mem_cons.1 hframes
    exact ⟨hframe, hrest⟩
  case h_4 => exact ⟨hexpected, hframes⟩
  case h_5 => exact ⟨rfl, hframes⟩
  case h_6 => exact ⟨rfl, hframes⟩
  case h_7 => exact ⟨trivial, List.forall_mem_cons.2 ⟨hexpected, hframes⟩⟩
  case h_8 =>
    obtain ⟨hframe, hrest⟩ := List.forall_mem_cons.1 hframes
    refine ⟨trivial, List.forall_mem_cons.2 ⟨?_, hrest⟩⟩
    exact (itemsWritable_concat _ _).trans (Bool.and_eq_true_iff.2 ⟨hframe, hexpected⟩)
  case h_9 =>
    obtain ⟨hframe, hrest⟩ := List.forall_mem_cons.1 hframes
    exact ⟨(itemsWritable_concat _ _).trans (Bool.and_eq_true_iff.2 ⟨hframe, hexpected⟩), hrest⟩
  case h_10 =>
    obtain ⟨hframe, hrest⟩ := List.forall_mem_cons.1 hframes
    exact ⟨membersWritable_put hframe hexpected, hrest⟩
  case h_11 =>
    obtain ⟨hframe, hrest⟩ := List.forall_mem_cons.1 hframes
    exact ⟨membersWritable_put hframe hexpected, hrest⟩

/-! ### Token after token -/

/-- The state after some more tokens. -/
def readTokens (state : Expected × List Frame) (tokens : List Token) :
    Except JsonError (Expected × List Frame) :=
  tokens.foldlM readToken state

variable {state state' : Expected × List Frame} {t : Token} {ts : List Token} {d : Data}

theorem readTokens_cons_eq_ok_iff :
    readTokens state (t :: ts) = .ok state' ↔
      ∃ next, readToken state t = .ok next ∧ readTokens next ts = .ok state' := by
  rw [readTokens, List.foldlM_cons]
  refine ⟨exists_of_bind_eq_ok, ?_⟩
  rintro ⟨next, ht, hts⟩
  rw [ht]
  exact hts

/-- Tokens can be read in two rows, one after the other. -/
theorem readTokens_append_eq_ok_iff {ts' : List Token} :
    readTokens state (ts ++ ts') = .ok state' ↔
      ∃ next, readTokens state ts = .ok next ∧ readTokens next ts' = .ok state' := by
  rw [readTokens, List.foldlM_append]
  refine ⟨exists_of_bind_eq_ok, ?_⟩
  rintro ⟨next, hts, hts'⟩
  rw [← readTokens, hts]
  exact hts'

/-- Reading fails at the first token that is refused, and for the reason it is refused for. -/
theorem readTokens_eq_error_iff {e : JsonError} :
    readTokens state ts = .error e ↔ ∃ before t later next, ts = before ++ t :: later ∧
      readTokens state before = .ok next ∧ readToken next t = .error e := by
  constructor
  · intro h
    induction ts generalizing state with
    | nil => cases h
    | cons t ts ih =>
      rw [readTokens, List.foldlM_cons] at h
      cases ht : readToken state t with
      | error e' =>
        rw [ht] at h
        cases h
        exact ⟨[], t, ts, state, rfl, rfl, ht⟩
      | ok next =>
        rw [ht] at h
        obtain ⟨before, t', later, last, rfl, hbefore, ht'⟩ := ih h
        exact ⟨t :: before, t', later, last, rfl,
          readTokens_cons_eq_ok_iff.2 ⟨next, ht, hbefore⟩, ht'⟩
  · rintro ⟨before, t, later, next, rfl, hbefore, ht⟩
    rw [readTokens, List.foldlM_append, ← readTokens, hbefore]
    show (readToken next t >>= _) = _
    rw [ht]
    rfl

/-- Any number of tokens keeps everything that was read writable. -/
theorem AllWritable.readTokens {cs : List Char} (hstate : AllWritable state)
    (hts : ∀ t ∈ ts, t.Fits cs) (h : readTokens state ts = .ok state') : AllWritable state' := by
  induction ts generalizing state with
  | nil =>
    cases h
    exact hstate
  | cons t ts ih =>
    obtain ⟨ht, hts⟩ := List.forall_mem_cons.1 hts
    obtain ⟨next, hnext, h⟩ := readTokens_cons_eq_ok_iff.1 h
    exact ih (hstate.readToken ht hnext) hts h

/-- What has been read at the end: a value must be complete and no container open. -/
def completed : Expected × List Frame → Except JsonError Data
  | (.after d, []) => .ok d
  | _ => .error .invalid

theorem completed_eq_ok_iff : completed state = .ok d ↔ state = (.after d, []) := by
  constructor
  · intro h
    unfold completed at h
    split at h
    · cases h
      rfl
    · cases h
  · rintro rfl
    rfl

/-- A text that ends too early is refused as invalid. -/
theorem completed_ne_longInteger {digits : Nat} :
    completed state ≠ .error (.longInteger digits) := by
  unfold completed
  split <;> nofun

def ofTokens (tokens : List Token) : Except JsonError Data :=
  readTokens (.value, []) tokens >>= completed

theorem ofJson_eq (s : String) : ofJson s = ofTokens (Token.tokens 0 s.toList) := rfl

theorem ofTokens_eq_ok_iff :
    ofTokens ts = .ok d ↔ readTokens (.value, []) ts = .ok (.after d, []) := by
  constructor
  · intro h
    obtain ⟨state, hts, hd⟩ := exists_of_bind_eq_ok h
    rwa [completed_eq_ok_iff.1 hd] at hts
  · intro h
    rw [ofTokens, h]
    rfl

/-- A long integer is refused where it stands, not at the end. -/
theorem ofTokens_eq_longInteger_iff {digits : Nat} :
    ofTokens ts = .error (.longInteger digits) ↔
      readTokens (.value, []) ts = .error (.longInteger digits) := by
  rw [ofTokens]
  cases readTokens (.value, []) ts with
  | error e => simp only [bind, Except.bind, Except.error.injEq]
  | ok state => exact ⟨fun h => absurd h completed_ne_longInteger, nofun⟩

/-- A tree that was read has no integer that is too long to be written. -/
theorem isWritable_of_ofJson {s : String} (h : ofJson s = .ok d) : d.isWritable = true := by
  rw [ofJson_eq, ofTokens_eq_ok_iff] at h
  have hstart : AllWritable (.value, []) := ⟨trivial, nofun⟩
  exact (hstart.readTokens (fun _ => Token.fits_of_mem_tokens) h).1

/-! ### Where reading stops -/

theorem readToken_firstItem {frames : List Frame} (h : t ≠ .closeList) :
    readToken (.firstItem, frames) t = openValue frames t := by
  rw [readToken]
  exact fun _ _ ht _ => h ht

/-- A complete value can be taken to the end of the containers around it. -/
theorem exists_completion_after (d : Data) (frames : List Frame) :
    ∃ rest d', readTokens (.after d, frames) rest = .ok (.after d', []) := by
  induction frames generalizing d with
  | nil => exact ⟨[], d, rfl⟩
  | cons frame frames ih =>
    cases frame with
    | list items =>
      obtain ⟨rest, d', h⟩ := ih (.list (items ++ [d]))
      exact ⟨.closeList :: rest, d', readTokens_cons_eq_ok_iff.2 ⟨_, rfl, h⟩⟩
    | record members name =>
      obtain ⟨rest, d', h⟩ := ih (.record (Members.put name d members))
      exact ⟨.closeRecord :: rest, d', readTokens_cons_eq_ok_iff.2 ⟨_, rfl, h⟩⟩

/-- Whatever has been read, tokens can follow that complete it. -/
theorem exists_completion (state : Expected × List Frame) :
    ∃ rest d, readTokens state rest = .ok (.after d, []) := by
  have hstep {state next : Expected × List Frame} (t : Token) (h : readToken state t = .ok next)
      (hnext : ∃ rest d, readTokens next rest = .ok (.after d, [])) :
      ∃ rest d, readTokens state rest = .ok (.after d, []) := by
    obtain ⟨rest, d, hrest⟩ := hnext
    exact ⟨t :: rest, d, readTokens_cons_eq_ok_iff.2 ⟨next, h, hrest⟩⟩
  have hvalue (frames : List Frame) :
      ∃ rest d, readTokens (.value, frames) rest = .ok (.after d, []) :=
    hstep .null rfl (exists_completion_after .null frames)
  have hcolon (members : List (String × Data)) (name : String) (frames : List Frame) :
      ∃ rest d, readTokens (.colon members name, frames) rest = .ok (.after d, []) :=
    hstep .colon rfl (hvalue _)
  obtain ⟨expected, frames⟩ := state
  cases expected with
  | value => exact hvalue frames
  | firstItem =>
    exact hstep .null (readToken_firstItem nofun) (exists_completion_after .null frames)
  | name members => exact hstep (.text "") rfl (hcolon members "" frames)
  | firstName => exact hstep .closeRecord rfl (exists_completion_after _ frames)
  | colon members name => exact hcolon members name frames
  | after d => exact exists_completion_after d frames

/-- Opening a value stops over a long integer just if the token is one. -/
theorem openValue_eq_longInteger_iff {frames : List Frame} {digits : Nat} :
    openValue frames t = .error (.longInteger digits) ↔ t = .longInt digits := by
  cases t <;> simp [openValue, ofToken?]

/-- A long integer is refused on its own account just where a short one would be taken. -/
theorem readToken_eq_longInteger_iff {digits : Nat} :
    readToken state t = .error (.longInteger digits) ↔
      t = .longInt digits ∧ ∃ next, readToken state (.int 0) = .ok next := by
  constructor
  · intro h
    unfold readToken at h
    split at h
    case h_2 =>
      exact ⟨openValue_eq_longInteger_iff.1 h, _, readToken_firstItem (t := .int 0) nofun⟩
    case h_3 => exact ⟨openValue_eq_longInteger_iff.1 h, _, rfl⟩
    all_goals cases h
  · rintro ⟨rfl, next, h⟩
    unfold readToken at h
    split at h
    case h_2 => exact readToken_firstItem nofun
    case h_3 => rfl
    case h_12 => cases h
    all_goals contradiction

/-- Up to a whole number of so many digits, which are too many, the text is JSON: with another
number in its place it can go on to a value. -/
def BreaksOff (s : String) (digits : Nat) : Prop :=
  ∃ before later rest d, Token.tokens 0 s.toList = before ++ .longInt digits :: later ∧
    ofTokens (before ++ .int 0 :: rest) = .ok d

/-- Reading is refused for a long integer just if the text breaks off at one. -/
theorem ofJson_eq_longInteger_iff {s : String} {digits : Nat} :
    ofJson s = .error (.longInteger digits) ↔ BreaksOff s digits := by
  rw [ofJson_eq, ofTokens_eq_longInteger_iff, readTokens_eq_error_iff]
  constructor
  · rintro ⟨before, t, later, state, hsplit, hbefore, ht⟩
    obtain ⟨rfl, next, hnext⟩ := readToken_eq_longInteger_iff.1 ht
    obtain ⟨rest, d, hrest⟩ := exists_completion next
    refine ⟨before, later, rest, d, hsplit, ofTokens_eq_ok_iff.2 ?_⟩
    exact readTokens_append_eq_ok_iff.2
      ⟨state, hbefore, readTokens_cons_eq_ok_iff.2 ⟨next, hnext, hrest⟩⟩
  · rintro ⟨before, later, rest, d, hsplit, hd⟩
    obtain ⟨state, hbefore, h⟩ := readTokens_append_eq_ok_iff.1 (ofTokens_eq_ok_iff.1 hd)
    obtain ⟨next, hnext, -⟩ := readTokens_cons_eq_ok_iff.1 h
    exact ⟨before, _, later, state, hsplit, hbefore,
      readToken_eq_longInteger_iff.2 ⟨rfl, next, hnext⟩⟩

/-- A text at which reading breaks off has all the digits in a row. -/
theorem BreaksOff.exists_row {s : String} {digits : Nat} (h : BreaksOff s digits) :
    Numeral.maxDigits < digits ∧
      ∃ ds, ds <:+: s.toList ∧ ds.length = digits ∧ ∀ c ∈ ds, c.isDigit = true := by
  obtain ⟨before, later, _, _, hsplit, _⟩ := h
  have hmem : Token.longInt digits ∈ Token.tokens 0 s.toList := by simp [hsplit]
  exact Token.fits_of_mem_tokens hmem

end Data

end ChipScript
