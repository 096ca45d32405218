import ChipScript.Proofs.Grammar

/-!
# Decoding accepts the grammar

A tree without overlong integers is decoded if and only if it is a program by the grammar; the
result is the program that it stands for, and what is refused is refused for its form
(`decodes_exactly_the_grammar`).

Both halves are needed for that, and each is one pass. `Yields` goes along the decoder: whatever it
comes to, a result is what the tree stands for and a fault is one of form. The converse goes along
the grammar: what stands for something is decoded to it, wherever it is met.
-/

namespace ChipScript

theorem mem_of_lookup {α β : Type} [BEq α] [LawfulBEq α] {l : List (α × β)} {a : α} {b : β}
    (h : l.lookup a = some b) : (a, b) ∈ l := by
  obtain ⟨before, after, rfl, _⟩ := List.lookup_eq_some_iff.mp h
  simp

namespace Data

variable {members : List (String × Data)} {name : String} {d : Data} {items : List Data}

theorem member?_cons (n : String) (d : Data) (rest : List (String × Data)) (name : String) :
    member? ((n, d) :: rest) name = if n = name then some d else member? rest name := by
  rw [member?, List.lookup_cons]
  by_cases h : n = name
  · simp [h]
  · rw [beq_false_of_ne (Ne.symm h), if_neg h]
    rfl

/-- A member is smaller than its record, which is what decoding recurs on. -/
theorem sizeOf_lt_of_member? (h : member? members name = some d) :
    sizeOf d < sizeOf (record members) := by
  have hMem := List.sizeOf_lt_of_mem (mem_of_lookup h)
  simp only [Prod.mk.sizeOf_spec, record.sizeOf_spec] at hMem ⊢
  omega

theorem ItemsOf.sizeOf_lt (h : ItemsOf (member? members name) items) :
    sizeOf items < sizeOf (record members) := by
  have hMembers : 0 < sizeOf members := by
    cases members <;> simp only [List.nil.sizeOf_spec, List.cons.sizeOf_spec] <;> omega
  generalize hd : member? members name = d? at h
  cases h with
  | absent | blank =>
    simp only [List.nil.sizeOf_spec, record.sizeOf_spec]
    omega
  | list =>
    have := sizeOf_lt_of_member? hd
    simp only [list.sizeOf_spec] at this
    omega

/-- What is in a tree that can be written can be written. -/
theorem isWritable_of_member? (h : (record members).isWritable = true)
    (hd : member? members name = some d) : d.isWritable = true := by
  rw [isWritable] at h
  replace hd := mem_of_lookup hd
  induction members with
  | nil => cases hd
  | cons first rest ih =>
    rw [membersWritable, Bool.and_eq_true] at h
    obtain rfl | hd := List.mem_cons.mp hd
    · exact h.1
    · exact ih h.2 hd

theorem isWritable_cons :
    (list (d :: items)).isWritable = true ↔
      d.isWritable = true ∧ (list items).isWritable = true := by
  rw [isWritable, itemsWritable, Bool.and_eq_true, isWritable]

theorem ItemsOf.isWritable (h : ItemsOf (member? members name) items)
    (hw : (record members).isWritable = true) : (Data.list items).isWritable = true := by
  generalize hd : member? members name = d? at h
  cases h with
  | absent | blank => rfl
  | list => exact isWritable_of_member? hw hd

end Data

namespace Decode

open Data

variable {α β : Type} {number index : Nat} {path : Path} {tag name : String} {d : Data}
  {members : List (String × Data)} {items : List Data}

/-! ### Decoding in terms of members -/

/-- A required expression is decoded like any other, below the name of its member. -/
theorem expressionAt_eq (tag : String) (path : Path) (name : String)
    (members : List (String × Data)) :
    expressionAt tag path name members =
      match member? members name with
      | some d => expression (path ++ [.member name]) d
      | none => .error ⟨path, .missingMember name tag⟩ := by
  induction members with
  | nil => rfl
  | cons first rest ih =>
    obtain ⟨n, d⟩ := first
    rw [expressionAt, ih, member?_cons]
    split <;> rfl

theorem bodyAt_eq (number : Nat) (path : Path) (members : List (String × Data)) :
    bodyAt number path members =
      block number (path ++ [.member "body"]) (optionalMember members "body") := by
  induction members with
  | nil => rfl
  | cons first rest ih =>
    obtain ⟨n, d⟩ := first
    rw [bodyAt, ih, optionalMember, optionalMember, member?_cons]
    by_cases hn : n = "body"
    · subst hn
      by_cases hd : d.isBlank = true <;> simp [hd, block, entries]
    · simp [hn]

/-- Without an else part no block is decoded for it. -/
theorem otherwiseAt_of_noElse (h : NoElse members) :
    otherwiseAt number path members = pure none := by
  induction members with
  | nil => rfl
  | cons first rest ih =>
    obtain ⟨n, d⟩ := first
    rw [NoElse, member?_cons] at h
    rw [otherwiseAt.eq_def]
    by_cases hn : n = "else_body"
    · rw [if_pos hn] at h
      obtain h | h := h <;> cases h
      exact if_pos hn
    · rw [if_neg hn] at h
      exact (if_neg hn).trans (ih h)

theorem otherwiseAt_of_ne_null (h : member? members "else_body" = some d) (hd : d ≠ .null) :
    otherwiseAt number path members =
      (do return some (← block number (path ++ [.member "else_body"]) d)) := by
  induction members with
  | nil => cases h
  | cons first rest ih =>
    obtain ⟨n, first⟩ := first
    rw [member?_cons] at h
    rw [otherwiseAt.eq_def]
    by_cases hn : n = "else_body"
    · subst hn
      cases h
      refine (if_pos rfl).trans ?_
      cases d <;> first | rfl | contradiction
    · rw [if_neg hn] at h
      exact (if_neg hn).trans (ih h)

/-- An entry that is no record is passed over. -/
theorem entries_of_not_record {rest : List Data} (hd : d.isRecord = false)
    (hw : d.isWritable = true) :
    (entries number path index (d :: rest)).outcome =
      (entries number path (index + 1) rest).outcome := by
  cases d with
  | record => cases hd
  | _ =>
    simp only [entries, hw, if_true]
    rfl

/-- An optional list is that of its member, and empty if the member counts as absent. -/
theorem optionalMember_eq_list_iff :
    optionalMember members name = .list items ↔ ItemsOf (member? members name) items := by
  rw [optionalMember]
  constructor
  · intro h
    split at h
    case h_1 d hd =>
      rw [hd]
      split at h
      case isTrue hBlank => cases h; exact .blank hBlank
      case isFalse => cases h; exact .list items
    case h_2 hd => cases h; rw [hd]; exact .absent
  · generalize member? members name = d?
    rintro (_ | hBlank | _)
    · rfl
    · exact if_pos hBlank
    · cases items <;> rfl

/-! ### Outcomes -/

theorem ok_bind (a : α) (f : α → Except LocatedFault β) : (Except.ok a >>= f) = f a := rfl

/-- What is told while decoding does not change what comes of it. -/
theorem Decoded.outcome_bind (x : Decoded α) (f : α → Decoded β) :
    (x >>= f).outcome = x.outcome >>= fun a => (f a).outcome := by
  obtain ⟨outcome, trace⟩ := x
  cases outcome <;> rfl

theorem Decoded.silent_ok_bind (a : α) (f : α → Decoded β) :
    (Decoded.silent (.ok a) >>= f) = f a := rfl

/-- A result, if there is one, has a property; a fault, if there is one, is a fault of form. -/
def Yields (Q : α → Prop) : Except LocatedFault α → Prop
  | .ok a => Q a
  | .error e => e.fault ≠ .longInteger

/-- What is yielded in sequence is yielded in the end. -/
theorem Yields.bind {P : α → Prop} {Q : β → Prop} {x : Except LocatedFault α}
    {f : α → Except LocatedFault β} (hx : Yields P x) (hf : ∀ a, P a → Yields Q (f a)) :
    Yields Q (x >>= f) := by
  cases x with
  | ok a => exact hf a hx
  | error e => exact hx

theorem Yields.imp {P Q : α → Prop} {x : Except LocatedFault α} (hx : Yields P x)
    (h : ∀ a, P a → Q a) : Yields Q x := by
  cases x with
  | ok a => exact h a hx
  | error e => exact hx

theorem Yields.bind_outcome {P : α → Prop} {Q : β → Prop} {x : Decoded α} {f : α → Decoded β}
    (hx : Yields P x.outcome) (hf : ∀ a, P a → Yields Q (f a).outcome) :
    Yields Q (x >>= f).outcome := by
  rw [Decoded.outcome_bind]
  exact hx.bind hf

/-- A tag that was found is the tag of the record. -/
theorem yields_tagOf : Yields (Tagged members) (tagOf members path) := by
  rw [tagOf]
  split
  · assumption
  · nofun

/-- A required text is the text of its member. -/
theorem yields_requiredText (hw : (record members).isWritable = true) :
    Yields (fun s => ∃ d, member? members name = some d ∧ s = d.toText)
      (requiredText members tag path name) := by
  rw [requiredText]
  split
  case h_1 d hd =>
    rw [written, if_pos (isWritable_of_member? hw hd)]
    exact ⟨d, hd, rfl⟩
  case h_2 => nofun

theorem optionalText_eq (path : Path) (default : String) {d? : Option Data}
    (hw : ∀ d, d? = some d → d.isWritable = true) :
    optionalText path default d? = .ok (textOr default d?) := by
  cases d? with
  | none => rfl
  | some d => exact if_pos (hw d rfl)

theorem isWritable_of_comment? (hw : (record members).isWritable = true)
    (hd : comment? members = some d) : d.isWritable = true := by
  obtain hd | ⟨_, hd⟩ := Option.or_eq_some_iff.mp hd
  · exact isWritable_of_member? hw hd
  · exact isWritable_of_member? hw hd

theorem yields_nameOf {e : Expr} : Yields (fun name => e = .name name) (nameOf path e) := by
  cases e <;> first | rfl | nofun

/-! ### Tags -/

def ExprTag.word : ExprTag → String
  | .number => "number"
  | .text => "string"
  | .name => "identifier"
  | .keyword => "keyword"
  | .binary group => group.tag
  | .increment fixity => fixity.tag

theorem ExprTag.lookup_word (t : ExprTag) : table.lookup t.word = some t := by
  rcases t with _ | _ | _ | _ | group | fixity
  case binary => cases group <;> rfl
  case increment => cases fixity <;> rfl
  all_goals rfl

/-- The tags of expressions are their words. -/
theorem ExprTag.eq_word_of_lookup {t : ExprTag} (h : table.lookup tag = some t) : tag = t.word := by
  have hTable : ∀ entry ∈ table, entry.1 = entry.2.word := by decide
  exact hTable _ (mem_of_lookup h)

def StmtTag.word : StmtTag → String
  | .assign => "assign"
  | .goto => "goto"
  | .branch => "if"
  | .comment => "comment"
  | .increment fixity => fixity.tag

theorem StmtTag.lookup_word (t : StmtTag) : table.lookup t.word = some t := by
  rcases t with _ | _ | _ | _ | fixity
  case increment => cases fixity <;> rfl
  all_goals rfl

/-- The tags of statements are their words. -/
theorem StmtTag.eq_word_of_lookup {t : StmtTag} (h : table.lookup tag = some t) : tag = t.word := by
  have hTable : ∀ entry ∈ table, entry.1 = entry.2.word := by decide
  exact hTable _ (mem_of_lookup h)

/-! ### What is decoded is what the tree stands for -/

theorem yields_expressionAt (tag : String) (path : Path)
    (h : ∀ d, member? members name = some d →
      Yields (DenotesExpr d) (expression (path ++ [.member name]) d)) :
    Yields (fun e => ∃ d, member? members name = some d ∧ DenotesExpr d e)
      (expressionAt tag path name members) := by
  rw [expressionAt_eq]
  split
  case h_1 d hd => exact (h d hd).imp fun _ hExpr => ⟨d, hd, hExpr⟩
  case h_2 => nofun

/-- An expression that is accepted is what the tree stands for. The induction is on the tree, with
one case for every tag. -/
theorem yields_expression (path : Path) (d : Data) (hw : d.isWritable = true) :
    Yields (DenotesExpr d) (expression path d) := by
  cases d with
  | record members =>
    have hMember (tag name : String) := yields_expressionAt tag path
      fun d hd => yields_expression (path ++ [.member name]) d (isWritable_of_member? hw hd)
    rw [expression]
    refine yields_tagOf.bind fun tag hTag => ?_
    -- The table names each tag once, so the cases are those of the grammar.
    cases hTable : ExprTag.table.lookup tag with
    | none => nofun
    | some t =>
      obtain rfl := ExprTag.eq_word_of_lookup hTable
      cases t with
      | number =>
        refine (yields_requiredText hw).bind ?_
        rintro _ ⟨d, hNum, rfl⟩
        exact .number hTag hNum
      | text =>
        refine (yields_requiredText hw).bind ?_
        rintro _ ⟨d, hStr, rfl⟩
        exact .text hTag hStr
      | name =>
        refine (yields_requiredText hw).bind ?_
        rintro _ ⟨d, hName, rfl⟩
        exact .name (.identifier hTag hName)
      | binary group =>
        refine (yields_requiredText hw).bind ?_
        rintro _ ⟨operator, hOperator, rfl⟩
        refine (hMember _ _).bind ?_
        rintro left' ⟨left, hLhs, hLeft⟩
        refine (hMember _ _).bind ?_
        rintro right' ⟨right, hRhs, hRight⟩
        exact .binary group hTag hOperator hLhs hLeft hRhs hRight
      | keyword =>
        refine (yields_requiredText hw).bind ?_
        rintro _ ⟨operator, hOperator, rfl⟩
        refine (hMember _ _).bind ?_
        rintro operand' ⟨operand, hMember, hOperand⟩
        exact .keyword hTag hOperator hMember hOperand
      | increment fixity =>
        refine (yields_requiredText hw).bind ?_
        rintro _ ⟨operator, hOperator, rfl⟩
        refine (hMember _ _).bind ?_
        rintro operand' ⟨operand, hMember, hOperand⟩
        exact .increment fixity hTag hOperator hMember hOperand
  | _ => nofun
termination_by sizeOf d
decreasing_by
  subst_vars
  exact sizeOf_lt_of_member? hd

/-- A block that is accepted is what the list stands for. -/
theorem yields_block
    (h : ∀ items, d = .list items →
      Yields (DenotesStmts items) (entries number path 0 items).outcome) :
    Yields (fun ss => ∃ items, d = .list items ∧ DenotesStmts items ss)
      (block number path d).outcome := by
  cases d with
  | list items => exact (h items rfl).imp fun ss hStmts => ⟨items, rfl, hStmts⟩
  | _ => nofun

theorem yields_optionalBlock
    (h : ∀ items, ItemsOf (member? members name) items →
      Yields (DenotesStmts items) (entries number path 0 items).outcome) :
    Yields (fun ss => ∃ items, ItemsOf (member? members name) items ∧ DenotesStmts items ss)
      (block number path (optionalMember members name)).outcome := by
  simp only [← optionalMember_eq_list_iff] at h ⊢
  exact yields_block h

/-- An else part that is accepted is what the member stands for, and none if there is none. -/
theorem yields_otherwiseAt
    (h : ∀ items, ItemsOf (member? members "else_body") items →
      Yields (DenotesStmts items)
        (entries number (path ++ [.member "else_body"]) 0 items).outcome) :
    Yields (fun otherwise? => otherwise? = none ∧ NoElse members ∨
        ∃ ss items, otherwise? = some ss ∧ member? members "else_body" = some (.list items) ∧
          DenotesStmts items ss)
      (otherwiseAt number path members).outcome := by
  by_cases hElse : NoElse members
  · rw [otherwiseAt_of_noElse hElse]
    exact .inl ⟨rfl, hElse⟩
  · obtain ⟨hNone, hNull⟩ := not_or.mp hElse
    obtain ⟨d, hd⟩ := Option.ne_none_iff_exists'.mp hNone
    rw [hd] at h hNull
    rw [otherwiseAt_of_ne_null hd (by rintro rfl; exact hNull rfl)]
    have hBlock : Yields _ (block number (path ++ [.member "else_body"]) d).outcome :=
      yields_block fun items hItems => h items (hItems ▸ .list items)
    refine hBlock.bind_outcome ?_
    rintro ss ⟨items, rfl, hStmts⟩
    exact .inr ⟨ss, items, rfl, hd, hStmts⟩

/-- A statement, once the lists of statements inside it are dealt with. -/
theorem yields_statement (number : Nat) (path : Path) (hw : (record members).isWritable = true)
    (hEntries : ∀ path name items, ItemsOf (member? members name) items →
      Yields (DenotesStmts items) (entries number path 0 items).outcome) :
    Yields (DenotesStmt (.record members)) (statement number path (.record members)).outcome := by
  have hMember (tag name : String) := yields_expressionAt tag path
    fun d hd => yields_expression (path ++ [.member name]) d (isWritable_of_member? hw hd)
  rw [statement]
  refine Yields.bind_outcome yields_tagOf fun tag hTag => ?_
  cases hTable : StmtTag.table.lookup tag with
  | none => nofun
  | some t =>
    obtain rfl := StmtTag.eq_word_of_lookup hTable
    cases t with
    | assign =>
      refine Yields.bind_outcome (hMember _ _) ?_
      rintro left ⟨target, hIdentifier, hTarget⟩
      refine Yields.bind_outcome yields_nameOf ?_
      rintro name rfl
      rw [optionalText_eq _ _ fun d hd => isWritable_of_member? hw hd, Decoded.silent_ok_bind]
      refine Yields.bind_outcome (hMember _ _) ?_
      rintro value' ⟨value, hMember, hValue⟩
      cases hTarget with
      | name hTarget => exact .assign hTag hIdentifier hTarget hMember hValue
    | goto =>
      refine Yields.bind_outcome (hMember _ _) ?_
      rintro target' ⟨target, hMember, hTarget⟩
      exact .goto hTag hMember hTarget
    | branch =>
      refine Yields.bind_outcome (hMember _ _) ?_
      rintro condition' ⟨condition, hMember, hCondition⟩
      rw [bodyAt_eq]
      refine (yields_optionalBlock (hEntries _ "body")).bind_outcome ?_
      rintro body' ⟨body, hItems, hBody⟩
      refine (yields_otherwiseAt (hEntries _ "else_body")).bind_outcome ?_
      rintro _ (⟨rfl, hElse⟩ | ⟨otherwise', otherwise, rfl, hElse, hOtherwise⟩)
      · exact .branch hTag hMember hCondition hItems hBody hElse
      · exact .branchElse hTag hMember hCondition hItems hBody hElse hOtherwise
    | comment =>
      rw [optionalText_eq _ _ fun d hd => isWritable_of_comment? hw hd]
      exact .comment hTag
    | increment fixity =>
      refine Yields.bind_outcome (yields_requiredText hw) ?_
      rintro _ ⟨operator, hOperator, rfl⟩
      refine Yields.bind_outcome (hMember _ _) ?_
      rintro operand' ⟨operand, hMember, hOperand⟩
      exact .increment fixity hTag hOperator hMember hOperand

-- The lists inside a record are smaller than the list that the record is in, so the lemma before
-- applies to the records.
/-- The entries of a list that are accepted are what the list stands for, those left out that are no
statements. -/
theorem yields_entries (number : Nat) (path : Path) (index : Nat) (items : List Data)
    (hw : (list items).isWritable = true) :
    Yields (DenotesStmts items) (entries number path index items).outcome := by
  match items with
  | [] => exact .nil
  | d :: rest =>
    obtain ⟨hd, hRest⟩ := isWritable_cons.mp hw
    have ihRest := yields_entries number path (index + 1) rest hRest
    cases d with
    | record members =>
      have hStatement := yields_statement number (path ++ [.item index]) hd
        fun path name items hItems => yields_entries number path 0 items (hItems.isWritable hd)
      rw [entries]
      refine hStatement.bind_outcome fun s hStatement => ?_
      refine ihRest.bind_outcome fun ss hStmts => ?_
      exact .cons hStatement hStmts
    | _ =>
      rw [entries_of_not_record rfl hd]
      exact ihRest.imp fun _ => .skip rfl
termination_by sizeOf items
decreasing_by
  · simp only [List.cons.sizeOf_spec]
    omega
  · have := hItems.sizeOf_lt
    subst_vars
    simp only [List.cons.sizeOf_spec]
    omega

theorem yields_syntaxFault (hw : d.isWritable = true) :
    Yields (DenotesFault d) (syntaxFault path d) := by
  cases d with
  | text message => exact .text message
  | record members =>
    rw [syntaxFault, optionalText_eq _ _ fun d hd => isWritable_of_member? hw hd]
    exact .record members
  | _ =>
    simp only [syntaxFault, hw, if_true]
    nofun

theorem yields_syntaxFaults (index : Nat) (hw : (list items).isWritable = true) :
    Yields (List.Forall₂ DenotesFault items) (syntaxFaults index items) := by
  induction items generalizing index with
  | nil => exact .nil
  | cons d rest ih =>
    obtain ⟨hd, hRest⟩ := isWritable_cons.mp hw
    refine (yields_syntaxFault hd).bind fun fault hFault => ?_
    refine (ih (index + 1) hRest).bind fun faults hFaults => ?_
    exact .cons hFault hFaults

/-- A line that is accepted is what the tree stands for. -/
theorem yields_line (number : Nat) (hw : d.isWritable = true) :
    Yields (DenotesLine d) (line number d).outcome := by
  cases d with
  | record members =>
    rw [line]
    refine (yields_optionalBlock fun items hItems =>
      yields_entries number _ 0 items (hItems.isWritable hw)).bind_outcome ?_
    rintro ss ⟨code, hCode, hStmts⟩
    split
    case h_1 errors hErrors =>
      replace hErrors := optionalMember_eq_list_iff.mp hErrors
      refine Yields.bind_outcome (yields_syntaxFaults 0 (hErrors.isWritable hw)) ?_
      intro faults hFaults
      exact .record hCode (denotesStmts_iff_forall₂.mp hStmts) hErrors hFaults
    case h_2 => nofun
  | _ => nofun

/-- Lines are what the trees stand for, or the error is one of format. -/
theorem lines_denote_or_format (number : Nat) (hw : (list items).isWritable = true) :
    match (lines number items).1 with
    | .ok ls => List.Forall₂ DenotesLine items ls
    | .error e => e.toFormatError?.isSome = true := by
  induction items generalizing number with
  | nil => exact .nil
  | cons d rest ih =>
    obtain ⟨hd, hRest⟩ := isWritable_cons.mp hw
    have hLine := yields_line number hd
    have ihRest := ih (number + 1) hRest
    rw [lines]
    cases hOutcome : (line number d).outcome with
    | error e =>
      rw [hOutcome] at hLine
      simp only [DecodeError.toFormatError?, if_neg hLine, Option.isSome_some]
    | ok l =>
      rw [hOutcome] at hLine
      cases hLines : (lines (number + 1) rest).1 with
      | error e =>
        rw [hLines] at ihRest
        simp [hLines, Except.map, ihRest]
      | ok ls =>
        rw [hLines] at ihRest
        simp only [hLines, Except.map]
        exact .cons hLine ihRest

/-! ### What stands for something is decoded to it -/

theorem tagOf_of_tagged (tag : String) (h : Tagged members tag) :
    tagOf members path = .ok tag := by
  rw [tagOf, show member? members "type" = _ from h]

/-- A member that is there is found as a required text. -/
theorem requiredText_of_member? (hw : (record members).isWritable = true)
    (h : member? members name = some d) : requiredText members tag path name = .ok d.toText := by
  simp only [requiredText, h, written, isWritable_of_member? hw h, if_true]

theorem expressionAt_of_member? (h : member? members name = some d) :
    expressionAt tag path name members = expression (path ++ [.member name]) d := by
  rw [expressionAt_eq, h]

/-- What stands for an expression is decoded to it. -/
theorem expression_of_denotes {e : Expr} (h : DenotesExpr d e) (path : Path)
    (hw : d.isWritable = true) : expression path d = .ok e := by
  induction h generalizing path with
  | number hTag hNum =>
    simp only [expression, tagOf_of_tagged (ExprTag.word .number) hTag, ok_bind,
      ExprTag.lookup_word, requiredText_of_member? hw hNum]
    rfl
  | text hTag hStr =>
    simp only [expression, tagOf_of_tagged (ExprTag.word .text) hTag, ok_bind,
      ExprTag.lookup_word, requiredText_of_member? hw hStr]
    rfl
  | name h =>
    obtain ⟨hTag, hName⟩ := h
    simp only [expression, tagOf_of_tagged (ExprTag.word .name) hTag, ok_bind,
      ExprTag.lookup_word, requiredText_of_member? hw hName]
    rfl
  | binary group hTag hOperator hLhs _ hRhs _ ihLeft ihRight =>
    simp only [expression, tagOf_of_tagged (ExprTag.word (.binary group)) hTag, ok_bind,
      ExprTag.lookup_word, requiredText_of_member? hw hOperator, expressionAt_of_member? hLhs,
      expressionAt_of_member? hRhs, ihLeft _ (isWritable_of_member? hw hLhs),
      ihRight _ (isWritable_of_member? hw hRhs)]
    rfl
  | keyword hTag hOperator hMember _ ih =>
    simp only [expression, tagOf_of_tagged (ExprTag.word .keyword) hTag, ok_bind,
      ExprTag.lookup_word, requiredText_of_member? hw hOperator, expressionAt_of_member? hMember,
      ih _ (isWritable_of_member? hw hMember)]
    rfl
  | increment fixity hTag hOperator hMember _ ih =>
    simp only [expression, tagOf_of_tagged (ExprTag.word (.increment fixity)) hTag, ok_bind,
      ExprTag.lookup_word, requiredText_of_member? hw hOperator, expressionAt_of_member? hMember,
      ih _ (isWritable_of_member? hw hMember)]
    rfl

theorem Decoded.outcome_silent (outcome : Except LocatedFault α) :
    (Decoded.silent outcome).outcome = outcome := rfl

theorem expressionAt_of_denotes {e : Expr} (hw : (record members).isWritable = true)
    (hMember : member? members name = some d) (h : DenotesExpr d e) :
    expressionAt tag path name members = .ok e := by
  rw [expressionAt_of_member? hMember]
  exact expression_of_denotes h _ (isWritable_of_member? hw hMember)

mutual

/-- What stands for a statement is decoded to it. -/
theorem statement_of_denotes {d : Data} {s : Stmt} (h : DenotesStmt d s) (number : Nat)
    (path : Path) (hw : d.isWritable = true) : (statement number path d).outcome = .ok s := by
  match h with
  | .assign hTag hIdentifier hTarget hMember hValue =>
    simp only [statement, Decoded.outcome_bind, Decoded.outcome_silent,
      tagOf_of_tagged (StmtTag.word .assign) hTag, ok_bind, StmtTag.lookup_word,
      expressionAt_of_denotes hw hIdentifier (.name hTarget), nameOf,
      optionalText_eq _ _ fun d hd => isWritable_of_member? hw hd,
      expressionAt_of_denotes hw hMember hValue]
    rfl
  | .goto hTag hMember hTarget =>
    simp only [statement, Decoded.outcome_bind, Decoded.outcome_silent,
      tagOf_of_tagged (StmtTag.word .goto) hTag, ok_bind, StmtTag.lookup_word,
      expressionAt_of_denotes hw hMember hTarget]
    rfl
  | .branch hTag hMember hCondition hItems hBody hElse =>
    simp only [statement, Decoded.outcome_bind, Decoded.outcome_silent,
      tagOf_of_tagged (StmtTag.word .branch) hTag, ok_bind, StmtTag.lookup_word,
      expressionAt_of_denotes hw hMember hCondition, bodyAt_eq,
      optionalMember_eq_list_iff.mpr hItems, block,
      entries_of_denotes hBody number _ 0 (hItems.isWritable hw),
      otherwiseAt_of_noElse hElse]
    rfl
  | .branchElse hTag hMember hCondition hItems hBody hElse hOtherwise =>
    simp only [statement, Decoded.outcome_bind, Decoded.outcome_silent,
      tagOf_of_tagged (StmtTag.word .branch) hTag, ok_bind, StmtTag.lookup_word,
      expressionAt_of_denotes hw hMember hCondition, bodyAt_eq,
      optionalMember_eq_list_iff.mpr hItems, block,
      entries_of_denotes hBody number _ 0 (hItems.isWritable hw),
      otherwiseAt_of_ne_null hElse nofun,
      entries_of_denotes hOtherwise number _ 0 (isWritable_of_member? hw hElse)]
    rfl
  | .comment hTag =>
    simp only [statement, Decoded.outcome_bind, Decoded.outcome_silent,
      tagOf_of_tagged (StmtTag.word .comment) hTag, ok_bind, StmtTag.lookup_word,
      optionalText_eq _ _ fun d hd => isWritable_of_comment? hw hd]
    rfl
  | .increment fixity hTag hOperator hMember hOperand =>
    simp only [statement, Decoded.outcome_bind, Decoded.outcome_silent,
      tagOf_of_tagged (StmtTag.word (.increment fixity)) hTag, ok_bind, StmtTag.lookup_word,
      requiredText_of_member? hw hOperator, expressionAt_of_denotes hw hMember hOperand]
    rfl

/-- What stands for a block is decoded to it. -/
theorem entries_of_denotes {items : List Data} {ss : List Stmt} (h : DenotesStmts items ss)
    (number : Nat) (path : Path) (index : Nat) (hw : (list items).isWritable = true) :
    (entries number path index items).outcome = .ok ss := by
  match h with
  | .nil => rfl
  | .skip hSkip hRest =>
    obtain ⟨hd, hItems⟩ := isWritable_cons.mp hw
    rw [entries_of_not_record hSkip hd]
    exact entries_of_denotes hRest number path (index + 1) hItems
  | .cons hStatement hRest =>
    obtain ⟨hd, hItems⟩ := isWritable_cons.mp hw
    obtain ⟨members, rfl⟩ := hStatement.exists_record
    simp only [entries, Decoded.outcome_bind, statement_of_denotes hStatement number _ hd, ok_bind,
      entries_of_denotes hRest number path (index + 1) hItems]
    rfl

end

theorem syntaxFault_of_denotes {fault : SyntaxFault} (h : DenotesFault d fault)
    (hw : d.isWritable = true) : syntaxFault path d = .ok fault := by
  obtain message | members := h
  · rfl
  · rw [syntaxFault, optionalText_eq _ _ fun d hd => isWritable_of_member? hw hd]
    rfl

theorem syntaxFaults_of_denotes {faults : List SyntaxFault}
    (h : List.Forall₂ DenotesFault items faults) (index : Nat)
    (hw : (list items).isWritable = true) : syntaxFaults index items = .ok faults := by
  induction h generalizing index with
  | nil => rfl
  | cons hFault _ ih =>
    obtain ⟨hd, hItems⟩ := isWritable_cons.mp hw
    rw [syntaxFaults, syntaxFault_of_denotes hFault hd, ok_bind, ih (index + 1) hItems]
    rfl

theorem line_of_parts {ss : List Stmt} {faults : List SyntaxFault} {code errors : List Data}
    (number : Nat) (hCode : ItemsOf (member? members "code") code)
    (hStatements : (entries number [.member "code"] 0 code).outcome = .ok ss)
    (hErrors : ItemsOf (member? members "errors") errors)
    (hFaults : syntaxFaults 0 errors = .ok faults) :
    (line number (.record members)).outcome = .ok ⟨ss, faults⟩ := by
  simp only [line, Decoded.outcome_bind, optionalMember_eq_list_iff.mpr hCode, block, hStatements,
    ok_bind, optionalMember_eq_list_iff.mpr hErrors, Decoded.outcome_silent, hFaults]
  rfl

/-- What stands for a line is decoded to it. -/
theorem line_of_denotes {l : Line} (h : DenotesLine d l) (number : Nat)
    (hw : d.isWritable = true) : (line number d).outcome = .ok l := by
  obtain ⟨hCode, hStatements, hErrors, hFaults⟩ := h
  have hStmts := denotesStmts_iff_forall₂.mpr hStatements
  exact line_of_parts number hCode (entries_of_denotes hStmts number _ 0 (hCode.isWritable hw))
    hErrors (syntaxFaults_of_denotes hFaults 0 (hErrors.isWritable hw))

theorem lines_of_denotes {ls : List Line} (h : List.Forall₂ DenotesLine items ls) (number : Nat)
    (hw : (list items).isWritable = true) : (lines number items).1 = .ok ls := by
  induction h generalizing number with
  | nil => rfl
  | cons hLine _ ih =>
    obtain ⟨hd, hItems⟩ := isWritable_cons.mp hw
    simp only [lines, line_of_denotes hLine number hd, ih (number + 1) hItems]
    rfl

end Decode

namespace Program

open Data

variable {d : Data}

/-- A program that is accepted is what the tree stands for, and a refusal is one of format. -/
theorem ofData_denotes_or_format (hw : d.isWritable = true) :
    match (ofData d).1 with
    | .ok p => DenotesProgram d p
    | .error e => e.toFormatError?.isSome = true := by
  cases d with
  | list items =>
    have hLines := Decode.lines_denote_or_format 1 hw
    rw [ofData]
    generalize Decode.lines 1 items = decoded at hLines
    obtain ⟨outcome, trace⟩ := decoded
    cases outcome with
    | ok ls => exact .lines hLines
    | error e => exact hLines
  | _ => rfl

theorem ofData_of_lines {items : List Data} {ls : List Line}
    (h : (Decode.lines 1 items).1 = .ok ls) : (ofData (.list items)).1 = .ok ⟨ls⟩ := by
  rw [ofData]
  generalize Decode.lines 1 items = decoded at h
  obtain ⟨outcome, trace⟩ := decoded
  cases h
  rfl

/-- What stands for a program is decoded to it. -/
theorem ofData_of_denotes {p : Program} (h : DenotesProgram d p) (hw : d.isWritable = true) :
    (ofData d).1 = .ok p := by
  obtain ⟨h⟩ := h
  exact ofData_of_lines (Decode.lines_of_denotes h 1 hw)

/-- A tree is accepted as a program just if it stands for it. -/
theorem ofData_eq_ok_iff {p : Program} (hw : d.isWritable = true) :
    (ofData d).1 = .ok p ↔ DenotesProgram d p := by
  refine ⟨fun h => ?_, fun h => ofData_of_denotes h hw⟩
  have hDenotes := ofData_denotes_or_format hw
  rwa [h] at hDenotes

end Program

/-- Of the trees without overlong integers, those of the grammar are decoded, to the program that
they stand for. All others are refused as ill-formed. -/
theorem decodes_exactly_the_grammar {d : Data} (hw : d.isWritable = true) :
    ((∃ p, (Program.ofData d).1 = .ok p) ↔ d.IsProgram) ∧
    (¬ d.IsProgram → ∃ e f, (Program.ofData d).1 = .error e ∧ e.toFormatError? = some f) ∧
    ∀ p, (Program.ofData d).1 = .ok p ↔ d.DenotesProgram p := by
  have hAccepted : (∃ p, (Program.ofData d).1 = .ok p) ↔ d.IsProgram := by
    simp only [Program.ofData_eq_ok_iff hw, Data.isProgram_iff_exists]
  refine ⟨hAccepted, fun h => ?_, fun p => Program.ofData_eq_ok_iff hw⟩
  have hFormat := Program.ofData_denotes_or_format hw
  cases hOutcome : (Program.ofData d).1 with
  | ok p => exact absurd (hAccepted.mp ⟨p, hOutcome⟩) h
  | error e =>
    rw [hOutcome] at hFormat
    obtain ⟨f, hf⟩ := Option.isSome_iff_exists.mp hFormat
    exact ⟨e, f, rfl, hf⟩

/-- Two lines: a branch between scraps, with an empty text for its body, and a list of errors. -/
def scrappedGate (otherwise : Data) : Data :=
  .list
    [ .record
        [ ("errors", .bool false)
        , ("code", .list
            [ .text ""
            , .record
                [ ("type", .text "if")
                , ("condition", .record [("type", .text "identifier"), ("name", .text ":open")])
                , ("body", .text "")
                , ("else_body", otherwise) ]
            , .null ]) ]
    , .record [("errors", .list [.text "bad", .record [("pos", .int 4)]])] ]

/-- What is no record is left out of an else part, but the else part itself must be a list. -/
theorem scrapped_gate_needs_list_for_else :
    (scrappedGate (.list [.bool true])).DenotesProgram
      ⟨[⟨[.branch (.name ⟨":open"⟩) [] (some [])], []⟩,
        ⟨[], [⟨"bad", .null⟩, ⟨"syntax error", .int 4⟩]⟩]⟩ ∧
    ¬ (scrappedGate (.text "")).IsProgram := by
  have hList : (scrappedGate (.list [.bool true])).isWritable = true := by decide +kernel
  have hText : (scrappedGate (.text "")).isWritable = true := by decide +kernel
  refine ⟨((decodes_exactly_the_grammar hList).2.2 _).mp rfl, fun h => ?_⟩
  obtain ⟨p, hp⟩ := (decodes_exactly_the_grammar hText).1.mpr h
  cases hp

end ChipScript
