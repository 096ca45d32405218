import ChipScript.Proofs.Decoding

/-!
# Faults are where they are said to be

The report of a program that is refused names a line, and the text of a path inside the line such as
`code[1].value.lhs`. The line is the first one that is none by the grammar, and at the end of the
path there is a tree that is at fault by itself.

`Holds` says which paths there are, what is expected at the end of each and what is there. It knows
members and items only, and counts every item of a list. `AtFault` says what can be wrong with a
tree where something is expected, whatever the trees inside it are like. Neither speaks of decoding.
`Blames` is what holds of every decoder: if it stops, it does so at a place, and what is there is at
fault (`blames_line`). Which line that is in follows from the grammar (`exists_of_lines_eq_error`).
-/

namespace ChipScript

namespace Data

/-! ### Places in a line -/

inductive NodeKind where
  | statement
  | expression

/-- The tags of the nodes of a kind, each with the members that it needs. -/
def NodeKind.needs : NodeKind → List (String × List String)
  | statement =>
    [("assign", ["identifier", "value"]), ("goto", ["expression"]), ("if", ["condition"]),
      ("comment", []), ("pre_add", ["operator", "operand"]),
      ("post_add", ["operator", "operand"])]
  | expression =>
    [("number", ["num"]), ("string", ["str"]), ("identifier", ["name"]),
      ("exp", ["operator", "lhs", "rhs"]), ("mul", ["operator", "lhs", "rhs"]),
      ("add", ["operator", "lhs", "rhs"]), ("eq", ["operator", "lhs", "rhs"]),
      ("neq", ["operator", "lhs", "rhs"]), ("keyword", ["operator", "operand"]),
      ("pre_add", ["operator", "operand"]), ("post_add", ["operator", "operand"])]

/-- The tag of a group of operators needs an operator and two sides. -/
theorem NodeKind.needs_group (group : Group) :
    expression.needs.lookup group.tag = some ["operator", "lhs", "rhs"] := by
  cases group <;> rfl

theorem NodeKind.needs_fixity (kind : NodeKind) (fixity : Fixity) :
    kind.needs.lookup fixity.tag = some ["operator", "operand"] := by
  cases kind <;> cases fixity <;> rfl

/-- What is expected at a place in a line. -/
inductive Slot where
  /-- A list of statements, or something blank. -/
  | statements
  /-- A list of statements, or null. -/
  | otherwise
  /-- A list of syntax errors, or something blank. -/
  | syntaxFaults
  | syntaxFault
  | node (kind : NodeKind)
  /-- What can be assigned to. -/
  | target

/-- What is expected of a member of a node with a tag. -/
inductive NodeKind.Expects : NodeKind → String → String → Slot → Prop where
  | target : Expects .statement "assign" "identifier" .target
  | identifier : Expects .statement "assign" "identifier" (.node .expression)
  | value : Expects .statement "assign" "value" (.node .expression)
  | expression : Expects .statement "goto" "expression" (.node .expression)
  | condition : Expects .statement "if" "condition" (.node .expression)
  | body : Expects .statement "if" "body" .statements
  | otherwise : Expects .statement "if" "else_body" .otherwise
  | left (group : Group) : Expects .expression group.tag "lhs" (.node .expression)
  | right (group : Group) : Expects .expression group.tag "rhs" (.node .expression)
  | keyword : Expects .expression "keyword" "operand" (.node .expression)
  | increment (kind : NodeKind) (fixity : Fixity) :
    Expects kind fixity.tag "operand" (.node .expression)

/-- The text of a path inside a line, what is expected at its end, and the tree that is there. -/
inductive Holds (line : Data) : String → Slot → Data → Prop where
  | code {members d} (hLine : line = .record members) (hMember : member? members "code" = some d) :
    Holds line "code" .statements d
  | errors {members d} (hLine : line = .record members)
      (hMember : member? members "errors" = some d) :
    Holds line "errors" .syntaxFaults d
  | statement {text items d} {index : Nat} (h : Holds line text .statements (.list items))
      (hItem : items[index]? = some d) (hRecord : d.isRecord = true) :
    Holds line (text ++ s!"[{index}]") (.node .statement) d
  | elseStatement {text items d} {index : Nat} (h : Holds line text .otherwise (.list items))
      (hItem : items[index]? = some d) (hRecord : d.isRecord = true) :
    Holds line (text ++ s!"[{index}]") (.node .statement) d
  | syntaxFault {text items d} {index : Nat} (h : Holds line text .syntaxFaults (.list items))
      (hItem : items[index]? = some d) :
    Holds line (text ++ s!"[{index}]") .syntaxFault d
  | member {text kind members tag name slot d}
      (h : Holds line text (.node kind) (.record members)) (hTag : Tagged members tag)
      (hExpects : kind.Expects tag name slot) (hMember : member? members name = some d) :
    Holds line (text ++ "." ++ name) slot d

def isList : Data → Bool
  | list _ => true
  | _ => false

/-- The tree is not what is expected, whatever the trees inside it are like. -/
inductive AtFault : Slot → Data → Prop where
  | statementsNotList {d} (hBlank : d.isBlank = false) (hList : d.isList = false) :
    AtFault .statements d
  | otherwiseNotList {d} (hNull : d ≠ .null) (hList : d.isList = false) : AtFault .otherwise d
  | syntaxFaultsNotList {d} (hBlank : d.isBlank = false) (hList : d.isList = false) :
    AtFault .syntaxFaults d
  | badSyntaxFault {d} (h : ¬ IsSyntaxFault d) : AtFault .syntaxFault d
  | notANode {kind d} (h : d.isRecord = false) : AtFault (.node kind) d
  | untagged {kind members} (h : ∀ tag, ¬ Tagged members tag) :
    AtFault (.node kind) (.record members)
  | unknownTag {kind members tag} (hTag : Tagged members tag)
      (h : kind.needs.lookup tag = none) :
    AtFault (.node kind) (.record members)
  | missingMember {kind members tag needed name} (hTag : Tagged members tag)
      (hNeeds : kind.needs.lookup tag = some needed) (hName : name ∈ needed)
      (h : member? members name = none) :
    AtFault (.node kind) (.record members)
  | targetNotIdentifier {members} (h : ¬ Tagged members "identifier") :
    AtFault .target (.record members)

variable {line d : Data} {text : String} {slot : Slot}

/-- A record has one tag at most. -/
theorem Tagged.unique {members : List (String × Data)} {tag tag' : String}
    (h : Tagged members tag) (h' : Tagged members tag') : tag = tag' := by
  cases Option.some.inj (h.symm.trans h')
  rfl

/-- A node with another tag than that of a name is no target. -/
theorem AtFault.target_of_tagged {members : List (String × Data)} {tag : String}
    (hTag : Tagged members tag) (hne : tag ≠ "identifier") : AtFault .target (.record members) :=
  .targetNotIdentifier fun h => hne (hTag.unique h)

/-- What stands for an expression but not for a name is no target. -/
theorem DenotesExpr.atFault_target {e : Expr} (h : DenotesExpr d e)
    (hName : ∀ name, e ≠ .name name) : AtFault .target d := by
  cases h with
  | number hTag => exact .target_of_tagged hTag (by decide)
  | text hTag => exact .target_of_tagged hTag (by decide)
  | name h => exact absurd rfl (hName _)
  | binary group hTag => exact .target_of_tagged hTag (by cases group <;> decide)
  | keyword hTag => exact .target_of_tagged hTag (by decide)
  | increment fixity hTag => exact .target_of_tagged hTag (by cases fixity <;> decide)

/-- Nothing but the line itself has an empty path. -/
theorem Holds.text_ne_empty (h : line.Holds text slot d) : text ≠ "" := by
  induction h with
  | code => decide
  | errors => decide
  | statement _ _ _ ih => simp [ih]
  | elseStatement _ _ _ ih => simp [ih]
  | syntaxFault _ _ ih => simp [ih]
  | member _ _ _ _ ih => simp [ih]

end Data

/-! ### Paths and their texts -/

/-- Paths are written from left to right. -/
theorem Path.render_item (path : Path) (index : Nat) :
    Path.render (path ++ [.item index]) = path.render ++ s!"[{index}]" := by
  simp [render, List.foldl_append]

theorem Path.render_member {path : Path} (h : path.render ≠ "") (name : String) :
    Path.render (path ++ [.member name]) = path.render ++ "." ++ name := by
  have hEmpty : path.render.isEmpty = false := by simpa using h
  rw [render, List.foldl_append, List.foldl_cons, List.foldl_nil]
  exact if_neg (ne_true_of_eq_false hEmpty)

namespace Decode

open Data

variable {α β : Type} {number : Nat} {path : Path} {tag name : String} {root d : Data}
  {members : List (String × Data)} {kind : NodeKind} {slot : Slot}

/-- What a node expects in one of its members is held where the path leads by the name of the
member. -/
theorem holds_member (h : root.Holds path.render (.node kind) (.record members))
    (hTag : Tagged members tag) (hExpects : kind.Expects tag name slot)
    (hMember : member? members name = some d) :
    root.Holds (Path.render (path ++ [.member name])) slot d := by
  rw [Path.render_member h.text_ne_empty]
  exact .member h hTag hExpects hMember

/-! ### What stops stops at a fault -/

/-- If there is a fault it is at a place in the line, and what is there is at fault. -/
def Blames (root : Data) (x : Except LocatedFault α) : Prop :=
  ∀ e, x = .error e → ∃ slot d, root.Holds e.path.render slot d ∧ AtFault slot d

theorem blames_ok (a : α) : Blames root (.ok a) := by
  rintro _ ⟨⟩

/-- An error points at a fault if its path does. -/
theorem blames_error {fault : DecodeFault} (hHolds : root.Holds path.render slot d)
    (hd : AtFault slot d) : Blames root (.error ⟨path, fault⟩ : Except LocatedFault α) := by
  rintro _ ⟨⟩
  exact ⟨slot, d, hHolds, hd⟩

/-- A sequence points at a fault if each of its parts does. -/
theorem Blames.bind {x : Except LocatedFault α} {f : α → Except LocatedFault β}
    (hx : Blames root x) (hf : ∀ a, x = .ok a → Blames root (f a)) : Blames root (x >>= f) := by
  cases x with
  | ok a => exact hf a rfl
  | error e =>
    rintro _ ⟨⟩
    exact hx e rfl

theorem Blames.bind_outcome {x : Decoded α} {f : α → Decoded β} (hx : Blames root x.outcome)
    (hf : ∀ a, x.outcome = .ok a → Blames root (f a).outcome) : Blames root (x >>= f).outcome := by
  rw [Decoded.outcome_bind]
  exact hx.bind hf

theorem Yields.of_ok {Q : α → Prop} {x : Except LocatedFault α} {a : α} (h : Yields Q x)
    (hx : x = .ok a) : Q a := by
  rwa [hx] at h

/-- A record without a tag is at fault itself. -/
theorem blames_tagOf (hHolds : root.Holds path.render (.node kind) (.record members)) :
    Blames root (tagOf members path) := by
  rw [tagOf]
  split
  case h_1 => exact blames_ok _
  case h_2 hTag =>
    exact blames_error hHolds (.untagged fun tag h => hTag tag h)

section

variable {needed : List String} (hHolds : root.Holds path.render (.node kind) (.record members))
  (hTag : Tagged members tag) (hNeeds : kind.needs.lookup tag = some needed) (hName : name ∈ needed)

include hHolds hTag hNeeds hName

/-- A required text that is missing is a fault of the record. -/
theorem blames_requiredText (hw : (record members).isWritable = true) :
    Blames root (requiredText members tag path name) := by
  rw [requiredText]
  split
  case h_1 d hd =>
    rw [written, if_pos (isWritable_of_member? hw hd)]
    exact blames_ok _
  case h_2 hd => exact blames_error hHolds (.missingMember hTag hNeeds hName hd)

/-- A required expression is at fault if it is missing or refused. -/
theorem blames_expressionAt
    (h : ∀ d, member? members name = some d →
      Blames root (expression (path ++ [.member name]) d)) :
    Blames root (expressionAt tag path name members) := by
  rw [expressionAt_eq]
  split
  case h_1 d hd => exact h d hd
  case h_2 hd => exact blames_error hHolds (.missingMember hTag hNeeds hName hd)

end

theorem lookup_eq_none_iff_not_mem_keys {l : List (String × α)} :
    l.lookup tag = none ↔ tag ∉ l.map Prod.fst := by
  rw [List.lookup_eq_none_iff, List.mem_map]
  grind

/-- A tag that one table does not have another with the same tags does not have. -/
theorem lookup_eq_none_of_keys {l : List (String × α)} {l' : List (String × β)}
    (hl : l.lookup tag = none) (h : l.map Prod.fst = l'.map Prod.fst) : l'.lookup tag = none := by
  rw [lookup_eq_none_iff_not_mem_keys] at hl ⊢
  rwa [← h]

/-- A refused expression is at fault where the error points, at whatever depth that is. -/
theorem blames_expression (path : Path) (d : Data)
    (hHolds : root.Holds path.render (.node .expression) d) (hw : d.isWritable = true) :
    Blames root (expression path d) := by
  cases d with
  | record members =>
    rw [expression]
    refine (blames_tagOf hHolds).bind fun tag hTagOf => ?_
    have hTag : Tagged members tag := yields_tagOf.of_ok hTagOf
    have hMember {name : String} (hExpects : NodeKind.expression.Expects tag name _) (d : Data)
        (hd : member? members name = some d) :
        Blames root (expression (path ++ [.member name]) d) :=
      blames_expression (path ++ [.member name]) d (holds_member hHolds hTag hExpects hd)
        (isWritable_of_member? hw hd)
    cases hTable : ExprTag.table.lookup tag with
    | none => exact blames_error hHolds (.unknownTag hTag (lookup_eq_none_of_keys hTable rfl))
    | some t =>
      obtain rfl := ExprTag.eq_word_of_lookup hTable
      cases t with
      | number | text | name =>
        refine (blames_requiredText hHolds hTag rfl (by simp) hw).bind fun _ _ => ?_
        exact blames_ok _
      | binary group =>
        have hNeeds := NodeKind.needs_group group
        refine (blames_requiredText hHolds hTag hNeeds (by simp) hw).bind fun _ _ => ?_
        refine (blames_expressionAt hHolds hTag hNeeds (by simp) (hMember (.left group))).bind ?_
        intro _ _
        refine (blames_expressionAt hHolds hTag hNeeds (by simp) (hMember (.right group))).bind ?_
        exact fun _ _ => blames_ok _
      | keyword =>
        refine (blames_requiredText hHolds hTag rfl (by simp) hw).bind fun _ _ => ?_
        refine (blames_expressionAt hHolds hTag rfl (by simp) (hMember .keyword)).bind ?_
        exact fun _ _ => blames_ok _
      | increment fixity =>
        have hNeeds := NodeKind.needs_fixity .expression fixity
        refine (blames_requiredText hHolds hTag hNeeds (by simp) hw).bind fun _ _ => ?_
        refine (blames_expressionAt hHolds hTag hNeeds (by simp)
          (hMember (.increment _ fixity))).bind ?_
        exact fun _ _ => blames_ok _
  | _ => exact blames_error hHolds (.notANode rfl)
termination_by sizeOf d
decreasing_by
  subst_vars
  exact sizeOf_lt_of_member? hd

/-- An expression that is no name is at fault as a target. -/
theorem blames_nameOf {e : Expr} (hHolds : root.Holds path.render .target d)
    (h : DenotesExpr d e) : Blames root (nameOf path e) := by
  cases e with
  | name name => exact blames_ok name
  | _ => exact blames_error hHolds (h.atFault_target (by rintro _ ⟨⟩))

/-- The records among some items are where statements are expected. -/
def HoldsStatements (root : Data) (path : Path) (index : Nat) (items : List Data) : Prop :=
  ∀ i d, items[i]? = some d → d.isRecord = true →
    root.Holds (Path.render (path ++ [.item (index + i)])) (.node .statement) d

/-- An optional list has no items, or it is the member and that is not blank. -/
theorem optionalMember_cases (members : List (String × Data)) (name : String) :
    optionalMember members name = .list [] ∨
      ∃ d, member? members name = some d ∧ d.isBlank = false ∧
        optionalMember members name = d := by
  rw [optionalMember]
  cases member? members name with
  | none => exact .inl rfl
  | some d =>
    cases hBlank : d.isBlank with
    | true => exact .inl (if_pos hBlank)
    | false => exact .inr ⟨d, rfl, hBlank, if_neg (ne_true_of_eq_false hBlank)⟩

theorem blames_optionalBlock
    (hHolds : ∀ d, member? members name = some d → root.Holds path.render .statements d)
    (hEntries : ∀ items, member? members name = some (.list items) →
      HoldsStatements root path 0 items → Blames root (entries number path 0 items).outcome) :
    Blames root (block number path (optionalMember members name)).outcome := by
  rcases optionalMember_cases members name with hNone | ⟨d, hd, hBlank, hMember⟩
  · rw [hNone]
    exact blames_ok _
  · rw [hMember]
    cases d with
    | list items =>
      refine hEntries items hd fun i d hItem hRecord => ?_
      rw [Path.render_item, Nat.zero_add]
      exact .statement (hHolds _ hd) hItem hRecord
    | _ => exact blames_error (hHolds _ hd) (.statementsNotList hBlank rfl)

theorem blames_otherwiseAt
    (hHolds : ∀ d, member? members "else_body" = some d →
      root.Holds (Path.render (path ++ [.member "else_body"])) .otherwise d)
    (hEntries : ∀ items, member? members "else_body" = some (.list items) →
      HoldsStatements root (path ++ [.member "else_body"]) 0 items →
        Blames root (entries number (path ++ [.member "else_body"]) 0 items).outcome) :
    Blames root (otherwiseAt number path members).outcome := by
  by_cases hElse : NoElse members
  · rw [otherwiseAt_of_noElse hElse]
    exact blames_ok none
  · obtain ⟨hNone, hNull⟩ := not_or.mp hElse
    obtain ⟨d, hd⟩ := Option.ne_none_iff_exists'.mp hNone
    have hd' : d ≠ .null := by
      rintro rfl
      exact hNull hd
    rw [otherwiseAt_of_ne_null hd hd']
    refine Blames.bind_outcome ?_ fun ss _ => blames_ok (some ss)
    cases d with
    | list items =>
      refine hEntries items hd fun i d hItem hRecord => ?_
      rw [Path.render_item, Nat.zero_add]
      exact .elseStatement (hHolds _ hd) hItem hRecord
    | _ => exact blames_error (hHolds _ hd) (.otherwiseNotList hd' rfl)

/-- A statement, once the lists of statements inside it are dealt with. -/
theorem blames_statement (number : Nat)
    (hHolds : root.Holds path.render (.node .statement) (.record members))
    (hw : (record members).isWritable = true)
    (hEntries : ∀ path name items, member? members name = some (.list items) →
      HoldsStatements root path 0 items → Blames root (entries number path 0 items).outcome) :
    Blames root (statement number path (.record members)).outcome := by
  rw [statement]
  refine Blames.bind_outcome (blames_tagOf hHolds) fun tag hTagOf => ?_
  have hTag : Tagged members tag := yields_tagOf.of_ok hTagOf
  have hMember {name : String} (hExpects : NodeKind.statement.Expects tag name _) (d : Data)
      (hd : member? members name = some d) :
      Blames root (expression (path ++ [.member name]) d) :=
    blames_expression (path ++ [.member name]) d (holds_member hHolds hTag hExpects hd)
      (isWritable_of_member? hw hd)
  cases hTable : StmtTag.table.lookup tag with
  | none => exact blames_error hHolds (.unknownTag hTag (lookup_eq_none_of_keys hTable rfl))
  | some t =>
    obtain rfl := StmtTag.eq_word_of_lookup hTable
    cases t with
    | assign =>
      refine Blames.bind_outcome
        (blames_expressionAt hHolds hTag rfl (by simp) (hMember .identifier)) fun left hLeft => ?_
      have hTarget := yields_expressionAt "assign" path fun d hd =>
        yields_expression (path ++ [.member "identifier"]) d (isWritable_of_member? hw hd)
      obtain ⟨target, hIdentifier, hDenotes⟩ := hTarget.of_ok hLeft
      refine Blames.bind_outcome
        (blames_nameOf (holds_member hHolds hTag .target hIdentifier) hDenotes) fun _ _ => ?_
      rw [optionalText_eq _ _ fun d hd => isWritable_of_member? hw hd, Decoded.silent_ok_bind]
      refine Blames.bind_outcome
        (blames_expressionAt hHolds hTag rfl (by simp) (hMember .value)) fun _ _ => ?_
      exact blames_ok _
    | goto =>
      refine Blames.bind_outcome
        (blames_expressionAt hHolds hTag rfl (by simp) (hMember .expression)) fun _ _ => ?_
      exact blames_ok _
    | branch =>
      refine Blames.bind_outcome
        (blames_expressionAt hHolds hTag rfl (by simp) (hMember .condition)) fun _ _ => ?_
      rw [bodyAt_eq]
      have hBody := blames_optionalBlock (fun d hd => holds_member hHolds hTag .body hd)
        (hEntries _ "body")
      have hOtherwise := blames_otherwiseAt (fun d hd => holds_member hHolds hTag .otherwise hd)
        (hEntries _ "else_body")
      refine hBody.bind_outcome fun _ _ => hOtherwise.bind_outcome fun _ _ => ?_
      exact blames_ok _
    | comment =>
      rw [optionalText_eq _ _ fun d hd => isWritable_of_comment? hw hd]
      exact blames_ok _
    | increment fixity =>
      have hNeeds := NodeKind.needs_fixity .statement fixity
      refine Blames.bind_outcome
        (blames_requiredText hHolds hTag hNeeds (by simp) hw) fun _ _ => ?_
      refine Blames.bind_outcome (blames_expressionAt hHolds hTag hNeeds (by simp)
        (hMember (.increment _ fixity))) fun _ _ => ?_
      exact blames_ok _

/-- A refused entry of a block is at fault where the error points. -/
theorem blames_entries (number : Nat) (path : Path) (index : Nat) (items : List Data)
    (hHolds : HoldsStatements root path index items) (hw : (list items).isWritable = true) :
    Blames root (entries number path index items).outcome := by
  match items with
  | [] => exact blames_ok _
  | d :: rest =>
    obtain ⟨hd, hRest⟩ := isWritable_cons.mp hw
    -- Entries that are skipped are counted too.
    have hHoldsRest : HoldsStatements root path (index + 1) rest := by
      intro i d hItem hRecord
      rw [Nat.add_right_comm]
      exact hHolds (i + 1) d hItem hRecord
    have ihRest := blames_entries number path (index + 1) rest hHoldsRest hRest
    cases d with
    | record members =>
      have hStatement := blames_statement number (hHolds 0 _ rfl rfl) hd
        fun path name items hItems hHolds =>
          blames_entries number path 0 items hHolds (isWritable_of_member? hd hItems)
      rw [entries]
      refine hStatement.bind_outcome fun _ _ => ihRest.bind_outcome fun _ _ => ?_
      exact blames_ok _
    | _ =>
      rw [entries_of_not_record rfl hd]
      exact ihRest
termination_by sizeOf items
decreasing_by
  · simp only [List.cons.sizeOf_spec]
    omega
  · have := sizeOf_lt_of_member? hItems
    subst_vars
    simp only [List.cons.sizeOf_spec, list.sizeOf_spec] at *
    omega

theorem blames_syntaxFault (hHolds : root.Holds path.render .syntaxFault d)
    (hw : d.isWritable = true) : Blames root (syntaxFault path d) := by
  cases d with
  | text message => exact blames_ok _
  | record members =>
    rw [syntaxFault, optionalText_eq _ _ fun d hd => isWritable_of_member? hw hd]
    exact blames_ok _
  | _ => exact blames_error hHolds (.badSyntaxFault (by rintro ⟨⟩))

/-- A refused entry of the faults of a line is at fault where the error points. -/
theorem blames_syntaxFaults (index : Nat) {items : List Data}
    (hHolds : ∀ i d, items[i]? = some d →
      root.Holds (Path.render [.member "errors", .item (index + i)]) .syntaxFault d)
    (hw : (list items).isWritable = true) : Blames root (syntaxFaults index items) := by
  induction items generalizing index with
  | nil => exact blames_ok _
  | cons d rest ih =>
    obtain ⟨hd, hRest⟩ := isWritable_cons.mp hw
    have hHoldsRest (i : Nat) (d : Data) (hItem : rest[i]? = some d) :
        root.Holds (Path.render [.member "errors", .item (index + 1 + i)]) .syntaxFault d := by
      rw [Nat.add_right_comm]
      exact hHolds (i + 1) d hItem
    refine (blames_syntaxFault (hHolds 0 d rfl) hd).bind fun _ _ => ?_
    refine (ih (index + 1) hHoldsRest hRest).bind fun _ _ => ?_
    exact blames_ok _

/-- A refused line holds a fault where the error points. -/
theorem blames_line (number : Nat) (hw : (record members).isWritable = true) :
    Blames (.record members) (line number (.record members)).outcome := by
  rw [line]
  have hCode : Blames (.record members)
      (block number [.member "code"] (optionalMember members "code")).outcome :=
    blames_optionalBlock (fun d hd => .code rfl hd) fun items hItems hHolds =>
      blames_entries number _ 0 items hHolds (isWritable_of_member? hw hItems)
  refine hCode.bind_outcome fun _ _ => ?_
  rcases optionalMember_cases members "errors" with hNone | ⟨d, hd, hBlank, hMember⟩
  · rw [hNone]
    exact blames_ok _
  · rw [hMember]
    cases d with
    | list items =>
      refine Blames.bind_outcome (blames_syntaxFaults 0 ?_ (isWritable_of_member? hw hd)) ?_
      · intro i d hItem
        have hText := Path.render_item [.member "errors"] i
        rw [Nat.zero_add]
        exact hText ▸ .syntaxFault (.errors rfl hd) hItem
      · exact fun _ _ => blames_ok _
    | _ => exact blames_error (.errors rfl hd) (.syntaxFaultsNotList hBlank rfl)

/-- Decoding stops at the first tree that is no line. -/
theorem exists_of_lines_eq_error {items : List Data} {e : DecodeError}
    (hw : (list items).isWritable = true) (h : (lines number items).1 = .error e) :
    ∃ n d located, items[n]? = some d ∧ d.isWritable = true ∧
      (line (number + n) d).outcome = .error located ∧ e = .line (number + n) located ∧
      ∀ d' ∈ items.take n, d'.IsLine := by
  induction items generalizing number with
  | nil => cases h
  | cons first rest ih =>
    obtain ⟨hFirst, hRest⟩ := isWritable_cons.mp hw
    rw [lines] at h
    cases hOutcome : (line number first).outcome with
    | error located =>
      simp only [hOutcome] at h
      cases h
      exact ⟨0, first, located, rfl, hFirst, hOutcome, rfl, by simp⟩
    | ok l =>
      simp only [hOutcome] at h
      have hLine : first.IsLine :=
        isLine_iff_exists.mpr ⟨l, (yields_line number hFirst).of_ok hOutcome⟩
      cases hLines : (lines (number + 1) rest).1 with
      | ok ls =>
        rw [hLines] at h
        cases h
      | error e' =>
        rw [hLines] at h
        cases h
        obtain ⟨n, d, located, hItem, hd, hStop, hError, hBefore⟩ := ih hRest hLines
        rw [Nat.add_right_comm] at hStop hError
        refine ⟨n + 1, d, located, hItem, hd, hStop, hError, ?_⟩
        rw [List.take_succ_cons]
        exact List.forall_mem_cons.mpr ⟨hLine, hBefore⟩

end Decode

open Data Decode

theorem Program.lines_eq_error_of_ofData {items : List Data} {e : DecodeError}
    (h : (ofData (.list items)).1 = .error e) : (Decode.lines 1 items).1 = .error e := by
  rw [ofData] at h
  generalize Decode.lines 1 items = decoded at h
  obtain ⟨outcome, trace⟩ := decoded
  cases outcome with
  | ok ls => cases h
  | error e' =>
    cases h
    rfl

/-- If a list without overlong integers is refused as a program, the report names the first item
that is no line. If that item is no record the report has no path. If it is one, the report has the
text of a path that leads by members and items to a tree in it, and that tree is at fault. -/
theorem refusal_points_at_fault {items : List Data} {e : DecodeError}
    (hw : (Data.list items).isWritable = true)
    (h : (Program.ofData (.list items)).1 = .error e) :
    ∃ (n : Nat) (d : Data) (f : FormatError), items[n]? = some d ∧
      e.toFormatError? = some f ∧ f.line = some ((n : Int) + 1) ∧
      ¬ d.IsLine ∧ (∀ d' ∈ items.take n, d'.IsLine) ∧
      (d.isRecord = false → f.path = none) ∧
      (d.isRecord = true → ∃ text slot sub, f.path = some text ∧ d.Holds text slot sub ∧
        AtFault slot sub) := by
  obtain ⟨n, d, located, hItem, hd, hStop, rfl, hBefore⟩ :=
    exists_of_lines_eq_error hw (Program.lines_eq_error_of_ofData h)
  have hFormat : located.fault ≠ .longInteger := by
    have hYields := yields_line (1 + n) hd
    rwa [hStop] at hYields
  refine ⟨n, d, _, hItem, if_neg hFormat, ?_, ?_, hBefore, ?_, ?_⟩
  · simp [Nat.add_comm]
  · intro hLine
    obtain ⟨l, hDenotes⟩ := isLine_iff_exists.mp hLine
    rw [line_of_denotes hDenotes (1 + n) hd] at hStop
    cases hStop
  · intro hRecord
    cases d with
    | record => cases hRecord
    | _ =>
      cases hStop
      rfl
  · intro hRecord
    cases d with
    | record members =>
      obtain ⟨slot, sub, hHolds, hFault⟩ := blames_line (1 + n) hd located hStop
      refine ⟨located.path.render, slot, sub, ?_, hHolds, hFault⟩
      have hPath : located.path ≠ [] := by
        intro hNil
        exact hHolds.text_ne_empty (by rw [hNil]; rfl)
      simp [hPath]
    | _ => cases hRecord

/-- A good line, a line with an unknown node in a sum behind a scrap, and a line that is none. -/
def brokenSum : List Data :=
  [ .record [("errors", .list [.text "bad"])]
  , .record
      [ ("code", .list
          [ .null
          , .record
              [ ("type", .text "assign")
              , ("identifier", .record [("type", .text "identifier"), ("name", .text "x")])
              , ("value", .record
                  [ ("type", .text "add")
                  , ("operator", .text "+")
                  , ("lhs", .record [("type", .text "call")])
                  , ("rhs", .record [("type", .text "number"), ("num", .int 1)]) ]) ] ]) ]
  , .text "" ]

/-- The report names the second line and, with the scrap counted, the left side of the sum. -/
theorem broken_sum_points_at_left_side :
    ∃ e f d slot sub, (Program.ofData (.list brokenSum)).1 = .error e ∧
      e.toFormatError? = some f ∧ f.line = some 2 ∧ f.path = some "code[1].value.lhs" ∧
      brokenSum[1]? = some d ∧ ¬ d.IsLine ∧ d.Holds "code[1].value.lhs" slot sub ∧
      AtFault slot sub := by
  have hw : (Data.list brokenSum).isWritable = true := by decide +kernel
  have hError : (Program.ofData (.list brokenSum)).1 = .error (.line 2
      ⟨[.member "code", .item 1, .member "value", .member "lhs"], .unknownExpression "call"⟩) := rfl
  obtain ⟨n, d, f, hItem, hf, hLine, hNot, _, _, hPath⟩ := refusal_points_at_fault hw hError
  cases hf
  obtain rfl : n = 1 := by
    have hn : (2 : Int) = n + 1 := Option.some.inj hLine
    omega
  obtain rfl : _ = d := Option.some.inj hItem
  obtain ⟨text, slot, sub, htext, hHolds, hFault⟩ := hPath rfl
  obtain rfl : _ = text := Option.some.inj htext
  exact ⟨_, _, _, slot, sub, hError, rfl, rfl, rfl, rfl, hNot, hHolds, hFault⟩

end ChipScript
