import ChipScript.Program.Decode
import Mathlib.Data.List.Forall2

/-!
# The grammar of programs

Which trees are programs, and which program such a tree stands for. Neither speaks of decoding:
`IsExpression`, `IsStatement`, `IsLine` and `IsProgram` give the form of a tree, `DenotesExpr`,
`DenotesStmt`, `DenotesLine` and `DenotesProgram` relate a tree of that form to its meaning. The
trees that have a meaning are those of the grammar (`isProgram_iff_exists`).

The grammar is lenient in some places only. A list of statements or syntax errors may be left out or
be anything blank, but an else part must be a list unless it is left out or null. What is no record
is skipped among statements, and nowhere else. A text may be given as any tree.
-/

namespace ChipScript

/-- The tag of an increment. -/
def Fixity.tag : Fixity → String
  | pre => "pre_add"
  | post => "post_add"

namespace Data

def isRecord : Data → Bool
  | record _ => true
  | _ => false

/-- The members make up a node with a given tag. -/
def Tagged (members : List (String × Data)) (tag : String) : Prop :=
  member? members "type" = some (.text tag)

/-- The items of an optional list, which may be absent or blank and then has none. -/
inductive ItemsOf : Option Data → List Data → Prop where
  | absent : ItemsOf none []
  | blank {d : Data} (h : d.isBlank = true) : ItemsOf (some d) []
  | list (items : List Data) : ItemsOf (some (.list items)) items

/-- There is no else part if it is absent or null. -/
def NoElse (members : List (String × Data)) : Prop :=
  member? members "else_body" = none ∨ member? members "else_body" = some .null

/-! ### Trees that are programs -/

inductive IsName : Data → Prop where
  | identifier {members d} (hTag : Tagged members "identifier")
      (hName : member? members "name" = some d) :
    IsName (.record members)

inductive IsExpression : Data → Prop where
  | number {members d} (hTag : Tagged members "number") (hNum : member? members "num" = some d) :
    IsExpression (.record members)
  | text {members d} (hTag : Tagged members "string") (hStr : member? members "str" = some d) :
    IsExpression (.record members)
  | name {d} (h : IsName d) : IsExpression d
  | binary {members operator left right} (group : Group) (hTag : Tagged members group.tag)
      (hOperator : member? members "operator" = some operator)
      (hLhs : member? members "lhs" = some left) (hLeft : IsExpression left)
      (hRhs : member? members "rhs" = some right) (hRight : IsExpression right) :
    IsExpression (.record members)
  | keyword {members operator operand} (hTag : Tagged members "keyword")
      (hOperator : member? members "operator" = some operator)
      (hMember : member? members "operand" = some operand) (hOperand : IsExpression operand) :
    IsExpression (.record members)
  | increment {members operator operand} (fixity : Fixity) (hTag : Tagged members fixity.tag)
      (hOperator : member? members "operator" = some operator)
      (hMember : member? members "operand" = some operand) (hOperand : IsExpression operand) :
    IsExpression (.record members)

mutual

inductive IsStatement : Data → Prop where
  | assign {members target value} (hTag : Tagged members "assign")
      (hIdentifier : member? members "identifier" = some target) (hTarget : IsName target)
      (hMember : member? members "value" = some value) (hValue : IsExpression value) :
    IsStatement (.record members)
  | goto {members target} (hTag : Tagged members "goto")
      (hMember : member? members "expression" = some target) (hTarget : IsExpression target) :
    IsStatement (.record members)
  | branch {members condition body} (hTag : Tagged members "if")
      (hMember : member? members "condition" = some condition)
      (hCondition : IsExpression condition)
      (hItems : ItemsOf (member? members "body") body) (hBody : IsStatements body)
      (hElse : NoElse members) :
    IsStatement (.record members)
  | branchElse {members condition body otherwise} (hTag : Tagged members "if")
      (hMember : member? members "condition" = some condition)
      (hCondition : IsExpression condition)
      (hItems : ItemsOf (member? members "body") body) (hBody : IsStatements body)
      (hElse : member? members "else_body" = some (.list otherwise))
      (hOtherwise : IsStatements otherwise) :
    IsStatement (.record members)
  | comment {members} (hTag : Tagged members "comment") : IsStatement (.record members)
  | increment {members operator operand} (fixity : Fixity) (hTag : Tagged members fixity.tag)
      (hOperator : member? members "operator" = some operator)
      (hMember : member? members "operand" = some operand) (hOperand : IsExpression operand) :
    IsStatement (.record members)

/-- The records among the trees are statements. -/
inductive IsStatements : List Data → Prop where
  | nil : IsStatements []
  | skip {d items} (hSkip : d.isRecord = false) (hRest : IsStatements items) :
    IsStatements (d :: items)
  | cons {d items} (hStatement : IsStatement d) (hRest : IsStatements items) :
    IsStatements (d :: items)

end

inductive IsSyntaxFault : Data → Prop where
  | text (message : String) : IsSyntaxFault (.text message)
  | record (members : List (String × Data)) : IsSyntaxFault (.record members)

inductive IsLine : Data → Prop where
  | record {members code errors} (hCode : ItemsOf (member? members "code") code)
      (hStatements : IsStatements code)
      (hErrors : ItemsOf (member? members "errors") errors)
      (hFaults : ∀ d ∈ errors, IsSyntaxFault d) :
    IsLine (.record members)

/-- The tree is a program. -/
inductive IsProgram : Data → Prop where
  | lines {items} (h : ∀ d ∈ items, IsLine d) : IsProgram (.list items)

/-! ### What the trees stand for -/

inductive DenotesName : Data → Name → Prop where
  | identifier {members d} (hTag : Tagged members "identifier")
      (hName : member? members "name" = some d) :
    DenotesName (.record members) ⟨d.toText⟩

inductive DenotesExpr : Data → Expr → Prop where
  | number {members d} (hTag : Tagged members "number") (hNum : member? members "num" = some d) :
    DenotesExpr (.record members) (.number d.toText)
  | text {members d} (hTag : Tagged members "string") (hStr : member? members "str" = some d) :
    DenotesExpr (.record members) (.text d.toText)
  | name {d name} (h : DenotesName d name) : DenotesExpr d (.name name)
  | binary {members operator left right left' right'} (group : Group)
      (hTag : Tagged members group.tag)
      (hOperator : member? members "operator" = some operator)
      (hLhs : member? members "lhs" = some left) (hLeft : DenotesExpr left left')
      (hRhs : member? members "rhs" = some right) (hRight : DenotesExpr right right') :
    DenotesExpr (.record members) (.binary group operator.toText left' right')
  | keyword {members operator operand operand'} (hTag : Tagged members "keyword")
      (hOperator : member? members "operator" = some operator)
      (hMember : member? members "operand" = some operand)
      (hOperand : DenotesExpr operand operand') :
    DenotesExpr (.record members) (.keyword (Text.lower operator.toText) operand')
  | increment {members operator operand operand'} (fixity : Fixity)
      (hTag : Tagged members fixity.tag)
      (hOperator : member? members "operator" = some operator)
      (hMember : member? members "operand" = some operand)
      (hOperand : DenotesExpr operand operand') :
    DenotesExpr (.record members) (.increment fixity operator.toText operand')

def textOr (default : String) (d? : Option Data) : String :=
  (d?.map toText).getD default

mutual

inductive DenotesStmt : Data → Stmt → Prop where
  | assign {members target value name value'} (hTag : Tagged members "assign")
      (hIdentifier : member? members "identifier" = some target)
      (hTarget : DenotesName target name)
      (hMember : member? members "value" = some value) (hValue : DenotesExpr value value') :
    DenotesStmt (.record members) (.assign name (textOr "=" (member? members "operator")) value')
  | goto {members target target'} (hTag : Tagged members "goto")
      (hMember : member? members "expression" = some target)
      (hTarget : DenotesExpr target target') :
    DenotesStmt (.record members) (.goto target')
  | branch {members condition body condition' body'} (hTag : Tagged members "if")
      (hMember : member? members "condition" = some condition)
      (hCondition : DenotesExpr condition condition')
      (hItems : ItemsOf (member? members "body") body) (hBody : DenotesStmts body body')
      (hElse : NoElse members) :
    DenotesStmt (.record members) (.branch condition' body' none)
  | branchElse {members condition body otherwise condition' body' otherwise'}
      (hTag : Tagged members "if")
      (hMember : member? members "condition" = some condition)
      (hCondition : DenotesExpr condition condition')
      (hItems : ItemsOf (member? members "body") body) (hBody : DenotesStmts body body')
      (hElse : member? members "else_body" = some (.list otherwise))
      (hOtherwise : DenotesStmts otherwise otherwise') :
    DenotesStmt (.record members) (.branch condition' body' (some otherwise'))
  | comment {members} (hTag : Tagged members "comment") :
    DenotesStmt (.record members)
      (.comment (textOr "" ((member? members "value").or (member? members "comment"))))
  | increment {members operator operand operand'} (fixity : Fixity)
      (hTag : Tagged members fixity.tag)
      (hOperator : member? members "operator" = some operator)
      (hMember : member? members "operand" = some operand)
      (hOperand : DenotesExpr operand operand') :
    DenotesStmt (.record members) (.increment fixity operator.toText operand')

/-- The records among the trees stand for statements, in order. -/
inductive DenotesStmts : List Data → List Stmt → Prop where
  | nil : DenotesStmts [] []
  | skip {d items ss} (hSkip : d.isRecord = false) (hRest : DenotesStmts items ss) :
    DenotesStmts (d :: items) ss
  | cons {d s items ss} (hStatement : DenotesStmt d s) (hRest : DenotesStmts items ss) :
    DenotesStmts (d :: items) (s :: ss)

end

inductive DenotesFault : Data → SyntaxFault → Prop where
  | text (message : String) : DenotesFault (.text message) ⟨message, .null⟩
  | record (members : List (String × Data)) :
    DenotesFault (.record members)
      ⟨textOr "syntax error" (member? members "msg"), (member? members "pos").getD .null⟩

/-- The tree stands for a line: the records of its code for the statements and all entries of its
errors for the syntax errors, both in order. -/
inductive DenotesLine : Data → Line → Prop where
  | record {members code errors ss faults} (hCode : ItemsOf (member? members "code") code)
      (hStatements : List.Forall₂ DenotesStmt (code.filter isRecord) ss)
      (hErrors : ItemsOf (member? members "errors") errors)
      (hFaults : List.Forall₂ DenotesFault errors faults) :
    DenotesLine (.record members) ⟨ss, faults⟩

/-- The tree stands for a program, each item for a line. -/
inductive DenotesProgram : Data → Program → Prop where
  | lines {items ls} (h : List.Forall₂ DenotesLine items ls) : DenotesProgram (.list items) ⟨ls⟩

/-! ### What has a meaning has the form -/

variable {d : Data} {items : List Data} {name : Name} {s : Stmt} {ss : List Stmt}

/-- A tree for a name stands for one. -/
theorem IsName.exists_denotes (h : IsName d) : ∃ name, DenotesName d name := by
  obtain ⟨hTag, hName⟩ := h
  exact ⟨_, .identifier hTag hName⟩

theorem DenotesName.isName (h : DenotesName d name) : IsName d := by
  obtain ⟨hTag, hName⟩ := h
  exact .identifier hTag hName

/-- A tree for an expression stands for one. -/
theorem IsExpression.exists_denotes (h : IsExpression d) : ∃ e, DenotesExpr d e := by
  induction h with
  | number hTag hNum => exact ⟨_, .number hTag hNum⟩
  | text hTag hStr => exact ⟨_, .text hTag hStr⟩
  | name h =>
    obtain ⟨name, h⟩ := h.exists_denotes
    exact ⟨_, .name h⟩
  | binary group hTag hOperator hLhs _ hRhs _ ihLeft ihRight =>
    obtain ⟨left', hLeft⟩ := ihLeft
    obtain ⟨right', hRight⟩ := ihRight
    exact ⟨_, .binary group hTag hOperator hLhs hLeft hRhs hRight⟩
  | keyword hTag hOperator hMember _ ih =>
    obtain ⟨operand', hOperand⟩ := ih
    exact ⟨_, .keyword hTag hOperator hMember hOperand⟩
  | increment fixity hTag hOperator hMember _ ih =>
    obtain ⟨operand', hOperand⟩ := ih
    exact ⟨_, .increment fixity hTag hOperator hMember hOperand⟩

/-- Only trees for expressions stand for any. -/
theorem DenotesExpr.isExpression {e : Expr} (h : DenotesExpr d e) : IsExpression d := by
  induction h with
  | number hTag hNum => exact .number hTag hNum
  | text hTag hStr => exact .text hTag hStr
  | name h => exact .name h.isName
  | binary group hTag hOperator hLhs _ hRhs _ ihLeft ihRight =>
    exact .binary group hTag hOperator hLhs ihLeft hRhs ihRight
  | keyword hTag hOperator hMember _ ih => exact .keyword hTag hOperator hMember ih
  | increment fixity hTag hOperator hMember _ ih =>
    exact .increment fixity hTag hOperator hMember ih

mutual

/-- A tree for a statement stands for one. -/
theorem IsStatement.exists_denotes {d : Data} : IsStatement d → ∃ s, DenotesStmt d s
  | .assign hTag hIdentifier hTarget hMember hValue =>
    have ⟨_, hTarget⟩ := hTarget.exists_denotes
    have ⟨_, hValue⟩ := hValue.exists_denotes
    ⟨_, .assign hTag hIdentifier hTarget hMember hValue⟩
  | .goto hTag hMember hTarget =>
    have ⟨_, hTarget⟩ := hTarget.exists_denotes
    ⟨_, .goto hTag hMember hTarget⟩
  | .branch hTag hMember hCondition hItems hBody hElse =>
    have ⟨_, hCondition⟩ := hCondition.exists_denotes
    have ⟨_, hBody⟩ := hBody.exists_denotes
    ⟨_, .branch hTag hMember hCondition hItems hBody hElse⟩
  | .branchElse hTag hMember hCondition hItems hBody hElse hOtherwise =>
    have ⟨_, hCondition⟩ := hCondition.exists_denotes
    have ⟨_, hBody⟩ := hBody.exists_denotes
    have ⟨_, hOtherwise⟩ := hOtherwise.exists_denotes
    ⟨_, .branchElse hTag hMember hCondition hItems hBody hElse hOtherwise⟩
  | .comment hTag => ⟨_, .comment hTag⟩
  | .increment fixity hTag hOperator hMember hOperand =>
    have ⟨_, hOperand⟩ := hOperand.exists_denotes
    ⟨_, .increment fixity hTag hOperator hMember hOperand⟩

theorem IsStatements.exists_denotes {items : List Data} :
    IsStatements items → ∃ ss, DenotesStmts items ss
  | .nil => ⟨_, .nil⟩
  | .skip hSkip hRest =>
    have ⟨_, hRest⟩ := hRest.exists_denotes
    ⟨_, .skip hSkip hRest⟩
  | .cons hStatement hRest =>
    have ⟨_, hStatement⟩ := hStatement.exists_denotes
    have ⟨_, hRest⟩ := hRest.exists_denotes
    ⟨_, .cons hStatement hRest⟩

end

mutual

/-- Only trees for statements stand for any. -/
theorem DenotesStmt.isStatement {d : Data} {s : Stmt} : DenotesStmt d s → IsStatement d
  | .assign hTag hIdentifier hTarget hMember hValue =>
    .assign hTag hIdentifier hTarget.isName hMember hValue.isExpression
  | .goto hTag hMember hTarget => .goto hTag hMember hTarget.isExpression
  | .branch hTag hMember hCondition hItems hBody hElse =>
    .branch hTag hMember hCondition.isExpression hItems hBody.isStatements hElse
  | .branchElse hTag hMember hCondition hItems hBody hElse hOtherwise =>
    .branchElse hTag hMember hCondition.isExpression hItems hBody.isStatements hElse
      hOtherwise.isStatements
  | .comment hTag => .comment hTag
  | .increment fixity hTag hOperator hMember hOperand =>
    .increment fixity hTag hOperator hMember hOperand.isExpression

theorem DenotesStmts.isStatements {items : List Data} {ss : List Stmt} :
    DenotesStmts items ss → IsStatements items
  | .nil => .nil
  | .skip hSkip hRest => .skip hSkip hRest.isStatements
  | .cons hStatement hRest => .cons hStatement.isStatement hRest.isStatements

end

/-- Whatever stands for a statement is a record. -/
theorem DenotesStmt.exists_record (h : DenotesStmt d s) : ∃ members, d = .record members := by
  cases h <;> exact ⟨_, rfl⟩

/-- What is skipped is left out, the rest is kept in order. -/
theorem denotesStmts_iff_forall₂ :
    DenotesStmts items ss ↔ List.Forall₂ DenotesStmt (items.filter isRecord) ss := by
  induction items generalizing ss with
  | nil =>
    rw [List.filter_nil, List.forall₂_nil_left_iff]
    constructor
    · rintro ⟨⟩
      rfl
    · rintro rfl
      exact .nil
  | cons d items ih =>
    constructor
    · rintro (_ | ⟨hSkip, hRest⟩ | ⟨hStatement, hRest⟩)
      · rw [List.filter_cons_of_neg (by simp [hSkip])]
        exact ih.mp hRest
      · obtain ⟨members, rfl⟩ := hStatement.exists_record
        rw [List.filter_cons_of_pos rfl]
        exact .cons hStatement (ih.mp hRest)
    · intro h
      by_cases hd : d.isRecord = true
      · rw [List.filter_cons_of_pos hd] at h
        obtain ⟨s, rest, hStatement, hRest, rfl⟩ := List.forall₂_cons_left_iff.mp h
        exact .cons hStatement (ih.mpr hRest)
      · rw [List.filter_cons_of_neg hd] at h
        exact .skip (by simpa using hd) (ih.mpr h)

/-- Each tree stands for something if and only if all of them do together. -/
theorem forall_exists_iff_exists_forall₂ {α β : Type} {R : α → β → Prop} {as : List α} :
    (∀ a ∈ as, ∃ b, R a b) ↔ ∃ bs, List.Forall₂ R as bs := by
  induction as with
  | nil => simp
  | cons a as ih =>
    rw [List.forall_mem_cons, ih]
    constructor
    · rintro ⟨⟨b, hb⟩, bs, hbs⟩
      exact ⟨b :: bs, .cons hb hbs⟩
    · rintro ⟨_, hb | ⟨hb, hbs⟩⟩
      exact ⟨⟨_, hb⟩, _, hbs⟩

theorem isSyntaxFault_iff_exists : IsSyntaxFault d ↔ ∃ fault, DenotesFault d fault := by
  constructor
  · rintro (message | members)
    · exact ⟨_, .text message⟩
    · exact ⟨_, .record members⟩
  · rintro ⟨_, message | members⟩
    · exact .text message
    · exact .record members

/-- Lines are the trees that stand for one. -/
theorem isLine_iff_exists : IsLine d ↔ ∃ l, DenotesLine d l := by
  constructor
  · rintro ⟨hCode, hStatements, hErrors, hFaults⟩
    obtain ⟨ss, hStatements⟩ := hStatements.exists_denotes
    simp only [isSyntaxFault_iff_exists, forall_exists_iff_exists_forall₂] at hFaults
    obtain ⟨faults, hFaults⟩ := hFaults
    exact ⟨_, .record hCode (denotesStmts_iff_forall₂.mp hStatements) hErrors hFaults⟩
  · rintro ⟨_, hCode, hStatements, hErrors, hFaults⟩
    refine .record hCode (denotesStmts_iff_forall₂.mpr hStatements).isStatements hErrors ?_
    simp only [isSyntaxFault_iff_exists, forall_exists_iff_exists_forall₂]
    exact ⟨_, hFaults⟩

/-- Programs are the trees that stand for one. -/
theorem isProgram_iff_exists : IsProgram d ↔ ∃ p, DenotesProgram d p := by
  constructor
  · rintro ⟨h⟩
    simp only [isLine_iff_exists, forall_exists_iff_exists_forall₂] at h
    obtain ⟨ls, h⟩ := h
    exact ⟨_, .lines h⟩
  · rintro ⟨_, ⟨h⟩⟩
    refine .lines ?_
    simp only [isLine_iff_exists, forall_exists_iff_exists_forall₂]
    exact ⟨_, h⟩

end Data

end ChipScript
