import ChipScript.Proofs.Actions
import ChipScript.Proofs.Decoding

/-!
# Encoding

The tree that a program is written as: every node is a record with a tag, texts and operators are
texts, an absent else part is null, and a syntax error is a record with its message and position.
Decoding gives the program back (`Program.ofData_toData`).

Decoding changes one thing only: it writes keywords in small letters. So the programs that come back
are those whose keywords have no capital letters. An encoded statement stands for the statement
(`Stmt.denotes_toData_and_block`) and holds nothing but texts at its leaves, so the grammar of
programs settles what it is decoded to. The position of a syntax error may be any tree. It is never
looked into, and comes back as it is.
-/

namespace ChipScript

open Data

/-! ### Trees of programs -/

def Name.toData (name : Name) : Data :=
  .record [("type", .text "identifier"), ("name", .text name.text)]

/-- The tree of an expression. -/
def Expr.toData : Expr → Data
  | number numeral => .record [("type", .text "number"), ("num", .text numeral)]
  | text s => .record [("type", .text "string"), ("str", .text s)]
  | name n => n.toData
  | binary group operator left right =>
    .record [("type", .text group.tag), ("operator", .text operator), ("lhs", left.toData),
      ("rhs", right.toData)]
  | keyword word operand =>
    .record [("type", .text "keyword"), ("operator", .text word), ("operand", operand.toData)]
  | increment fixity operator operand =>
    .record [("type", .text fixity.tag), ("operator", .text operator),
      ("operand", operand.toData)]

mutual

def Stmt.toData : Stmt → Data
  | .assign target operator value =>
    .record [("type", .text "assign"), ("identifier", target.toData),
      ("operator", .text operator), ("value", value.toData)]
  | .goto target => .record [("type", .text "goto"), ("expression", target.toData)]
  | .branch condition body none =>
    .record [("type", .text "if"), ("condition", condition.toData),
      ("body", .list (blockToData body)), ("else_body", .null)]
  | .branch condition body (some other) =>
    .record [("type", .text "if"), ("condition", condition.toData),
      ("body", .list (blockToData body)), ("else_body", .list (blockToData other))]
  | .comment remark => .record [("type", .text "comment"), ("value", .text remark)]
  | .increment fixity operator operand =>
    .record [("type", .text fixity.tag), ("operator", .text operator),
      ("operand", operand.toData)]

def blockToData : List Stmt → List Data
  | [] => []
  | s :: rest => s.toData :: blockToData rest

end

def SyntaxFault.toData (fault : SyntaxFault) : Data :=
  .record [("msg", .text fault.message), ("pos", fault.position)]

def Line.toData (l : Line) : Data :=
  .record [("errors", .list (l.syntaxFaults.map SyntaxFault.toData)),
    ("code", .list (blockToData l.statements))]

def Program.toData (p : Program) : Data :=
  .list (p.lines.map Line.toData)

/-! ### Keywords -/

/-- The keywords in an expression, from left to right. -/
def Expr.keywords : Expr → List String
  | number _ | text _ | name _ => []
  | binary _ _ left right => left.keywords ++ right.keywords
  | keyword word operand => word :: operand.keywords
  | increment _ _ operand => operand.keywords

mutual

def Stmt.keywords : Stmt → List String
  | .assign _ _ value => value.keywords
  | .goto target => target.keywords
  | .branch condition body none => condition.keywords ++ blockKeywords body
  | .branch condition body (some other) =>
    condition.keywords ++ blockKeywords body ++ blockKeywords other
  | .comment _ => []
  | .increment _ _ operand => operand.keywords

def blockKeywords : List Stmt → List String
  | [] => []
  | s :: rest => s.keywords ++ blockKeywords rest

end

def Program.keywords (p : Program) : List String :=
  p.lines.flatMap fun l => blockKeywords l.statements

/-! ### Encoded statements -/

theorem Name.denotes_toData (name : Name) : DenotesName name.toData name := by
  show DenotesName name.toData ⟨(Data.text name.text).toText⟩
  exact .identifier rfl rfl

/-- The tree of an expression stands for it, if its keywords are in small letters. -/
theorem Expr.denotes_toData {e : Expr} (h : ∀ word ∈ e.keywords, Text.lower word = word) :
    DenotesExpr e.toData e := by
  induction e with
  | number numeral =>
    show DenotesExpr _ (.number (Data.text numeral).toText)
    exact .number rfl rfl
  | text s =>
    show DenotesExpr _ (.text (Data.text s).toText)
    exact .text rfl rfl
  | name n => exact .name n.denotes_toData
  | binary group operator left right ihl ihr =>
    simp only [keywords, List.forall_mem_append] at h
    show DenotesExpr _ (.binary group (Data.text operator).toText left right)
    exact .binary group rfl rfl rfl (ihl h.1) rfl (ihr h.2)
  | keyword word operand ih =>
    obtain ⟨hword, hoperand⟩ := List.forall_mem_cons.1 h
    have hdenotes : DenotesExpr (Expr.keyword word operand).toData
        (.keyword (Text.lower (Data.text word).toText) operand) :=
      .keyword rfl rfl rfl (ih hoperand)
    rwa [Data.toText, hword] at hdenotes
  | increment fixity operator operand ih =>
    show DenotesExpr _ (.increment fixity (Data.text operator).toText operand)
    exact .increment fixity rfl rfl rfl (ih h)

/-- An encoded statement stands for the statement. -/
theorem Stmt.denotes_toData_and_block :
    (∀ s : Stmt, (∀ word ∈ s.keywords, Text.lower word = word) → DenotesStmt s.toData s) ∧
      ∀ block : List Stmt, (∀ word ∈ blockKeywords block, Text.lower word = word) →
        DenotesStmts (blockToData block) block := by
  apply Stmt.mutual_induction
  case assign =>
    intro target operator value h
    simp only [Stmt.keywords] at h
    simp only [Stmt.toData]
    exact .assign rfl rfl target.denotes_toData rfl (Expr.denotes_toData h)
  case goto =>
    intro target h
    simp only [Stmt.keywords] at h
    simp only [Stmt.toData]
    exact .goto rfl rfl (Expr.denotes_toData h)
  case branch =>
    intro condition body ihBody h
    simp only [Stmt.keywords, List.forall_mem_append] at h
    simp only [Stmt.toData]
    exact .branch rfl rfl (Expr.denotes_toData h.1) (.list _) (ihBody h.2) (.inr rfl)
  case branchElse =>
    intro condition body other ihBody ihOther h
    simp only [Stmt.keywords, List.forall_mem_append] at h
    simp only [Stmt.toData]
    exact .branchElse rfl rfl (Expr.denotes_toData h.1.1) (.list _) (ihBody h.1.2) rfl
      (ihOther h.2)
  case comment =>
    intro remark _
    simp only [Stmt.toData]
    exact .comment rfl
  case increment =>
    intro fixity operator operand h
    simp only [Stmt.keywords] at h
    simp only [Stmt.toData]
    show DenotesStmt _ (.increment fixity (Data.text operator).toText operand)
    exact .increment fixity rfl rfl rfl (Expr.denotes_toData h)
  case nil =>
    intro _
    simp only [blockToData]
    exact .nil
  case cons =>
    intro s rest ihs ihrest h
    simp only [blockKeywords, List.forall_mem_append] at h
    simp only [blockToData]
    exact .cons (ihs h.1) (ihrest h.2)

@[simp] theorem Name.isWritable_toData (name : Name) : name.toData.isWritable = true := rfl

/-- An encoded expression holds no integers, so it can be written. -/
@[simp] theorem Expr.isWritable_toData (e : Expr) : e.toData.isWritable = true := by
  induction e with
  | number numeral => rfl
  | text s => rfl
  | name n => rfl
  | binary group operator left right ihl ihr =>
    simp [toData, isWritable, membersWritable, ihl, ihr]
  | keyword word operand ih => simp [toData, isWritable, membersWritable, ih]
  | increment fixity operator operand ih => simp [toData, isWritable, membersWritable, ih]

theorem Stmt.isWritable_toData_and_block :
    (∀ s : Stmt, s.toData.isWritable = true) ∧
      ∀ block : List Stmt, itemsWritable (blockToData block) = true := by
  apply Stmt.mutual_induction
  case assign | goto | comment | increment =>
    intros
    simp [Stmt.toData, isWritable, membersWritable]
  case branch =>
    intro condition body ihBody
    simp [Stmt.toData, isWritable, membersWritable, ihBody]
  case branchElse =>
    intro condition body other ihBody ihOther
    simp [Stmt.toData, isWritable, membersWritable, ihBody, ihOther]
  case nil => rfl
  case cons =>
    intro s rest ihs ihrest
    simp [blockToData, itemsWritable, ihs, ihrest]

/-! ### Decoding what was encoded -/

namespace Decode

/-- The faults of a line come back with their positions. -/
theorem syntaxFaults_toData (index : Nat) (faults : List SyntaxFault) :
    syntaxFaults index (faults.map SyntaxFault.toData) = .ok faults := by
  induction faults generalizing index with
  | nil => rfl
  | cons fault rest ih =>
    -- Only the message is read as a text.
    have hfault (path : Path) : syntaxFault path fault.toData = .ok fault := rfl
    rw [List.map_cons, syntaxFaults, hfault, ok_bind, ih]
    rfl

/-- A line comes back from its tree. -/
theorem line_toData {l : Line} (h : ∀ word ∈ blockKeywords l.statements, Text.lower word = word)
    (number : Nat) : (line number l.toData).outcome = .ok l := by
  have hdenotes := Stmt.denotes_toData_and_block.2 l.statements h
  have hwritable := Stmt.isWritable_toData_and_block.2 l.statements
  exact line_of_parts number (.list _) (entries_of_denotes hdenotes number _ 0 hwritable) (.list _)
    (syntaxFaults_toData 0 l.syntaxFaults)

theorem lines_toData {ls : List Line}
    (h : ∀ l ∈ ls, ∀ word ∈ blockKeywords l.statements, Text.lower word = word) (number : Nat) :
    (lines number (ls.map Line.toData)).1 = .ok ls := by
  induction ls generalizing number with
  | nil => rfl
  | cons l rest ih =>
    obtain ⟨hl, hrest⟩ := List.forall_mem_cons.1 h
    simp only [List.map_cons, lines, line_toData hl, ih hrest]
    rfl

end Decode

/-- A program without capital letters in its keywords is decoded from its encoding, however its
statements and expressions are nested. -/
theorem Program.ofData_toData {p : Program} (h : ∀ word ∈ p.keywords, Text.lower word = word) :
    (Program.ofData p.toData).1 = .ok p := by
  refine Program.ofData_of_lines (Decode.lines_toData ?_ 1)
  intro l hl word hword
  exact h word (List.mem_flatMap.2 ⟨l, hl, hword⟩)

/-- Branches with empty, absent and nested parts, increments as statements and within expressions,
and a line that has syntax errors besides its code. -/
def gatehouse : Program :=
  ⟨[{ statements := [
        .branch (.keyword "not" (.increment .post "++" (.name ⟨":Visits"⟩))) [] (some []),
        .branch (.binary .neq ">=" (.name ⟨"x"⟩) (.text "SEVEN"))
          [.branch (.number "1") [] none, .increment .pre "--" (.keyword "abs" (.name ⟨"x"⟩))] none,
        .comment "" ] },
    { statements := [.assign ⟨":x"⟩ "^=" (.binary .exp "**" (.number "2") (.number "three"))]
      syntaxFaults := [⟨"stray bracket", .null⟩, ⟨"", .record [("column", .int (-4))]⟩] },
    {}]⟩

/-- The keywords of this program are in small letters, so it comes back. -/
theorem gatehouse_comes_back :
    gatehouse.keywords = ["not", "abs"] ∧ (∀ word ∈ gatehouse.keywords, Text.lower word = word) ∧
      (Program.ofData gatehouse.toData).1 = .ok gatehouse := by
  have hkeywords : gatehouse.keywords = ["not", "abs"] := by decide +kernel
  have hlower : ∀ word ∈ gatehouse.keywords, Text.lower word = word := by
    rw [hkeywords]
    decide +kernel
  exact ⟨hkeywords, hlower, Program.ofData_toData hlower⟩

-- A keyword with capital letters comes back without them.
example : (Program.ofData
      (Program.toData ⟨[{ statements := [.goto (.keyword "ABS" (.number "1"))] }]⟩)).1 =
    .ok ⟨[{ statements := [.goto (.keyword "abs" (.number "1"))] }]⟩ := by
  rfl

end ChipScript
