import Mathlib.Data.List.Forall2
import ChipScript.Program.Outline
import ChipScript.Proofs.Actions

/-!
# Outlines show the shape of a program

The shape of a program is what is left of it without its texts: for every line the number of its
syntax errors and the kinds of its statements, nested as the statements are. Programs with the same
outline have the same shape (`Program.shape_eq_of_outline_eq`), provided that no text in them goes
over the end of a row.

The argument goes through the marks of an outline. A row is marked by its depth and its heading, and
both can be told from the row, whatever text follows the heading (`Shows.rightUnique`). So equal
outlines have equal marks. The marks of a shape then have one reading only: the statements of a
block end where the depth falls below that of the block (`Shape.readOnce_and_block`).
-/

namespace ChipScript

/-! ### Shapes -/

/-- The kind of a statement, with the shapes of its parts if it is a branch. -/
inductive Shape where
  | assign
  | goto
  | branch (body : List Shape) (otherwise : Option (List Shape))
  | comment
  | increment

mutual

/-- The shape of a statement. -/
def Stmt.shape : Stmt → Shape
  | .assign _ _ _ => .assign
  | .goto _ => .goto
  | .branch _ body none => .branch (blockShape body) none
  | .branch _ body (some other) => .branch (blockShape body) (some (blockShape other))
  | .comment _ => .comment
  | .increment _ _ _ => .increment

def blockShape : List Stmt → List Shape
  | [] => []
  | s :: rest => s.shape :: blockShape rest

end

/-- The number of syntax errors of a line and the shapes of its statements. -/
structure LineShape where
  faults : Nat
  statements : List Shape

def Line.shape (l : Line) : LineShape :=
  ⟨l.syntaxFaults.length, blockShape l.statements⟩

def Program.shape (p : Program) : List LineShape :=
  p.lines.map Line.shape

/-! ### Texts -/

/-- The names, operators, keywords and literals in an expression. -/
def Expr.texts : Expr → List String
  | number s | text s => [s]
  | name n => [n.text]
  | binary _ operator left right => operator :: (left.texts ++ right.texts)
  | keyword word operand => word :: operand.texts
  | increment _ operator operand => operator :: operand.texts

mutual

def Stmt.texts : Stmt → List String
  | .assign target operator value => target.text :: operator :: value.texts
  | .goto target => target.texts
  | .branch condition body none => condition.texts ++ blockTexts body
  | .branch condition body (some other) => condition.texts ++ (blockTexts body ++ blockTexts other)
  | .comment remark => [remark]
  | .increment _ operator operand => operator :: operand.texts

def blockTexts : List Stmt → List String
  | [] => []
  | s :: rest => s.texts ++ blockTexts rest

end

/-- The texts in a line, the messages of its syntax errors included. -/
def Line.texts (l : Line) : List String :=
  l.syntaxFaults.map SyntaxFault.message ++ blockTexts l.statements

def Program.texts (p : Program) : List String :=
  p.lines.flatMap Line.texts

def Unbroken (s : String) : Prop := '\n' ∉ s.toList

instance : DecidablePred Unbroken :=
  fun s => inferInstanceAs (Decidable ('\n' ∉ s.toList))

@[simp] theorem unbroken_append {s t : String} : Unbroken (s ++ t) ↔ Unbroken s ∧ Unbroken t := by
  simp [Unbroken]

theorem unbroken_repr (n : Nat) : Unbroken (Nat.repr n) := by
  rw [Unbroken, Nat.toList_repr]
  intro h
  have hdigit : '\n'.isDigit = true := Nat.isDigit_of_mem_toDigits (by decide) (by decide) h
  exact absurd hdigit (by decide)

/-! ### Marks -/

/-- What a row of an outline stands for. -/
inductive RowKind where
  | program | line | fault | assign | goto | branch | body | otherwise | comment | increment
deriving DecidableEq

/-- How a row of a kind begins. -/
def RowKind.heading : RowKind → String
  | program => "Program"
  | line => "Line "
  | fault => "SyntaxError: "
  | assign => "Assign: "
  | goto => "Goto "
  | branch => "If ("
  | body => "Then:"
  | otherwise => "Else:"
  | comment => "Comment: "
  | increment => "Expr: "

/-- What tells a row of an outline from others. -/
structure Mark where
  depth : Nat
  kind : RowKind
deriving DecidableEq

/-- The row, as it is written, has the depth and the heading of a mark. -/
def Shows (row : String) (mark : Mark) : Prop :=
  ∃ detail, row = (OutlineRow.mk mark.depth (mark.kind.heading ++ detail)).render

mutual

/-- The marks of a statement of a given shape. -/
def Shape.marks (depth : Nat) : Shape → List Mark
  | .assign => [⟨depth, .assign⟩]
  | .goto => [⟨depth, .goto⟩]
  | .branch body none => ⟨depth, .branch⟩ :: ⟨depth + 1, .body⟩ :: blockMarks (depth + 2) body
  | .branch body (some other) =>
    ⟨depth, .branch⟩ :: ⟨depth + 1, .body⟩ ::
      (blockMarks (depth + 2) body ++ ⟨depth + 1, .otherwise⟩ :: blockMarks (depth + 2) other)
  | .comment => [⟨depth, .comment⟩]
  | .increment => [⟨depth, .increment⟩]

def blockMarks (depth : Nat) : List Shape → List Mark
  | [] => []
  | s :: rest => s.marks depth ++ blockMarks depth rest

end

def LineShape.marks (l : LineShape) : List Mark :=
  ⟨1, .line⟩ :: (List.replicate l.faults ⟨2, .fault⟩ ++ blockMarks 2 l.statements)

/-- The marks of a program whose lines have given shapes. -/
def programMarks (lines : List LineShape) : List Mark :=
  ⟨0, .program⟩ :: lines.flatMap LineShape.marks

/-! ### Rows show their marks -/

/-- Runs of one element are told apart from what follows them, if that does not go on with it. -/
theorem replicate_append_inj {α : Type} {a : α} {m n : Nat} {xs ys : List α}
    (hxs : a ∉ xs.head?) (hys : a ∉ ys.head?)
    (h : List.replicate m a ++ xs = List.replicate n a ++ ys) : m = n ∧ xs = ys := by
  induction m generalizing n with
  | zero =>
    cases n with
    | zero => exact ⟨rfl, h⟩
    | succ n =>
      obtain rfl : xs = a :: (List.replicate n a ++ ys) := h
      exact absurd rfl hxs
  | succ m ih =>
    cases n with
    | zero =>
      obtain rfl : ys = a :: (List.replicate m a ++ xs) := h.symm
      exact absurd rfl hys
    | succ n =>
      obtain ⟨rfl, hrest⟩ := ih (List.cons.inj h).2
      exact ⟨rfl, hrest⟩

/-- The first two characters of a heading. -/
def RowKind.initials (kind : RowKind) : List Char :=
  kind.heading.toList.take 2

/-- The first two characters of a row tell its kind. -/
theorem RowKind.take_heading_append (kind : RowKind) (detail : List Char) :
    (kind.heading.toList ++ detail).take 2 = kind.initials :=
  List.take_append_of_le_length (by cases kind <;> decide)

/-- No two kinds start with the same two characters. -/
theorem RowKind.initials_injective : Function.Injective initials := by
  intro k k' h
  cases k <;> cases k' <;> first | rfl | exact absurd h (by decide)

/-- No row starts with a space behind its indent. -/
theorem RowKind.space_notMem_head? (kind : RowKind) (detail : List Char) :
    ' ' ∉ (kind.heading.toList ++ detail).head? := by
  have hhead : (kind.heading.toList ++ detail).head? = kind.initials.head? := by
    rw [← kind.take_heading_append detail, List.head?_take, if_neg (by decide)]
  rw [hhead]
  cases kind <;> decide

/-- A row shows one mark only. -/
theorem Shows.rightUnique : Relator.RightUnique Shows := by
  rintro _ ⟨d, k⟩ ⟨d', k'⟩ ⟨detail, rfl⟩ ⟨detail', h⟩
  have hchars := congrArg String.toList h
  simp only [OutlineRow.render, String.toList_append, String.toList_ofList] at hchars
  obtain ⟨hdepth, htext⟩ := replicate_append_inj (k.space_notMem_head? _)
    (k'.space_notMem_head? _) hchars
  have hinitials := congrArg (List.take 2) htext
  rw [k.take_heading_append, k'.take_heading_append] at hinitials
  obtain rfl := RowKind.initials_injective hinitials
  obtain rfl : d = d' := Nat.eq_of_mul_eq_mul_left (by decide) hdepth
  rfl

/-- The rows show the marks, one by one, when they are written. -/
def RowsShow (rows : List OutlineRow) (marks : List Mark) : Prop :=
  List.Forall₂ Shows (rows.map OutlineRow.render) marks

namespace RowsShow

variable {rows rows' : List OutlineRow} {marks marks' : List Mark}

theorem nil : RowsShow [] [] :=
  List.Forall₂.nil

theorem cons (depth : Nat) (kind : RowKind) (detail : String) (h : RowsShow rows marks) :
    RowsShow (⟨depth, kind.heading ++ detail⟩ :: rows) (⟨depth, kind⟩ :: marks) :=
  List.Forall₂.cons ⟨detail, rfl⟩ h

theorem append (h : RowsShow rows marks) (h' : RowsShow rows' marks') :
    RowsShow (rows ++ rows') (marks ++ marks') := by
  unfold RowsShow
  rw [List.map_append]
  exact List.rel_append h h'

end RowsShow

/-- The rows of a statement show the marks of its shape, whatever its depth. -/
theorem Stmt.rowsShow_outline_and_block :
    (∀ s : Stmt, ∀ depth, RowsShow (s.outline depth) (s.shape.marks depth)) ∧
      ∀ block : List Stmt, ∀ depth,
        RowsShow (blockOutline depth block) (blockMarks depth (blockShape block)) := by
  apply Stmt.mutual_induction
  case assign =>
    intro target operator value depth
    simp only [Stmt.outline, Stmt.shape, Shape.marks, String.append_assoc]
    exact .cons depth .assign _ .nil
  case goto =>
    intro target depth
    simp only [Stmt.outline, Stmt.shape, Shape.marks]
    exact .cons depth .goto _ .nil
  case branch =>
    intro condition body ihBody depth
    simp only [Stmt.outline, Stmt.shape, Shape.marks, String.append_assoc]
    exact .cons depth .branch _ (.cons (depth + 1) .body "" (ihBody _))
  case branchElse =>
    intro condition body other ihBody ihOther depth
    simp only [Stmt.outline, Stmt.shape, Shape.marks, String.append_assoc]
    exact .cons depth .branch _ (.cons (depth + 1) .body ""
      ((ihBody _).append (.cons (depth + 1) .otherwise "" (ihOther _))))
  case comment =>
    intro remark depth
    simp only [Stmt.outline, Stmt.shape, Shape.marks]
    exact .cons depth .comment _ .nil
  case increment =>
    intro fixity operator operand depth
    simp only [Stmt.outline, Stmt.shape, Shape.marks]
    exact .cons depth .increment _ .nil
  case nil =>
    intro depth
    simp only [blockOutline, blockShape, blockMarks]
    exact .nil
  case cons =>
    intro s rest ihs ihrest depth
    simp only [blockOutline, blockShape, blockMarks]
    exact (ihs depth).append (ihrest depth)

theorem Line.rowsShow_outline (l : Line) (number : Nat) :
    RowsShow (l.outline number) l.shape.marks := by
  have hfaults (faults : List SyntaxFault) :
      RowsShow (faults.map fun e => ⟨2, "SyntaxError: " ++ e.message⟩)
        (List.replicate faults.length ⟨2, .fault⟩) := by
    induction faults with
    | nil => exact .nil
    | cons fault rest ih => exact .cons 2 .fault fault.message ih
  exact .cons 1 .line _ ((hfaults _).append (Stmt.rowsShow_outline_and_block.2 _ 2))

def Program.rows (p : Program) : List OutlineRow :=
  ⟨0, "Program"⟩ :: (p.lines.zipIdx 1).flatMap fun (l, number) => l.outline number

theorem Program.outline_eq (p : Program) :
    p.outline = "\n".intercalate (p.rows.map OutlineRow.render) := rfl

/-- The rows of a program show the marks of its shape. -/
theorem Program.rowsShow_rows (p : Program) : RowsShow p.rows (programMarks p.shape) := by
  have hlines (ls : List Line) (first : Nat) :
      RowsShow ((ls.zipIdx first).flatMap fun (l, number) => l.outline number)
        ((ls.map Line.shape).flatMap LineShape.marks) := by
    induction ls generalizing first with
    | nil => exact .nil
    | cons l rest ih => exact (l.rowsShow_outline first).append (ih (first + 1))
  exact .cons 0 .program "" (hlines p.lines 1)

/-! ### Marks have one reading -/

/-- The marks, if there are any, begin at a lesser depth. -/
def EndsBlock (depth : Nat) (marks : List Mark) : Prop :=
  ∀ mark ∈ marks.head?, mark.depth < depth

theorem EndsBlock.mono {depth depth' : Nat} {marks : List Mark} (h : EndsBlock depth marks)
    (hle : depth ≤ depth') : EndsBlock depth' marks :=
  fun mark hmark => Nat.lt_of_lt_of_le (h mark hmark) hle

theorem endsBlock_cons {depth : Nat} {mark : Mark} {marks : List Mark} :
    EndsBlock depth (mark :: marks) ↔ mark.depth < depth := by
  simp [EndsBlock]

/-- The mark that a statement of a given shape begins with. -/
def Shape.rowKind : Shape → RowKind
  | assign => .assign
  | goto => .goto
  | branch _ _ => .branch
  | comment => .comment
  | increment => .increment

/-- The marks of a shape start with its own. -/
theorem Shape.exists_marks_eq (s : Shape) (depth : Nat) :
    ∃ rest, s.marks depth = ⟨depth, s.rowKind⟩ :: rest := by
  cases s with
  | assign | goto | comment | increment => exact ⟨[], by simp only [marks, rowKind]⟩
  | branch body otherwise =>
    cases otherwise <;> simp only [marks, rowKind, List.cons.injEq, true_and, exists_eq']

/-- After a statement come statements of the same depth, or the block ends. -/
theorem endsBlock_blockMarks_append {depth : Nat} {rest : List Mark} (h : EndsBlock depth rest)
    (block : List Shape) : EndsBlock (depth + 1) (blockMarks depth block ++ rest) := by
  cases block with
  | nil =>
    simp only [blockMarks]
    exact h.mono (Nat.le_succ depth)
  | cons s tail =>
    obtain ⟨_, hmarks⟩ := s.exists_marks_eq depth
    simp only [blockMarks, hmarks, List.cons_append, endsBlock_cons]
    exact Nat.lt_succ_self depth

/-- Induction over shapes and sequences of shapes at once. -/
theorem Shape.mutual_induction {P : Shape → Prop} {Q : List Shape → Prop} (assign : P .assign)
    (goto : P .goto) (branch : ∀ body, Q body → P (.branch body none))
    (branchElse : ∀ body other, Q body → Q other → P (.branch body (some other)))
    (comment : P .comment) (increment : P .increment) (nil : Q [])
    (cons : ∀ s rest, P s → Q rest → Q (s :: rest)) : (∀ s, P s) ∧ ∀ block, Q block := by
  have h := Shape.marks.mutual_induct (fun _ s => P s) (fun _ block => Q block)
    (fun _ => assign) (fun _ => goto) (fun _ body => branch body)
    (fun _ body other => branchElse body other) (fun _ => comment) (fun _ => increment)
    (fun _ => nil) (fun _ s rest => cons s rest)
  exact ⟨h.1 0, h.2 0⟩

/-- Marks begin with those of one statement only. -/
def Shape.ReadOnce (s : Shape) : Prop :=
  ∀ (depth : Nat) (s' : Shape) (rest rest' : List Mark), EndsBlock (depth + 1) rest →
    EndsBlock (depth + 1) rest' → s.marks depth ++ rest = s'.marks depth ++ rest' →
      s = s' ∧ rest = rest'

/-- Marks begin with those of one block only, up to where the block ends. -/
def BlockReadOnce (block : List Shape) : Prop :=
  ∀ (depth : Nat) (block' : List Shape) (rest rest' : List Mark), EndsBlock depth rest →
    EndsBlock depth rest' → blockMarks depth block ++ rest = blockMarks depth block' ++ rest' →
      block = block' ∧ rest = rest'

/-- Marks begin with those of one statement only, and of one block only. -/
theorem Shape.readOnce_and_block : (∀ s : Shape, s.ReadOnce) ∧ ∀ block, BlockReadOnce block := by
  apply Shape.mutual_induction
  case assign | goto | comment | increment =>
    intro depth s' rest rest' _ _ h
    rcases s' with _ | _ | ⟨_, _ | _⟩ | _ | _ <;> simp_all [Shape.marks]
  case branch =>
    intro body ihBody depth s' rest rest' hrest hrest' h
    rcases s' with _ | _ | ⟨body', _ | other'⟩ | _ | _ <;>
      simp only [Shape.marks, List.cons_append, List.append_assoc, List.nil_append, List.cons.injEq,
        Mark.mk.injEq, true_and, reduceCtorEq, false_and, and_false] at h
    · obtain ⟨rfl, rfl⟩ := ihBody (depth + 2) body' rest rest' (hrest.mono (by omega))
        (hrest'.mono (by omega)) h
      exact ⟨rfl, rfl⟩
    · -- What follows this branch would have to begin with the row of an else part.
      obtain ⟨rfl, rfl⟩ := ihBody (depth + 2) body' rest _ (hrest.mono (by omega))
        (endsBlock_cons.2 (by simp only; omega)) h
      exact absurd (endsBlock_cons.1 hrest) (Nat.lt_irrefl _)
  case branchElse =>
    intro body other ihBody ihOther depth s' rest rest' hrest hrest' h
    rcases s' with _ | _ | ⟨body', _ | other'⟩ | _ | _ <;>
      simp only [Shape.marks, List.cons_append, List.append_assoc, List.nil_append, List.cons.injEq,
        Mark.mk.injEq, true_and, reduceCtorEq, false_and, and_false] at h
    · obtain ⟨rfl, rfl⟩ := ihBody (depth + 2) body' _ rest' (endsBlock_cons.2 (by simp only; omega))
        (hrest'.mono (by omega)) h
      exact absurd (endsBlock_cons.1 hrest') (Nat.lt_irrefl _)
    · obtain ⟨rfl, htail⟩ := ihBody (depth + 2) body' _ _ (endsBlock_cons.2 (by simp only; omega))
        (endsBlock_cons.2 (by simp only; omega)) h
      obtain ⟨rfl, rfl⟩ := ihOther (depth + 2) other' rest rest' (hrest.mono (by omega))
        (hrest'.mono (by omega)) (List.cons.inj htail).2
      exact ⟨rfl, rfl⟩
  case nil =>
    intro depth block' rest rest' hrest _ h
    cases block' with
    | nil =>
      simp only [blockMarks, List.nil_append] at h
      exact ⟨rfl, h⟩
    | cons s' tail' =>
      obtain ⟨_, hmarks⟩ := s'.exists_marks_eq depth
      simp only [blockMarks, hmarks, List.cons_append, List.nil_append] at h
      rw [h] at hrest
      exact absurd (endsBlock_cons.1 hrest) (Nat.lt_irrefl _)
  case cons =>
    intro s tail ihs ihtail depth block' rest rest' hrest hrest' h
    cases block' with
    | nil =>
      obtain ⟨_, hmarks⟩ := s.exists_marks_eq depth
      simp only [blockMarks, hmarks, List.cons_append, List.nil_append] at h
      rw [← h] at hrest'
      exact absurd (endsBlock_cons.1 hrest') (Nat.lt_irrefl _)
    | cons s' tail' =>
      simp only [blockMarks, List.append_assoc] at h
      obtain ⟨rfl, htail⟩ := ihs depth s' _ _ (endsBlock_blockMarks_append hrest tail)
        (endsBlock_blockMarks_append hrest' tail') h
      obtain ⟨rfl, rfl⟩ := ihtail depth tail' rest rest' hrest hrest' htail
      exact ⟨rfl, rfl⟩

/-- Among the marks of a line the syntax errors end where the statements begin. -/
theorem fault_notMem_head? {rest : List Mark} (h : EndsBlock 2 rest) (block : List Shape) :
    ⟨2, .fault⟩ ∉ (blockMarks 2 block ++ rest).head? := by
  cases block with
  | nil =>
    simp only [blockMarks, List.nil_append]
    exact fun hmem => Nat.lt_irrefl 2 (h _ hmem)
  | cons s tail =>
    obtain ⟨_, hmarks⟩ := s.exists_marks_eq 2
    cases s <;> simp [blockMarks, hmarks, Shape.rowKind]

theorem endsBlock_lines (lines : List LineShape) :
    EndsBlock 2 (lines.flatMap LineShape.marks) := by
  cases lines with
  | nil => simp [EndsBlock]
  | cons l rest => exact endsBlock_cons.2 (by decide)

/-- Lines with the same marks have the same shapes. -/
theorem lineMarks_injective : Function.Injective (List.flatMap LineShape.marks) := by
  intro lines
  induction lines with
  | nil =>
    intro lines' h
    cases lines' with
    | nil => rfl
    | cons l' rest' => cases h
  | cons l rest ih =>
    intro lines' h
    cases lines' with
    | nil => cases h
    | cons l' rest' =>
      have hrest := endsBlock_lines rest
      have hrest' := endsBlock_lines rest'
      simp only [List.flatMap_cons, LineShape.marks, List.cons_append, List.append_assoc,
        List.cons.injEq, true_and] at h
      obtain ⟨hfaults, hblock⟩ := replicate_append_inj (fault_notMem_head? hrest l.statements)
        (fault_notMem_head? hrest' l'.statements) h
      obtain ⟨hstatements, htail⟩ :=
        Shape.readOnce_and_block.2 l.statements 2 l'.statements _ _ hrest hrest' hblock
      have hl : l = l' := by
        obtain ⟨faults, statements⟩ := l
        cases hfaults
        cases hstatements
        rfl
      rw [hl, ih htail]

/-! ### Rows end at line feeds -/

/-- An expression stays on its row if its texts are unbroken. -/
theorem Expr.unbroken_outline {e : Expr} (h : ∀ s ∈ e.texts, Unbroken s) : Unbroken e.outline := by
  have hquote : Unbroken "\"" := by decide
  have hspace : Unbroken " " := by decide
  have hopen : Unbroken "(" := by decide
  have hclose : Unbroken ")" := by decide
  induction e with
  | number s | name n =>
    simp only [texts, List.forall_mem_singleton] at h
    exact h
  | text s =>
    simp only [texts, List.forall_mem_singleton] at h
    simp only [outline, unbroken_append]
    exact ⟨⟨hquote, h⟩, hquote⟩
  | binary group operator left right ihl ihr =>
    simp only [texts, List.forall_mem_cons, List.forall_mem_append] at h
    simp only [outline, unbroken_append]
    exact ⟨⟨⟨⟨⟨⟨hopen, ihl h.2.1⟩, hspace⟩, h.1⟩, hspace⟩, ihr h.2.2⟩, hclose⟩
  | keyword word operand ih =>
    simp only [texts, List.forall_mem_cons] at h
    simp only [outline, unbroken_append]
    exact ⟨⟨h.1, hspace⟩, ih h.2⟩
  | increment fixity operator operand ih =>
    simp only [texts, List.forall_mem_cons] at h
    cases fixity with
    | pre => exact unbroken_append.2 ⟨h.1, ih h.2⟩
    | post => exact unbroken_append.2 ⟨ih h.2, h.1⟩

theorem Stmt.unbroken_outline_and_block :
    (∀ s : Stmt, (∀ t ∈ s.texts, Unbroken t) → ∀ depth, ∀ row ∈ s.outline depth,
      Unbroken row.text) ∧
    ∀ block : List Stmt, (∀ t ∈ blockTexts block, Unbroken t) → ∀ depth,
      ∀ row ∈ blockOutline depth block, Unbroken row.text := by
  have hheading (kind : RowKind) {detail : String} (h : Unbroken detail) :
      Unbroken (kind.heading ++ detail) :=
    unbroken_append.2 ⟨by cases kind <;> decide, h⟩
  have hspace : Unbroken " " := by decide
  have hclose : Unbroken ")" := by decide
  have hthen : Unbroken "Then:" := by decide
  have helse : Unbroken "Else:" := by decide
  apply Stmt.mutual_induction
  case assign =>
    intro target operator value h depth
    simp only [Stmt.texts, List.forall_mem_cons] at h
    obtain ⟨htarget, hoperator, hvalue⟩ := h
    simp only [Stmt.outline, List.forall_mem_singleton, String.append_assoc]
    refine hheading .assign ?_
    simp only [unbroken_append]
    exact ⟨htarget, hspace, hoperator, hspace, Expr.unbroken_outline hvalue⟩
  case goto =>
    intro target h depth
    simp only [Stmt.texts] at h
    simp only [Stmt.outline, List.forall_mem_singleton]
    exact hheading .goto (Expr.unbroken_outline h)
  case branch =>
    intro condition body ihBody h depth
    simp only [Stmt.texts, List.forall_mem_append] at h
    simp only [Stmt.outline, List.forall_mem_cons, String.append_assoc]
    exact ⟨hheading .branch (unbroken_append.2 ⟨Expr.unbroken_outline h.1, hclose⟩), hthen,
      ihBody h.2 _⟩
  case branchElse =>
    intro condition body other ihBody ihOther h depth
    simp only [Stmt.texts, List.forall_mem_append] at h
    simp only [Stmt.outline, List.forall_mem_cons, List.forall_mem_append, String.append_assoc]
    exact ⟨hheading .branch (unbroken_append.2 ⟨Expr.unbroken_outline h.1, hclose⟩), hthen,
      ihBody h.2.1 _, helse, ihOther h.2.2 _⟩
  case comment =>
    intro remark h depth
    simp only [Stmt.texts, List.forall_mem_singleton] at h
    simp only [Stmt.outline, List.forall_mem_singleton]
    exact hheading .comment h
  case increment =>
    intro fixity operator operand h depth
    simp only [Stmt.texts] at h
    simp only [Stmt.outline, List.forall_mem_singleton]
    exact hheading .increment (Expr.unbroken_outline h)
  case nil =>
    intro _ depth
    simp only [blockOutline]
    exact fun _ hrow => absurd hrow List.not_mem_nil
  case cons =>
    intro s rest ihs ihrest h depth
    simp only [blockTexts, List.forall_mem_append] at h
    simp only [blockOutline, List.forall_mem_append]
    exact ⟨ihs h.1 depth, ihrest h.2 depth⟩

theorem Line.unbroken_outline {l : Line} (h : ∀ t ∈ l.texts, Unbroken t) (number : Nat) :
    ∀ row ∈ l.outline number, Unbroken row.text := by
  simp only [Line.texts, List.forall_mem_append, List.forall_mem_map] at h
  simp only [Line.outline, List.cons_append, List.forall_mem_cons, List.forall_mem_append,
    List.forall_mem_map, unbroken_append]
  have hword : Unbroken (toString "Line ") := by decide
  exact ⟨⟨hword, unbroken_repr number⟩, fun fault hfault => ⟨by decide, h.1 fault hfault⟩,
    Stmt.unbroken_outline_and_block.2 l.statements h.2 2⟩

/-- Every row of a program is unbroken if its texts are. -/
theorem Program.unbroken_rows {p : Program} (h : ∀ t ∈ p.texts, Unbroken t) :
    ∀ row ∈ p.rows, Unbroken row.text := by
  simp only [Program.rows, List.forall_mem_cons, List.forall_mem_flatMap, Prod.forall]
  refine ⟨by decide, fun l number hl => ?_⟩
  have hmem : l ∈ p.lines := List.fst_mem_of_mem_zipIdx hl
  exact Line.unbroken_outline (fun t ht => h t (List.mem_flatMap.2 ⟨l, hmem, ht⟩)) number

theorem OutlineRow.unbroken_render {row : OutlineRow} (h : Unbroken row.text) :
    Unbroken row.render := by
  rw [render, unbroken_append]
  refine ⟨?_, h⟩
  simp [Unbroken]

/-- Texts without line feeds can be told apart after they were joined with line feeds. -/
theorem intercalate_inj {rows rows' : List String} (hrows : ∀ row ∈ rows, Unbroken row)
    (hrows' : ∀ row ∈ rows', Unbroken row) (hne : rows ≠ []) (hne' : rows' ≠ [])
    (h : "\n".intercalate rows = "\n".intercalate rows') : rows = rows' := by
  have hsplit {rows : List String} (hrows : ∀ row ∈ rows, Unbroken row) (hne : rows ≠ []) :
      ("\n".intercalate rows).toList.splitOn '\n' = rows.map String.toList := by
    rw [String.toList_intercalate]
    exact List.splitOn_intercalate '\n' (List.forall_mem_map.2 hrows) (by simpa using hne)
  have hlists := hsplit hrows hne
  rw [h, hsplit hrows' hne'] at hlists
  exact (List.map_injective_iff.2 (fun _ _ => String.toList_injective) hlists).symm

/-- The text of an outline gives its rows back. -/
theorem Program.render_rows_eq_of_outline_eq {p q : Program} (hp : ∀ t ∈ p.texts, Unbroken t)
    (hq : ∀ t ∈ q.texts, Unbroken t) (h : p.outline = q.outline) :
    p.rows.map OutlineRow.render = q.rows.map OutlineRow.render := by
  have hrendered {p : Program} (hp : ∀ t ∈ p.texts, Unbroken t) :
      ∀ row ∈ p.rows.map OutlineRow.render, Unbroken row :=
    List.forall_mem_map.2 fun row hrow => row.unbroken_render (Program.unbroken_rows hp row hrow)
  rw [Program.outline_eq, Program.outline_eq] at h
  exact intercalate_inj (hrendered hp) (hrendered hq) (List.cons_ne_nil _ _)
    (List.cons_ne_nil _ _) h

/-- Programs with the same outline have as many lines, with as many syntax errors each, and the same
kinds of statements in the same places, if no text in them has a line feed. -/
theorem Program.shape_eq_of_outline_eq {p q : Program} (hp : ∀ t ∈ p.texts, Unbroken t)
    (hq : ∀ t ∈ q.texts, Unbroken t) (h : p.outline = q.outline) : p.shape = q.shape := by
  have hpmarks := p.rowsShow_rows
  have hqmarks := q.rowsShow_rows
  unfold RowsShow at hpmarks hqmarks
  rw [Program.render_rows_eq_of_outline_eq hp hq h] at hpmarks
  have hmarks : programMarks p.shape = programMarks q.shape :=
    Shows.rightUnique.forall₂ hpmarks hqmarks
  exact lineMarks_injective (List.cons.inj hmarks).2

/-- A condition that is a sum of two literals, in a line with a syntax error. -/
def siphon : Program :=
  ⟨[{ statements := [
        .branch (.binary .add "+" (.number "1") (.text "2")) [.branch (.name ⟨"x"⟩) [] none]
          (some []),
        .comment "Goto 1" ]
      syntaxFaults := [⟨"Line 2", .null⟩] },
    {}]⟩

/-- The same condition, but as one name. -/
def siphonOfName : Program :=
  ⟨[{ statements := [
        .branch (.name ⟨"(1 + \"2\")"⟩) [.branch (.number "x") [] none] (some []),
        .comment "Goto 1" ]
      syntaxFaults := [⟨"Line 2", .int 7⟩] },
    {}]⟩

/-- What the outline does not tell apart has the same shape all the same, and texts that look like
rows are not taken for them. -/
theorem siphon_shape_from_outline :
    (∀ t ∈ siphon.texts, Unbroken t) ∧ (∀ t ∈ siphonOfName.texts, Unbroken t) ∧
      siphon.outline = siphonOfName.outline ∧ siphon.shape = siphonOfName.shape ∧
      siphon.shape = [⟨1, [.branch [.branch [] none] (some []), .comment]⟩, ⟨0, []⟩] := by
  have hsiphon : ∀ t ∈ siphon.texts, Unbroken t := by decide
  have hname : ∀ t ∈ siphonOfName.texts, Unbroken t := by decide
  have houtline : siphon.outline = siphonOfName.outline := by decide +kernel
  exact ⟨hsiphon, hname, houtline, Program.shape_eq_of_outline_eq hsiphon hname houtline, rfl⟩

-- A text with a line feed can look like a row of its own.
example : Program.outline ⟨[{ statements := [.comment "\n    Goto 1"] }]⟩ =
    Program.outline ⟨[{ statements := [.comment "", .goto (.number "1")] }]⟩ := by
  decide +kernel

end ChipScript
