import ChipScript.Data.Json
import ChipScript.Event
import ChipScript.Program
import ChipScript.Text.LowerCase

/-!
# Programs from data

A program arrives as a list of records, one for each line. A line may have a list `code` of
statements and a list `errors` of syntax errors; statements and expressions are records whose
member `type` says what they are and what other members they need.

| type | further members |
|---|---|
| `number`, `string`, `identifier` | `num`, `str`, `name` |
| `exp`, `mul`, `add`, `eq`, `neq` | `operator`, `lhs`, `rhs` |
| `keyword`, `pre_add`, `post_add` | `operator`, `operand` |
| `assign` | `identifier`, `value`, and optionally `operator` |
| `goto` | `expression` |
| `if` | `condition`, and optionally `body`, `else_body` |
| `comment` | optionally `value` or `comment` |

Decoding goes from left to right and stops at the first fault, which it reports with the line and
the path inside the line (`DecodeError`). An entry of a statement list that is no record is skipped
and told of. Where a text is wanted any tree will do, and counts as the text that it is written as;
if it cannot be written decoding stops too, although the tree has the right form.
-/

namespace ChipScript

/-! ### Where and why decoding stops -/

/-- A step into a tree. -/
inductive PathStep where
  | member (name : String)
  | item (index : Nat)
deriving DecidableEq, Repr

/-- A way from the root of a tree to a place in it. -/
abbrev Path := List PathStep

/-- A path in words: `code[1].value.lhs`. -/
def Path.render (path : Path) : String :=
  path.foldl (fun done step =>
    match step with
    | .member name => if done.isEmpty then name else done ++ "." ++ name
    | .item index => done ++ s!"[{index}]") ""

/-- Why a tree is no program. -/
inductive DecodeFault where
  | lineNotRecord (kind : String)
  | statementsNotList (kind : String)
  | syntaxFaultsNotList (kind : String)
  | badSyntaxFault (shown : String)
  | notANode (kind : String)
  | untagged
  | missingMember (name tag : String)
  | unknownStatement (tag : String)
  | unknownExpression (tag : String)
  | targetNotIdentifier
  | longInteger
deriving DecidableEq, Repr

def DecodeFault.message : DecodeFault → String
  | lineNotRecord kind => s!"line must be an object, got {kind}"
  | statementsNotList kind => s!"expected a list of statements, got {kind}"
  | syntaxFaultsNotList kind => s!"expected a list of syntax errors, got {kind}"
  | badSyntaxFault shown => s!"invalid syntax error entry {shown}"
  | notANode kind => s!"expected a node, got {kind}"
  | untagged => "node has no 'type' tag"
  | missingMember name tag => s!"missing key '{name}' for '{tag}' node"
  | unknownStatement tag => s!"unknown statement type '{tag}'"
  | unknownExpression tag => s!"unknown expression type '{tag}'"
  | targetNotIdentifier => "assignment target must be an identifier"
  | longInteger => (ArithmeticError.tooManyDigits Numeral.maxDigits).message

/-- A fault and its place inside a line. -/
structure LocatedFault where
  path : Path
  fault : DecodeFault
deriving DecidableEq, Repr

/-- Why decoding stopped: the tree is no list, or a line of it is at fault. -/
inductive DecodeError where
  | notAList (kind : String)
  | line (number : Nat) (located : LocatedFault)
deriving DecidableEq, Repr

namespace DecodeError

/-- The error as it is reported. A fault of the line itself has no path, and an integer that is too
long is not a matter of format. -/
def toFormatError? : DecodeError → Option FormatError
  | notAList kind => some { detail := s!"program must be a list of lines, got {kind}" }
  | line number located =>
    if located.fault = .longInteger then none
    else some
      { detail := located.fault.message
        line := some number
        path := if located.path.isEmpty then none else some located.path.render }

def message (e : DecodeError) : String :=
  (e.toFormatError?.map FormatError.message).getD DecodeFault.longInteger.message

end DecodeError

namespace Decode

/-! ### Expressions -/

/-- A tree as a text, where a text is wanted. -/
def written (path : Path) (d : Data) : Except LocatedFault String :=
  if d.isWritable then .ok d.toText else .error ⟨path, .longInteger⟩

def requiredText (members : List (String × Data)) (tag : String) (path : Path) (name : String) :
    Except LocatedFault String :=
  match Data.member? members name with
  | some d => written path d
  | none => .error ⟨path, .missingMember name tag⟩

/-- A text, or a default where there is none. -/
def optionalText (path : Path) (default : String) : Option Data → Except LocatedFault String
  | some d => written path d
  | none => .ok default

def tagOf (members : List (String × Data)) (path : Path) : Except LocatedFault String :=
  match Data.member? members "type" with
  | some (.text tag) => .ok tag
  | _ => .error ⟨path, .untagged⟩

/-- What the tag of an expression says. -/
inductive ExprTag where
  | number | text | name | keyword
  | binary (group : Group)
  | increment (fixity : Fixity)
deriving DecidableEq, Repr

def ExprTag.table : List (String × ExprTag) :=
  [("number", .number), ("string", .text), ("identifier", .name), ("exp", .binary .exp),
    ("mul", .binary .mul), ("add", .binary .add), ("eq", .binary .eq), ("neq", .binary .neq),
    ("keyword", .keyword), ("pre_add", .increment .pre), ("post_add", .increment .post)]

mutual

def expression (path : Path) : Data → Except LocatedFault Expr
  | .record members => do
    let tag ← tagOf members path
    match ExprTag.table.lookup tag with
    | some .number => return .number (← requiredText members tag path "num")
    | some .text => return .text (← requiredText members tag path "str")
    | some .name => return .name ⟨← requiredText members tag path "name"⟩
    | some (.binary group) =>
      let operator ← requiredText members tag path "operator"
      let left ← expressionAt tag path "lhs" members
      let right ← expressionAt tag path "rhs" members
      return .binary group operator left right
    | some .keyword =>
      let keyword ← requiredText members tag path "operator"
      let operand ← expressionAt tag path "operand" members
      return .keyword (Text.lower keyword) operand
    | some (.increment fixity) =>
      let operator ← requiredText members tag path "operator"
      let operand ← expressionAt tag path "operand" members
      return .increment fixity operator operand
    | none => throw ⟨path, .unknownExpression tag⟩
  | d => .error ⟨path, .notANode d.kind⟩

def expressionAt (tag : String) (path : Path) (name : String) :
    List (String × Data) → Except LocatedFault Expr
  | [] => .error ⟨path, .missingMember name tag⟩
  | (n, d) :: rest =>
    if n = name then expression (path ++ [.member name]) d else expressionAt tag path name rest

end

/-! ### Statements -/

/-- What decoding comes to, and what was told on the way. -/
structure Decoded (α : Type) where
  outcome : Except LocatedFault α
  trace : Trace := []

namespace Decoded

variable {α β : Type}

/-- Goes on after a success. -/
def bind (x : Decoded α) (f : α → Decoded β) : Decoded β :=
  match x.outcome with
  | .ok a => ⟨(f a).outcome, x.trace ++ (f a).trace⟩
  | .error e => ⟨.error e, x.trace⟩

instance : Monad Decoded where
  pure a := ⟨.ok a, []⟩
  bind := bind

/-- An outcome of which there is nothing to tell. -/
def silent (outcome : Except LocatedFault α) : Decoded α := ⟨outcome, []⟩

def stop (path : Path) (fault : DecodeFault) : Decoded α := ⟨.error ⟨path, fault⟩, []⟩

end Decoded

/-- What the tag of a statement says. -/
inductive StmtTag where
  | assign | goto | branch | comment
  | increment (fixity : Fixity)
deriving DecidableEq, Repr

def StmtTag.table : List (String × StmtTag) :=
  [("assign", .assign), ("goto", .goto), ("if", .branch), ("comment", .comment),
    ("pre_add", .increment .pre), ("post_add", .increment .post)]

/-- The name that an expression is, which it must be at a given path. -/
def nameOf (path : Path) : Expr → Except LocatedFault Name
  | .name name => .ok name
  | _ => .error ⟨path, .targetNotIdentifier⟩

/-- What a comment says. -/
def comment? (members : List (String × Data)) : Option Data :=
  (Data.member? members "value").or (Data.member? members "comment")

mutual

def statement (number : Nat) (path : Path) : Data → Decoded Stmt
  | .record members => do
    let tag ← .silent (tagOf members path)
    match StmtTag.table.lookup tag with
    | some .assign =>
      let left ← .silent (expressionAt tag path "identifier" members)
      let target ← .silent (nameOf (path ++ [.member "identifier"]) left)
      let operator ← .silent (optionalText path "=" (Data.member? members "operator"))
      let value ← .silent (expressionAt tag path "value" members)
      return .assign target operator value
    | some .goto =>
      let target ← .silent (expressionAt tag path "expression" members)
      return .goto target
    | some .branch =>
      let condition ← .silent (expressionAt tag path "condition" members)
      let body ← bodyAt number path members
      let otherwise ← otherwiseAt number path members
      return .branch condition body otherwise
    | some .comment =>
      let text ← .silent (optionalText path "" (comment? members))
      return .comment text
    | some (.increment fixity) =>
      let operator ← .silent (requiredText members tag path "operator")
      let operand ← .silent (expressionAt tag path "operand" members)
      return .increment fixity operator operand
    | none => .stop path (.unknownStatement tag)
  | d => .stop path (.notANode d.kind)

/-- Decodes the statements among the entries of a list, from a given index on. -/
def entries (number : Nat) (path : Path) (index : Nat) : List Data → Decoded (List Stmt)
  | [] => pure []
  | d :: rest =>
    match d with
    | .record members => do
      let s ← statement number (path ++ [.item index]) (.record members)
      return s :: (← entries number path (index + 1) rest)
    | d =>
      if d.isWritable then do
        ⟨.ok (), [.entrySkipped number d.shown]⟩
        entries number path (index + 1) rest
      else .stop (path ++ [.item index]) .longInteger

def block (number : Nat) (path : Path) : Data → Decoded (List Stmt)
  | .list items => entries number path 0 items
  | d => .stop path (.statementsNotList d.kind)

/-- Decodes the body of a branch, which may be absent or blank. -/
def bodyAt (number : Nat) (path : Path) : List (String × Data) → Decoded (List Stmt)
  | [] => pure []
  | (name, d) :: rest =>
    if name = "body" then
      if d.isBlank then pure [] else block number (path ++ [.member name]) d
    else bodyAt number path rest

/-- Decodes the else part of a branch, which may be absent or null. -/
def otherwiseAt (number : Nat) (path : Path) :
    List (String × Data) → Decoded (Option (List Stmt))
  | [] => pure none
  | (name, d) :: rest =>
    if name = "else_body" then
      match d with
      | .null => pure none
      | d => do return some (← block number (path ++ [.member name]) d)
    else otherwiseAt number path rest

end

/-! ### Lines -/

/-- Decodes a syntax error: a text, or a record with a message and a position. -/
def syntaxFault (path : Path) : Data → Except LocatedFault SyntaxFault
  | .text s => .ok ⟨s, .null⟩
  | .record members => do
    let message ← optionalText path "syntax error" (Data.member? members "msg")
    return ⟨message, (Data.member? members "pos").getD .null⟩
  | d => .error ⟨path, if d.isWritable then .badSyntaxFault d.shown else .longInteger⟩

/-- Decodes the syntax errors of a line, from a given index on. -/
def syntaxFaults (index : Nat) : List Data → Except LocatedFault (List SyntaxFault)
  | [] => .ok []
  | d :: rest => do
    let e ← syntaxFault [.member "errors", .item index] d
    return e :: (← syntaxFaults (index + 1) rest)

/-- A member of a line that may be absent or blank. -/
def optionalMember (members : List (String × Data)) (name : String) : Data :=
  match Data.member? members name with
  | some d => if d.isBlank then .list [] else d
  | none => .list []

def line (number : Nat) : Data → Decoded Line
  | .record members => do
    let statements ← block number [.member "code"] (optionalMember members "code")
    match optionalMember members "errors" with
    | .list items => return ⟨statements, ← .silent (syntaxFaults 0 items)⟩
    | d => .stop [.member "errors"] (.syntaxFaultsNotList d.kind)
  | d => .stop [] (.lineNotRecord d.kind)

def lines (number : Nat) : List Data → Except DecodeError (List Line) × Trace
  | [] => (.ok [], [])
  | d :: rest =>
    let decoded := line number d
    match decoded.outcome with
    | .ok l =>
      let (outcome, trace) := lines (number + 1) rest
      (outcome.map (l :: ·), decoded.trace ++ trace)
    | .error e => (.error (.line number e), decoded.trace)

end Decode

namespace Program

def ofData : Data → Except DecodeError Program × Trace
  | .list items =>
    match Decode.lines 1 items with
    | (.ok lines, trace) => (.ok ⟨lines⟩, trace ++ [.programLoaded lines.length])
    | (.error e, trace) => (.error e, trace)
  | d => (.error (.notAList d.kind), [])

/-- Why a program text is refused. -/
inductive LoadError where
  /-- The text is not JSON, and what the reader of JSON says about it. -/
  | notJson (detail : String)
  | longInteger (digits : Nat)
  | decode (e : DecodeError)
deriving DecidableEq, Repr

def LoadError.message : LoadError → String
  | notJson detail => "invalid JSON: " ++ detail
  | longInteger digits =>
    s!"Exceeds the limit ({Numeral.maxDigits} digits) for integer string conversion: " ++
      s!"value has {digits} digits; use sys.set_int_max_str_digits() to increase the limit"
  | decode e => e.message

/-- The refusal as a format error. A number that is too long to read is not a matter of format. -/
def LoadError.toFormatError? : LoadError → Option FormatError
  | notJson detail => some { detail := (notJson detail).message }
  | longInteger _ => none
  | decode e => e.toFormatError?

/-- Reads a program from JSON text; `describe` says what is wrong with a text that is not JSON. -/
def ofText (describe : String → String) (s : String) : Except LoadError Program × Trace :=
  match Data.ofJson s with
  | .ok d =>
    let (outcome, trace) := ofData d
    (outcome.mapError .decode, trace)
  | .error .invalid => (.error (.notJson (describe s)), [])
  | .error (.longInteger digits) => (.error (.longInteger digits), [])

end Program

end ChipScript
