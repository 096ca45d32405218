import ChipScript.Number.Decimal
import ChipScript.Number.Numeral
import ChipScript.Text.Quoted

/-!
# Data trees

Programs arrive as trees of plain data: scalars, lists and records with named members in order.
This module holds the trees and how they are shown inside messages. `Data.shown` writes a tree on
one line, texts in quotation marks; `Data.toText` differs from it only in leaving a text that stands
alone as it is. A tree with an integer of too many digits cannot be written either way
(`Data.isWritable`).
-/

namespace ChipScript

/-- A tree of plain data. If two members of a record have the same name, the first one counts. -/
inductive Data where
  | null
  | bool (b : Bool)
  | int (n : Int)
  | float (x : Float)
  | text (s : String)
  | list (items : List Data)
  | record (members : List (String × Data))
deriving Inhabited

namespace Data

def kind : Data → String
  | null => "NoneType"
  | bool _ => "bool"
  | int _ => "int"
  | float _ => "float"
  | text _ => "str"
  | list _ => "list"
  | record _ => "dict"

/-- Null, false, zero and whatever is empty count as absent where a list is optional. -/
def isBlank : Data → Bool
  | null => true
  | bool b => !b
  | int n => n = 0
  | float x => (Number.float x).isZero
  | text s => s.isEmpty
  | list items => items.isEmpty
  | record members => members.isEmpty

def member? (members : List (String × Data)) (name : String) : Option Data :=
  members.lookup name

mutual

/-- A tree on one line. -/
def shown : Data → String
  | null => "None"
  | bool b => if b then "True" else "False"
  | int n => toString n
  | float x => Decimal.shortest x
  | text s => Text.quoted s
  | list items => "[" ++ ", ".intercalate (shownItems items) ++ "]"
  | record members => "\x7b" ++ ", ".intercalate (shownMembers members) ++ "\x7d"

def shownItems : List Data → List String
  | [] => []
  | d :: rest => shown d :: shownItems rest

def shownMembers : List (String × Data) → List String
  | [] => []
  | (name, d) :: rest => (Text.quoted name ++ ": " ++ shown d) :: shownMembers rest

end

/-- A tree as a text: itself if it is one. -/
def toText : Data → String
  | text s => s
  | d => shown d

mutual

/-- No integer in the tree has more digits than a whole numeral may have. -/
def isWritable : Data → Bool
  | int n => n.natAbs < Binary64.pow10 Numeral.maxDigits
  | list items => itemsWritable items
  | record members => membersWritable members
  | null | bool _ | float _ | text _ => true

def itemsWritable : List Data → Bool
  | [] => true
  | d :: rest => isWritable d && itemsWritable rest

def membersWritable : List (String × Data) → Bool
  | [] => true
  | (_, d) :: rest => isWritable d && membersWritable rest

end

end Data

end ChipScript
