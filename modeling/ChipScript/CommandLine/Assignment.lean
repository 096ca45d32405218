import ChipScript.Value

/-!
# Assignments on the command line

Options give names values in the form `NAME=VALUE`, divided at the first equals sign and with blanks
around either side ignored. A value in quotation marks is the text between them; any other value is
a number if it is a numeral, and a text if not. States are shown in the same form, so that what was
shown can be given back.

`assignmentsOf` and `fieldsOf` take the texts that were given for an option. They refuse the first
of them that does not have the form.
-/

namespace ChipScript.Assignment

def split? : List Char → Option (List Char × List Char)
  | [] => none
  | c :: rest =>
    if c = '=' then some ([], rest)
    else (split? rest).map fun (name, value) => (c :: name, value)

def unquoted? : List Char → Option (List Char)
  | '"' :: rest => if rest.getLast? = some '"' then some rest.dropLast else none
  | _ => none

/-- The value that the right side denotes. -/
def valueOf (cs : List Char) : Value :=
  let raw := Text.trimWith Text.isBlank cs
  match unquoted? raw with
  | some inner => .text (String.ofList inner)
  | none =>
    match Number.ofText? (String.ofList raw) with
    | some a => .num a
    | none => .text (String.ofList raw)

/-- Reads an assignment. The name may not be empty. -/
def parse? (s : String) : Option (String × Value) := do
  let (name, value) ← split? s.toList
  let name := Text.trimWith Text.isBlank name
  guard !name.isEmpty
  return (String.ofList name, valueOf value)

/-- The name of a field without the colon that may stand in front of it. -/
def fieldName (name : String) : String :=
  match name.toList with
  | ':' :: rest => String.ofList rest
  | _ => name

end ChipScript.Assignment

namespace ChipScript.CommandLine

/-- Why the texts given for an option are refused. -/
inductive BadParameter where
  | notAnAssignment (text : String)
  | noFieldName
deriving DecidableEq, Repr

def BadParameter.message : BadParameter → String
  | notAnAssignment text => "expected NAME=VALUE, got " ++ Text.quoted text
  | noFieldName => "field name is empty"

/-- The names and values of assignments. -/
def assignmentsOf (texts : List String) : Except BadParameter (List (String × Value)) :=
  texts.mapM fun s =>
    match Assignment.parse? s with
    | some assignment => .ok assignment
    | none => .error (.notAnAssignment s)

def fieldsOf (texts : List String) : Except BadParameter (List (String × Value)) := do
  (← assignmentsOf texts).mapM fun (name, value) =>
    if (Assignment.fieldName name).isEmpty then .error .noFieldName
    else .ok (Assignment.fieldName name, value)

end ChipScript.CommandLine
