import ChipScript.Data
import ChipScript.Data.Token
import ChipScript.Members

/-!
# Reading JSON

`Data.ofJson` reads a JSON text as a data tree. It goes through the tokens once, with the containers
that are still open on a stack, so that it always ends. Of the members of one name in a record the
last gives the value and the first the place.

A text that is not JSON is `invalid`, whatever is wrong with it and wherever. A whole number with
too many digits is refused on its own account.
-/

namespace ChipScript

/-- Why a text is not read. -/
inductive JsonError where
  | invalid
  | longInteger (digits : Nat)
deriving DecidableEq, Repr

namespace Data

/-- A container whose end has not been reached: what it holds so far, and for a record the name of
the member that is being read. -/
inductive Frame where
  | list (items : List Data)
  | record (members : List (String × Data)) (name : String)

/-- What may come next. -/
inductive Expected where
  /-- A value. -/
  | value
  /-- A value, or the end of the list that has just been opened. -/
  | firstItem
  /-- The name of a member. -/
  | name (members : List (String × Data))
  /-- The name of a member, or the end of the record that has just been opened. -/
  | firstName
  /-- The colon after the name of a member. -/
  | colon (members : List (String × Data)) (name : String)
  /-- What follows a complete value. -/
  | after (value : Data)

def ofToken? : Token → Option Data
  | .null => some null
  | .bool b => some (bool b)
  | .int n => some (int n)
  | .float x => some (float x)
  | .text s => some (text s)
  | _ => none

/-- The state after the first token of a value. -/
def openValue (frames : List Frame) : Token → Except JsonError (Expected × List Frame)
  | .openList => .ok (.firstItem, .list [] :: frames)
  | .openRecord => .ok (.firstName, frames)
  | .longInt digits => .error (.longInteger digits)
  | token =>
    match ofToken? token with
    | some d => .ok (.after d, frames)
    | none => .error .invalid

/-- The state after one more token, given the open containers from the inside out. -/
def readToken : Expected × List Frame → Token → Except JsonError (Expected × List Frame)
  | (.firstItem, .list items :: frames), .closeList => .ok (.after (.list items), frames)
  | (.firstItem, frames), token => openValue frames token
  | (.value, frames), token => openValue frames token
  | (.name members, frames), .text s => .ok (.colon members s, frames)
  | (.firstName, frames), .text s => .ok (.colon [] s, frames)
  | (.firstName, frames), .closeRecord => .ok (.after (.record []), frames)
  | (.colon members s, frames), .colon => .ok (.value, .record members s :: frames)
  | (.after d, .list items :: frames), .comma => .ok (.value, .list (items ++ [d]) :: frames)
  | (.after d, .list items :: frames), .closeList => .ok (.after (.list (items ++ [d])), frames)
  | (.after d, .record members s :: frames), .comma =>
    .ok (.name (Members.put s d members), frames)
  | (.after d, .record members s :: frames), .closeRecord =>
    .ok (.after (.record (Members.put s d members)), frames)
  | _, _ => .error .invalid

/-- Reads a JSON text: at its end a value must be complete and no container open. -/
def ofJson (s : String) : Except JsonError Data := do
  match ← (Token.tokens 0 s.toList).foldlM readToken (.value, []) with
  | (.after d, []) => return d
  | _ => throw .invalid

end Data

end ChipScript
