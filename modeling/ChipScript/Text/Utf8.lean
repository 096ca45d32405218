import ChipScript.Text.Quoted

/-!
# Reading UTF-8

`decodeUtf8` reads bytes as a text, or says which bytes are at fault and why. A character is refused
as soon as its bytes cannot be completed: at the first byte if no character starts so, else at the
first byte that cannot follow, and at the end if bytes are missing there. Overlong forms, surrogates
and what lies beyond the last code point are refused at the byte that makes them so.
-/

namespace ChipScript.Text

/-- Why bytes are no UTF-8. -/
inductive Utf8Reason where
  | start | continuation | ended
deriving DecidableEq, Repr

/-- Bytes that are no UTF-8: the first of them, where it stands, and how many there are. -/
structure Utf8Fault where
  byte : UInt8
  position : Nat
  count : Nat
  reason : Utf8Reason
deriving DecidableEq, Repr

/-- The wording of a fault. -/
def Utf8Fault.message (f : Utf8Fault) : String :=
  let place :=
    if f.count = 1 then
      "byte 0x" ++ String.ofList (hexDigits 2 f.byte.toNat) ++ s!" in position {f.position}"
    else s!"bytes in position {f.position}-{f.position + f.count - 1}"
  let reason := match f.reason with
    | .start => "invalid start byte"
    | .continuation => "invalid continuation byte"
    | .ended => "unexpected end of data"
  s!"'utf-8' codec can't decode {place}: {reason}"

/-- The range of the second byte after a first one, and the number of bytes after the first. -/
def utf8Shape? (b : UInt8) : Option (UInt8 × UInt8 × Nat) :=
  if b < 0xc2 then none
  else if b < 0xe0 then some (0x80, 0xbf, 1)
  else if b = 0xe0 then some (0xa0, 0xbf, 2)
  else if b = 0xed then some (0x80, 0x9f, 2)
  else if b < 0xf0 then some (0x80, 0xbf, 2)
  else if b = 0xf0 then some (0x90, 0xbf, 3)
  else if b < 0xf4 then some (0x80, 0xbf, 3)
  else if b = 0xf4 then some (0x80, 0x8f, 3)
  else none

/-- The leading bits of a character of several bytes. -/
def utf8Lead (b : UInt8) (more : Nat) : Nat :=
  b.toNat % Nat.pow 2 (6 - more)

/-- A character of which some bytes have been read: the first byte and its position, how many bytes
have been read, the range of the next, how many are to come, and the bits so far. -/
structure Utf8Pending where
  first : UInt8
  position : Nat
  seen : Nat
  low : UInt8
  high : UInt8
  missing : Nat
  bits : Nat

/-- Reads bytes from a position on, after the characters in `done`, the last of them first. -/
def decodeUtf8From (done : List Char) (position : Nat) (pending : Option Utf8Pending) :
    List UInt8 → Except Utf8Fault String
  | [] =>
    match pending with
    | none => .ok (String.ofList done.reverse)
    | some p => .error ⟨p.first, p.position, p.seen, .ended⟩
  | b :: rest =>
    match pending with
    | none =>
      if b < 0x80 then decodeUtf8From (Char.ofNat b.toNat :: done) (position + 1) none rest
      else match utf8Shape? b with
        | none => .error ⟨b, position, 1, .start⟩
        | some (low, high, more) =>
          decodeUtf8From done (position + 1)
            (some ⟨b, position, 1, low, high, more, utf8Lead b more⟩) rest
    | some p =>
      if b < p.low || p.high < b then .error ⟨p.first, p.position, p.seen, .continuation⟩
      else
        let bits := p.bits * 64 + b.toNat % 64
        if p.missing = 1 then decodeUtf8From (Char.ofNat bits :: done) (position + 1) none rest
        else
          decodeUtf8From done (position + 1)
            (some { p with seen := p.seen + 1, low := 0x80, high := 0xbf,
                           missing := p.missing - 1, bits := bits }) rest

/-- Reads bytes as a text. -/
def decodeUtf8 (bytes : List UInt8) : Except Utf8Fault String :=
  decodeUtf8From [] 0 none bytes

end ChipScript.Text
