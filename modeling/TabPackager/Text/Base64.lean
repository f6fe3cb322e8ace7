import TabPackager.Text.Digit

/-!
# Base 64

Decoding of bytes written in base 64. Characters outside the alphabet are skipped, and the text
ends at the padding of a group that holds at least one byte.
-/

namespace TabPackager.Text

def base64Value? (c : Char) : Option Nat :=
  let n := c.toNat
  if 65 ≤ n ∧ n ≤ 90 then some (n - 65)
  else if 97 ≤ n ∧ n ≤ 122 then some (n - 71)
  else if 48 ≤ n ∧ n ≤ 57 then some (n + 4)
  else if c = '+' then some 62
  else if c = '/' then some 63
  else none

/-- The byte that a character completes in a group of four, by its place in the group, with the
bits left over from the character before. -/
def base64Byte? (place left value : Nat) : Option UInt8 :=
  match place with
  | 0 => none
  | 1 => some (left * 4 + value / 16).toUInt8
  | 2 => some (left * 16 + value / 4).toUInt8
  | _ => some (left * 64 + value).toUInt8

def base64Left (place value : Nat) : Nat :=
  match place with
  | 0 => value
  | 1 => value % 16
  | 2 => value % 4
  | _ => 0

def base64From (place left pads : Nat) (done : List UInt8) : List Char → Option (List UInt8)
  | [] => if place = 0 then some done.reverse else none
  | c :: cs =>
    if c = '=' then
      if 2 ≤ place then
        if 4 ≤ place + (pads + 1) then some done.reverse
        else base64From place left (pads + 1) done cs
      else base64From place left pads done cs
    else
      match base64Value? c with
      | none => base64From place left pads done cs
      | some v =>
        base64From ((place + 1) % 4) (base64Left place v) 0
          ((base64Byte? place left v).toList ++ done) cs

def base64Decode? (cs : List Char) : Option (List UInt8) := base64From 0 0 0 [] cs

end TabPackager.Text
