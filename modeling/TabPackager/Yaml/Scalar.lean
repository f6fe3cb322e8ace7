import TabPackager.Text.Base64
import TabPackager.Yaml.Tag

/-!
# Values of YAML scalars

The conversion of a scalar's text to the type of its tag. The tag may have been given by hand, so
every conversion meets texts of all forms; which rejection a wrong text leads to depends on the
type.
-/

namespace TabPackager.Yaml.Scalar

open Config

def notNumber {α : Type} : Reading α := .error (.rejected (@Rejection.value .ofText))

def withoutUnderscores (cs : List Char) : List Char := cs.filter (· != '_')

/-- The whole number of a text in a base, with blanks and a sign around the digits and the mark
of the base in front of them if there is one. Decimal numbers may be too long. -/
def intOf (base : Nat) (mark : Option Char) (cs : List Char) : Reading Int := do
  let (negative, body) := Binary64.takeSign (Text.trimNumber cs)
  let body := match body with
    | '0' :: m :: rest => if some m.toLower = mark then rest else body
    | _ => body
  let digits := body.map fun c => (Text.decimalDigit? c).orElse fun _ => Text.digit? c
  if body.isEmpty || !digits.all fun d => d.any (decide <| · < base) then notNumber
  if base = 10 then decimalInt negative (digits.map (·.getD 0))
  else
    let n : Int := Text.ofDigits base (digits.map (·.getD 0))
    return if negative then -n else n

def ofSixtieths (parts : List Int) : Int := parts.foldl (fun n p => 60 * n + p) 0

def int (text : String) : Reading Value := do
  let cs := withoutUnderscores text.toList
  if cs.isEmpty then .error (.rejected .empty)
  let (negative, body) := Binary64.takeSign cs
  let n ← match body with
    | [] => .error (.rejected .empty)
    | ['0'] => .ok 0
    | '0' :: 'b' :: ds => intOf 2 (some 'b') ds
    | '0' :: 'x' :: ds => intOf 16 (some 'x') ds
    | '0' :: _ => intOf 8 (some 'o') body
    | _ =>
      if body.contains ':' then
        ((body.splitOn ':').mapM (intOf 10 none)).map ofSixtieths
      else intOf 10 none body
  return .int (if negative then -n else n)

def floatOf (cs : List Char) : Reading Binary64 :=
  match Binary64.ofChars? cs with
  | some x => .ok x
  | none => notNumber

/-- The sum of a list of sixtieths, the last of which counts one; rounded at each step. A place
that counts more than every finite number is rejected, whatever stands there. -/
def sumSixtieths : Int → Binary64 → List Binary64 → Reading Binary64
  | _, sum, [] => .ok sum
  | weight, sum, x :: xs =>
    match Binary64.ofInt weight with
    | .finite s m e => sumSixtieths (60 * weight) (sum.add (x.mul (.finite s m e))) xs
    | _ => .error (.rejected .place)

def namesNoNumber (text : String) : Bool :=
  let cs := (Text.lowercase (String.ofList (withoutUnderscores text.toList))).toList
  (Binary64.takeSign cs).2 == ".nan".toList

def float (text : String) : Reading Value := do
  let cs := (Text.lowercase (String.ofList (withoutUnderscores text.toList))).toList
  if cs.isEmpty then .error (.rejected .empty)
  let (negative, body) := Binary64.takeSign cs
  if body = ".nan".toList then return .float .nan
  let x ←
    if body = ".inf".toList then pure (Binary64.infinite false)
    else if body.contains ':' then do
      let parts ← (body.splitOn ':').mapM floatOf
      sumSixtieths 1 (Binary64.zero false) parts.reverse
    else floatOf body
  return .float (if negative then x.neg else x)

def bool (text : String) : Reading Value :=
  match Tag.boolWords.lookup (Text.lowercase text) with
  | some b => .ok (.bool b)
  | none => .error (.rejected .word)

def binary (text : String) : Reading Value :=
  if text.toList.any fun c => decide (127 < c.toNat) then malformed
  else match Text.base64Decode? text.toList with
    | some bytes => .ok (.bytes bytes)
    | none => malformed

/-- A day, or a moment; both have to exist, and an offset stays below a day. -/
def timestamp (text : String) : Reading Value :=
  match Tag.stamp? (Tag.withoutLineEnd text).toList with
  | none => .error (.rejected .shape)
  | some t =>
    let date : Date := ⟨t.year, t.month, t.day⟩
    match t.time with
    | none => if date.Valid then .ok (.date date) else notNumber
    | some (h, m, s, fraction, offset) =>
      let micros := Text.ofDigits 10 ((fraction.take 6 ++ List.replicate 6 0).take 6)
      let time : Time := ⟨h, m, s, micros⟩
      let near := offset.all fun o => decide (o.natAbs < 1440)
      if date.Valid ∧ time.Valid ∧ near then .ok (.dateTime ⟨date, time, offset⟩) else notNumber

end TabPackager.Yaml.Scalar
