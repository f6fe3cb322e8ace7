import TabPackager.Text.Blank
import TabPackager.Text.Digit
import TabPackager.Text.Lowercase
import TabPackager.Text.Split

/-!
# Binary floating point

Numbers of the 64-bit binary format as exact data: a sign, a whole number below `2 ^ 53` and a
power of two not below `2 ^ (-1074)`. Every operation computes the exact quotient first and
rounds once, to the nearest representable number and to the even one in the middle.
-/

namespace TabPackager

/-- A number of the 64-bit binary format; a finite one is `± mantissa · 2 ^ exponent`. -/
inductive Binary64 where
  | nan
  | infinite (negative : Bool)
  | finite (negative : Bool) (mantissa : Nat) (exponent : Int)
  deriving DecidableEq, Repr

namespace Binary64

def leastExponent : Int := -1074

def greatestExponent : Int := 971

def zero (negative : Bool) : Binary64 := .finite negative 0 leastExponent

/-- A quotient rounded to the nearest whole number, the middle to the even one. -/
def divRound (num den : Nat) : Nat :=
  let q := num / den
  let r := num % den
  if 2 * r < den then q
  else if den < 2 * r then q + 1
  else q + q % 2

def scaleDown (num den : Nat) (e : Int) : Nat × Nat :=
  if 0 ≤ e then (num, den * Nat.pow 2 e.toNat) else (num * Nat.pow 2 (-e).toNat, den)

def ofRatio (negative : Bool) (num den : Nat) : Binary64 :=
  if num = 0 then zero negative
  else
    let guess : Int := (num.log2 : Int) - den.log2 - 53
    let low := max guess leastExponent
    let (n, d) := scaleDown num den low
    let e := if Nat.pow 2 53 ≤ n / d then low + 1 else low
    let (n, d) := scaleDown num den e
    let m := divRound n d
    let (m, e) := if m = Nat.pow 2 53 then (Nat.pow 2 52, e + 1) else (m, e)
    if greatestExponent < e then .infinite negative else .finite negative m e

def ofInt (n : Int) : Binary64 := ofRatio (decide (n < 0)) n.natAbs 1

/-- The number nearest to `± digits · 10 ^ exponent`. Far outside the range of the format the
answer is known without computing the power. -/
def ofDecimal (negative : Bool) (digits : Nat) (exponent : Int) : Binary64 :=
  let size : Int := (toString digits).length + exponent
  if digits = 0 then zero negative
  else if 400 < size then .infinite negative
  else if size < -400 then zero negative
  else if 0 ≤ exponent then ofRatio negative (digits * Nat.pow 10 exponent.toNat) 1
  else ofRatio negative digits (Nat.pow 10 (-exponent).toNat)

def magnitude (mantissa : Nat) (exponent : Int) : Nat × Nat :=
  if 0 ≤ exponent then (mantissa * Nat.pow 2 exponent.toNat, 1)
  else (mantissa, Nat.pow 2 (-exponent).toNat)

def neg : Binary64 → Binary64
  | nan => nan
  | infinite s => infinite !s
  | finite s m e => finite (!s) m e

def toRatio? : Binary64 → Option (Int × Nat)
  | finite s m e =>
    let (n, d) := magnitude m e
    some (if s then -(n : Int) else n, d)
  | _ => none

def add (a b : Binary64) : Binary64 :=
  match a, b with
  | nan, _ => nan
  | _, nan => nan
  | infinite s, infinite t => if s = t then infinite s else nan
  | infinite s, finite .. => infinite s
  | finite .., infinite t => infinite t
  | finite s m e, finite t n f =>
    let (x, dx) := magnitude m e
    let (y, dy) := magnitude n f
    let sx : Int := if s then -(x : Int) else x
    let sy : Int := if t then -(y : Int) else y
    let sum := sx * dy + sy * dx
    if sum = 0 then zero (s && t) else ofRatio (decide (sum < 0)) sum.natAbs (dx * dy)

def mul (a b : Binary64) : Binary64 :=
  match a, b with
  | nan, _ => nan
  | _, nan => nan
  | infinite s, infinite t => infinite (s != t)
  | infinite s, finite t n _ => if n = 0 then nan else infinite (s != t)
  | finite s m _, infinite t => if m = 0 then nan else infinite (s != t)
  | finite s m e, finite t n f =>
    let (x, dx) := magnitude m e
    let (y, dy) := magnitude n f
    ofRatio (s != t) (x * y) (dx * dy)

def equalsInt (a : Binary64) (n : Int) : Bool :=
  match a.toRatio? with
  | some (x, d) => x == n * d
  | none => false

def sameValue : Binary64 → Binary64 → Bool
  | nan, _ => false
  | _, nan => false
  | infinite s, infinite t => s == t
  | finite s m e, finite t n f => (m == 0 && n == 0) || (s == t && m == n && e == f)
  | _, _ => false

def digitRun? : List Char → Option (List Nat)
  | [] => some []
  | [c] => (Text.decimalDigit? c).map ([·])
  | c :: '_' :: cs => do
    let d ← Text.decimalDigit? c
    match cs with
    | [] => none
    | _ => return d :: (← digitRun? cs)
  | c :: cs => return (← Text.decimalDigit? c) :: (← digitRun? cs)

def takeSign : List Char → Bool × List Char
  | '-' :: cs => (true, cs)
  | '+' :: cs => (false, cs)
  | cs => (false, cs)

/-- The exponent part of a numeral, after its letter. -/
def exponent? (cs : List Char) : Option Int := do
  let (s, ds) := takeSign cs
  if ds.isEmpty then none
  let n := Text.ofDigits 10 (← digitRun? ds)
  return if s then -(n : Int) else n

/-- The number written by a decimal numeral without sign: digits with a point somewhere and an
exponent perhaps. -/
def unsignedNumeral? (negative : Bool) (cs : List Char) : Option Binary64 := do
  let (mantissa, rest) := (cs.takeWhile fun c => c != 'e' && c != 'E',
    cs.dropWhile fun c => c != 'e' && c != 'E')
  let e ← match rest with
    | [] => some 0
    | _ :: ds => exponent? ds
  let (whole, fraction) := Text.cutAt '.' mantissa
  let a ← digitRun? whole
  let b ← digitRun? (fraction.getD [])
  if a.isEmpty && b.isEmpty then none
  return ofDecimal negative (Text.ofDigits 10 (a ++ b)) (e - b.length)

/-- The number written by a text: a decimal numeral, or a name of infinity or of no number in
any letter case, with a sign and blanks around it. -/
def ofChars? (cs : List Char) : Option Binary64 :=
  let (s, body) := takeSign (Text.trimNumber cs)
  let word := String.ofList (body.map Char.toLower)
  if word = "inf" ∨ word = "infinity" then some (.infinite s)
  else if word = "nan" then some .nan
  else unsignedNumeral? s body

end Binary64

end TabPackager
