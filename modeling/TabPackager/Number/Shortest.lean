import TabPackager.Number.Binary64

/-!
# Shortest decimal text

A binary floating-point number is written with the fewest decimal digits that read back as the
same number, and among those with the digits nearest to it. The digits stand positionally while
the decimal exponent is at least -4 and below 16, and with an exponent outside.
-/

namespace TabPackager.Binary64

/-- The numbers that round to `m · 2 ^ e` lie between these two bounds, given over a common
denominator: lower numerator, value, upper numerator, denominator. -/
def roundingInterval (m : Nat) (e : Int) : Nat × Nat × Nat × Nat :=
  let (lo, mid, hi) :=
    if m = Nat.pow 2 52 ∧ leastExponent < e then (4 * m - 1, 4 * m, 4 * m + 2)
    else (4 * m - 2, 4 * m, 4 * m + 2)
  if 0 ≤ e then (lo * Nat.pow 2 e.toNat, mid * Nat.pow 2 e.toNat, hi * Nat.pow 2 e.toNat, 4)
  else (lo, mid, hi, 4 * Nat.pow 2 (-e).toNat)

def leadingPlaces (num den : Nat) : Nat → Nat
  | 0 => 0
  | bound + 1 => if den ≤ num then 0 else leadingPlaces (num * 10) den bound + 1

/-- The position of the decimal point relative to the first digit of `num / den`: one for the
numbers from one to ten. -/
def pointPosition (num den : Nat) : Int :=
  if den ≤ num then (toString (num / den)).length else 1 - (leadingPlaces num den 400 : Int)

/-- A multiple of `10 ^ scale` next to the value that reads back as the same number: of the two
neighbours the nearer one, and the even one of two equally near. -/
def neighbour? (even : Bool) (lo mid hi den : Nat) (scale : Int) : Option Nat :=
  -- all four numbers as multiples of `unit` over `den`
  let up := if 0 ≤ scale then 1 else Nat.pow 10 (-scale).toNat
  let unit := if 0 ≤ scale then den * Nat.pow 10 scale.toNat else den
  let below := mid * up / unit
  let inside (c : Nat) : Bool :=
    if even then decide (lo * up ≤ c * unit) && decide (c * unit ≤ hi * up)
    else decide (lo * up < c * unit) && decide (c * unit < hi * up)
  let above := below + 1
  match inside below, inside above with
  | false, false => none
  | true, false => some below
  | false, true => some above
  | true, true =>
    let deficit := mid * up - below * unit
    let excess := above * unit - mid * up
    some (if deficit < excess then below else if excess < deficit then above
      else if below % 2 = 0 then below else above)

/-- The first of the digit counts `count, count + 1, …` whose grid has a hit: the digits as a
number, and the count. -/
def firstGrid (even : Bool) (lo mid hi den : Nat) (point : Int) : Nat → Nat → Nat × Nat
  | count, 0 => (mid / den, count)
  | count, bound + 1 =>
    match neighbour? even lo mid hi den (point - count) with
    | some c => (c, count)
    | none => firstGrid even lo mid hi den point (count + 1) bound

def shortestDigits (m : Nat) (e : Int) : List Char × Int :=
  let (lo, mid, hi, den) := roundingInterval m e
  let point := pointPosition mid den
  let (c, count) := firstGrid (m % 2 == 0) lo mid hi den point 1 17
  let digits := (toString c).toList
  -- a value just below a power of ten rounds up to one more digit
  let point := point + ((digits.length : Int) - count)
  ((digits.reverse.dropWhile (· == '0')).reverse, point)

def placePoint (digits : List Char) (point : Int) : List Char :=
  let count : Int := digits.length
  if -4 < point ∧ point ≤ 16 then
    if point ≤ 0 then '0' :: '.' :: List.replicate (-point).toNat '0' ++ digits
    else if count ≤ point then digits ++ List.replicate (point - count).toNat '0' ++ ['.', '0']
    else digits.take point.toNat ++ '.' :: digits.drop point.toNat
  else
    let exponent := point - 1
    let mantissa := match digits with
      | [] => []
      | [d] => [d]
      | d :: ds => d :: '.' :: ds
    let sign := if exponent < 0 then '-' else '+'
    mantissa ++ 'e' :: sign :: (Text.padded 2 exponent.natAbs).toList

def text : Binary64 → String
  | .nan => "nan"
  | .infinite s => if s then "-inf" else "inf"
  | .finite s m e =>
    let body :=
      if m = 0 then ['0', '.', '0']
      else let (digits, point) := shortestDigits m e; placePoint digits point
    String.ofList (if s then '-' :: body else body)

end TabPackager.Binary64
