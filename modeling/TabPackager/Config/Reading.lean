import TabPackager.Config.Value

/-!
# Reading documents

What the readers of the three notations share: the two ways in which a document fails, the
conversion of decimal numerals, the depth to which values nest, and line ends.
-/

namespace TabPackager.Config

inductive Nest where
  | list
  | mapping
  | either
  deriving DecidableEq, Repr

inductive Direction where
  | ofText
  | toText
  deriving DecidableEq, Repr

/-- Why a value that keeps the rules of its notation is rejected. -/
inductive Rejection where
  /-- A text stands for no value of its type, or a value has no text. -/
  | value {direction : Direction}
  | word
  | shape
  /-- A moment is not the text of its own node. -/
  | origin
  /-- A number has no text. -/
  | empty
  /-- A place of sixtieths counts more than every float. -/
  | place
  /-- The number of an escaped character has more than 31 bits. -/
  | code
  | depth (nest : Nest)
  deriving DecidableEq, Repr

/-- Why a document is not read: it breaks the rules of its notation, or a value that keeps them
is rejected. -/
inductive ReadFault where
  | malformed
  | rejected (why : Rejection)
  deriving DecidableEq, Repr

abbrev Reading := Except ReadFault

def malformed {α : Type} : Reading α := .error .malformed

def decimalInt (negative : Bool) (digits : List Nat) : Reading Int :=
  if numeralLimit < digits.length then .error (.rejected (@Rejection.value .ofText))
  else
    let n : Int := Text.ofDigits 10 digits
    .ok (if negative then -n else n)

def nestingLimit : Nat := 986

def stepDown (nest : Nest) (step depth : Nat) : Reading Nat :=
  if depth < step then .error (.rejected (.depth nest)) else .ok (depth - step)

def digitValue (c : Char) : Nat := c.toNat - 48

def isDecimal (c : Char) : Bool := c.isDigit

def unifyLineEnds : List Char → List Char
  | '\r' :: '\n' :: cs => '\n' :: unifyLineEnds cs
  | '\r' :: cs => '\n' :: unifyLineEnds cs
  | c :: cs => c :: unifyLineEnds cs
  | [] => []

end TabPackager.Config
