import TabPackager.Config.Reading

/-!
# Places in a YAML text

The rest of the text at a place together with the line, the column and the count of characters
before it, and the classes of characters on which the rules of the notation depend.
-/

namespace TabPackager.Yaml

open Config

def isBreak (c : Char) : Bool :=
  c == '\n' || c.toNat == 0x85 || c.toNat == 0x2028 || c.toNat == 0x2029

def isSpacing (c : Char) : Bool := c == ' ' || c == '\t' || isBreak c

def isSpaceOrBreak (c : Char) : Bool := c == ' ' || isBreak c

def isAllowed (c : Char) : Bool :=
  let n := c.toNat
  n == 9 || n == 10 || n == 13 || (decide (0x20 ≤ n) && decide (n ≤ 0x7E)) || n == 0x85 ||
    (decide (0xA0 ≤ n) && decide (n ≤ 0xD7FF)) || (decide (0xE000 ≤ n) && decide (n ≤ 0xFFFD)) ||
    decide (0x10000 ≤ n)

def byteOrderMark : Char := Char.ofNat 0xFEFF

def isNameChar (c : Char) : Bool := c.isAlphanum || c == '-' || c == '_'

structure Cursor where
  rest : List Char
  index : Nat := 0
  line : Nat := 0
  column : Nat := 0

namespace Cursor

def peek (k : Cursor) : Option Char := k.rest.head?

/-- The character so many places ahead. -/
def peekAt (k : Cursor) (n : Nat) : Option Char := (k.rest.drop n).head?

/-- Whether the character so many places ahead is in the class, or the text ends there. -/
def endsAt (k : Cursor) (n : Nat) (p : Char → Bool) : Bool := (k.peekAt n).all p

def next (k : Cursor) : Cursor :=
  match k.rest with
  | [] => k
  | c :: cs =>
    if isBreak c then ⟨cs, k.index + 1, k.line + 1, 0⟩
    else ⟨cs, k.index + 1, k.line, if c = byteOrderMark then k.column else k.column + 1⟩

def skip (k : Cursor) : Nat → Cursor
  | 0 => k
  | n + 1 => k.next.skip n

def takeWhile (k : Cursor) (p : Char → Bool) : List Char × Cursor :=
  let cs := k.rest.takeWhile p
  (cs, k.skip cs.length)

def skipWhile (k : Cursor) (p : Char → Bool) : Cursor := (k.takeWhile p).2

/-- The line break at the place, as it is kept in a scalar, and the place after it. The first two
kinds of break become a line feed. -/
def takeBreak (k : Cursor) : List Char × Cursor :=
  match k.peek with
  | some c =>
    if isBreak c then ([if c.toNat = 0x85 then '\n' else c], k.next) else ([], k)
  | none => ([], k)

def atDocumentMark (k : Cursor) : Bool :=
  match k.rest with
  | a :: b :: c :: _ => a == b && b == c && (a == '-' || a == '.') && k.endsAt 3 isSpacing
  | _ => false

def skipLineRest (k : Cursor) : Reading Cursor :=
  let k := k.skipWhile (· == ' ')
  let k := if k.peek = some '#' then k.skipWhile (fun c => !isBreak c) else k
  if k.endsAt 0 isBreak then .ok k.takeBreak.2 else malformed

end Cursor

end TabPackager.Yaml
