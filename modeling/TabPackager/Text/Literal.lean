import TabPackager.Text.Digit
import TabPackager.Text.Printable

/-!
# Quoted literals

The quoted form in which names and values appear inside messages: one pair of quotes around the
text, with control characters, unprintable characters and the quote itself escaped. The single
quote is preferred; a text that holds a single quote and no double quote takes double quotes.
-/

namespace TabPackager.Text

def quoteMark (cs : List Char) : Char :=
  if '\'' ∈ cs ∧ '"' ∉ cs then '"' else '\''

def escapedCode (n : Nat) : List Char :=
  if n < 0x100 then '\\' :: 'x' :: hexDigits 2 n
  else if n < 0x10000 then '\\' :: 'u' :: hexDigits 4 n
  else '\\' :: 'U' :: hexDigits 8 n

/-- A character inside a literal with the given quote; `shown` says which characters appear as
themselves. -/
def literalChar (shown : Char → Bool) (mark c : Char) : List Char :=
  if c = mark ∨ c = '\\' then ['\\', c]
  else if c = '\t' then ['\\', 't']
  else if c = '\n' then ['\\', 'n']
  else if c = '\r' then ['\\', 'r']
  else if shown c then [c]
  else escapedCode c.toNat

def literalChars (shown : Char → Bool) (cs : List Char) : List Char :=
  let mark := quoteMark cs
  mark :: cs.flatMap (literalChar shown mark) ++ [mark]

def literal (s : String) : String := String.ofList (literalChars isPrintable s.toList)

/-- The literal of a byte string: the letter b, then the quoted bytes, of which the printable
ASCII ones appear as characters. -/
def bytesLiteral (bytes : List UInt8) : String :=
  let shown (c : Char) : Bool := decide (0x20 ≤ c.toNat) && decide (c.toNat < 0x7F)
  "b" ++ String.ofList (literalChars shown (bytes.map fun b => Char.ofNat b.toNat))

end TabPackager.Text
