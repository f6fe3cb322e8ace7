/-!
# Surrogates

Code units of sixteen bits. Two of them, a high and a low surrogate, stand together for one
character above the first 65,536; no character stands for a surrogate alone.
-/

namespace TabPackager.Text

def isHighSurrogate (n : Nat) : Bool := decide (0xD800 ≤ n) && decide (n < 0xDC00)

def isLowSurrogate (n : Nat) : Bool := decide (0xDC00 ≤ n) && decide (n < 0xE000)

def surrogatePair (high low : Nat) : Char :=
  Char.ofNat (0x10000 + (high - 0xD800) * 0x400 + (low - 0xDC00))

/-- The character of a code point. A surrogate without a partner is shown as the replacement
character. -/
def codePoint (n : Nat) : Char :=
  if isHighSurrogate n || isLowSurrogate n then Char.ofNat 0xFFFD else Char.ofNat n

end TabPackager.Text
