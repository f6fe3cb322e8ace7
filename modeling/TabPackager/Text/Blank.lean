/-!
# Blank characters and trimming

The characters that count as white space, in texts and around numbers, and the text that is left
when they are taken from both ends. Trimming is idempotent and leaves a text without blank ends
unchanged.
-/

namespace TabPackager.Text

/-- White space: the ASCII spacing controls, the four ASCII separators, the next-line control
and the space separators of all scripts. -/
def isBlank (c : Char) : Bool :=
  let n := c.toNat
  (decide (9 ≤ n) && decide (n ≤ 13)) || (decide (28 ≤ n) && decide (n ≤ 32)) || n == 0x85 ||
    n == 0xA0 || n == 0x1680 || (decide (0x2000 ≤ n) && decide (n ≤ 0x200A)) || n == 0x2028 ||
    n == 0x2029 || n == 0x202F || n == 0x205F || n == 0x3000

/-- White space around a number: all but the four ASCII separators. -/
def isNumberBlank (c : Char) : Bool :=
  isBlank c && !(decide (28 ≤ c.toNat) && decide (c.toNat ≤ 31))

def trimEnd (blank : Char → Bool) (cs : List Char) : List Char :=
  (cs.reverse.dropWhile blank).reverse

def trimChars (blank : Char → Bool) (cs : List Char) : List Char :=
  trimEnd blank (cs.dropWhile blank)

def trim (s : String) : String := String.ofList (trimChars isBlank s.toList)

def trimNumber (cs : List Char) : List Char := trimChars isNumberBlank cs

end TabPackager.Text
