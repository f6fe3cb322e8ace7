/-!
# Ranges of code points

A set of characters given as a list of closed intervals of code points, the form in which the
character properties of this library are tabulated.
-/

namespace TabPackager.Text

abbrev Ranges := List (Nat × Nat)

namespace Ranges

def contains (rs : Ranges) (c : Char) : Bool :=
  rs.any fun (lo, hi) => decide (lo ≤ c.toNat) && decide (c.toNat ≤ hi)

end Ranges

end TabPackager.Text
