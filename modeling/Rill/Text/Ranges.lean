/-!
# Ranges of characters

A property of characters is given by the ranges of code points that have it, in ascending order.
-/

namespace Rill

/-- Ranges of code points, each by its first and its last one. -/
abbrev Ranges := List (Nat × Nat)

/-- Whether a character lies in one of some ranges. -/
def Ranges.contains (ranges : Ranges) (c : Char) : Bool :=
  ranges.any fun (first, last) => first ≤ c.toNat && c.toNat ≤ last

end Rill
