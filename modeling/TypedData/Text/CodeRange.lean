/-!
# Sets of characters as ranges

A property of characters is given as the list of the ranges of code points that have it, in
ascending order, both ends included.
-/

namespace TypedData

/-- The code points from the first to the second component. -/
abbrev CodeRange := Nat × Nat

/-- Whether a character lies in one of the ranges. -/
def inRanges (ranges : List CodeRange) (c : Char) : Bool :=
  ranges.any fun range => range.1 ≤ c.toNat && c.toNat ≤ range.2

end TypedData
