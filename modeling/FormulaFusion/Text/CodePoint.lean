/-!
# Sets of characters given by ranges

A character property is a list of closed ranges of code points; `inRanges` decides it.
-/

namespace FormulaFusion

/-- Whether the code point of `c` lies in one of the closed ranges. -/
def inRanges (ranges : List (Nat × Nat)) (c : Char) : Bool :=
  ranges.any fun range => decide (range.1 ≤ c.toNat) && decide (c.toNat ≤ range.2)

end FormulaFusion
