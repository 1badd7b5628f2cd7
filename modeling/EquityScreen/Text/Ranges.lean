/-!
# Ranges of characters

A property of characters is given by the ranges of the numbers of those that have it. A range holds both its ends.
-/

namespace EquityScreen.Text

/-- One of the ranges holds the number. -/
def inRanges (n : Nat) (ranges : List (Nat × Nat)) : Bool :=
  ranges.any fun (low, high) => low ≤ n && n ≤ high

end EquityScreen.Text
