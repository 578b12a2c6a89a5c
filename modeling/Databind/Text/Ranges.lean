/-!
# `Text.Ranges` — sets of characters given by ranges of code points
-/

namespace Databind.Text

/-- Whether a code point lies in one of the ranges, both ends included. -/
def inRanges (table : Array (Nat × Nat)) (code : Nat) : Bool :=
  table.any fun range => decide (range.1 ≤ code) && decide (code ≤ range.2)

end Databind.Text
