/-!
# Classes of characters

A class of characters is written as closed ranges of code points, ascending and apart.
-/

namespace SqlTree.Text

/-- Whether a code point lies in one of the ranges. -/
def inRanges (ranges : List (Nat × Nat)) (n : Nat) : Bool := ranges.any fun r => r.1 ≤ n && n ≤ r.2

end SqlTree.Text
