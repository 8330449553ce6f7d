/-!
# Ranges of characters

Classes of characters are given as lists of ranges of code points, ends included.
-/

namespace Intake.Text

def inRanges (ranges : List (Nat × Nat)) (n : Nat) : Bool :=
  ranges.any fun r => r.1 ≤ n && n ≤ r.2

end Intake.Text
