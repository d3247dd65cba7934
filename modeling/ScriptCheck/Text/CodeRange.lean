/-!
# Sets of characters as ranges of code points

A property of characters is stored as the list of the closed ranges of code points that have it.
-/

namespace ScriptCheck.Text

/-- Whether code point `n` lies in one of the closed ranges. -/
def inRanges (ranges : List (Nat × Nat)) (n : Nat) : Bool :=
  ranges.any fun r => r.1 ≤ n && n ≤ r.2

end ScriptCheck.Text
