/-!
# Code point ranges

Sets of characters given as tables of code point ranges, in increasing order and without overlap.
-/

namespace MapStyle.Text

/-- Whether a code point lies in one of the ranges, both ends included. -/
def inRanges (n : Nat) : List (Nat × Nat) → Bool
  | [] => false
  | (first, last) :: rest => if n < first then false else n ≤ last || inRanges n rest

end MapStyle.Text
