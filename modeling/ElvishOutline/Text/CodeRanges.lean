/-!
# Sets of code points as ranges

A property of characters is given by the ranges of code points that have it. The tables of
single properties are in modules of their own.
-/

namespace ElvishOutline.Text

/-- The code points from `first` to `last`, both included. -/
structure CodeRange where
  first : Nat
  last : Nat
  deriving DecidableEq, Repr

/-- Whether the range holds the code point. -/
def CodeRange.holds (range : CodeRange) (code : Nat) : Bool :=
  range.first ≤ code && code ≤ range.last

/-- Whether one of the ranges holds the code point. -/
def inRanges (ranges : List CodeRange) (code : Nat) : Bool :=
  ranges.any (·.holds code)

/-- The ranges named by a list of pairs. -/
def CodeRange.ofPairs (pairs : List (Nat × Nat)) : List CodeRange :=
  pairs.map fun (first, last) => ⟨first, last⟩

end ElvishOutline.Text
