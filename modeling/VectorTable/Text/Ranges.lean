/-! Sets of characters as lists of ranges of code points, both ends included. -/
namespace VectorTable

def inRanges (ranges : List (Nat × Nat)) (v : Nat) : Bool :=
  ranges.any fun r => r.1 ≤ v && v ≤ r.2

end VectorTable
