/-!
Sets of characters given as a table of code point ranges.
-/

namespace Comfort
namespace Text

/-- Ascending, disjoint ranges of code points, both ends included. -/
abbrev RangeTable := List (Nat × Nat)

namespace RangeTable

/-- The search stops at the first range that begins above `n`, as the ranges ascend. -/
def contains : RangeTable → Nat → Bool
  | [], _ => false
  | (lo, hi) :: rest, n => if n < lo then false else n ≤ hi || contains rest n

end RangeTable
end Text
end Comfort
