import SqfLayout.Text

/-! Sets of code points given by ranges. -/
namespace SqfLayout

/-- Ranges of code points, both ends included, in ascending order and apart from each other. -/
abbrev Ranges := List (Nat × Nat)

namespace Ranges

/-- Stops at the first range that starts above the point. -/
def contains : Ranges → Nat → Bool
  | [], _ => false
  | (low, high) :: rest, point =>
    if point < low then false else decide (point ≤ high) || contains rest point

/-- Each range is not empty, and the next one starts above it. -/
def ascending : Ranges → Bool
  | [] => true
  | [(low, high)] => decide (low ≤ high)
  | (low, high) :: (low', high') :: rest =>
    decide (low ≤ high) && decide (high < low') && ascending ((low', high') :: rest)

end Ranges
end SqfLayout
