/-! Sets of characters as tables of code point ranges. -/

namespace ToolPipeline.Text

/-- Inclusive ranges of code points, in increasing order. -/
abbrev Ranges := Array (Nat × Nat)

namespace Ranges

/-- The number of ranges that begin at or before a code point, by halving the interval. -/
def countUpTo (ranges : Ranges) (code : Nat) : (fuel low high : Nat) → Nat
  | 0, low, _ => low
  | fuel + 1, low, high =>
    if low < high then
      let middle := (low + high) / 2
      if (ranges.getD middle (0, 0)).1 ≤ code then countUpTo ranges code fuel (middle + 1) high
      else countUpTo ranges code fuel low middle
    else low

def covers (ranges : Ranges) (code : Nat) : Bool :=
  match ranges.countUpTo code (ranges.size.log2 + 1) 0 ranges.size with
  | 0 => false
  | n + 1 => decide (code ≤ (ranges.getD n (0, 0)).2)

end Ranges

end ToolPipeline.Text
