/-!
# Ranges and runs of code points

Character classes are data: closed ranges, and runs that step evenly through a block in which small
and capital letters alternate.
-/

set_option autoImplicit false

namespace Recast.Text

def inRanges (ranges : List (Nat × Nat)) (n : Nat) : Bool :=
  ranges.any fun range => range.1 ≤ n && n ≤ range.2

/-- The code points `first`, `first + step`, and so on up to `last`. -/
structure Run where
  first : Nat
  last : Nat
  step : Nat
  deriving Repr

def Run.mem (n : Nat) (run : Run) : Bool :=
  run.first ≤ n && n ≤ run.last && (n - run.first) % run.step == 0

end Recast.Text
