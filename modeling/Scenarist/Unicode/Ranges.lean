/-!
# Sets of code points

A set of code points is a list of closed ranges in increasing order.
-/

namespace Scenarist.Unicode

/-- Whether `n` lies in one of the ranges, which come in increasing order. -/
def inRanges : List (Nat × Nat) → Nat → Bool
  | [], _ => false
  | (lo, hi) :: rest, n => if n < lo then false else if n ≤ hi then true else inRanges rest n

end Scenarist.Unicode
