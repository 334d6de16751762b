import Mathlib

/-! Stages of a step path. The bounds increase, and the stage of a point is the number of bounds it
has reached, so the next bound is the first point of the next stage. -/
namespace Staircase
variable {K : Type*} [LinearOrder K]

/-- The number of bounds at or below a point. -/
def stage (bounds : List K) (x : K) : Nat := bounds.countP fun bound => bound ≤ x

end Staircase
