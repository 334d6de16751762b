import Mathlib

/-! Values of a sorted list at a rank: how many values are on either side, medians, and nearest-rank
quantiles. -/
namespace NearestRanks
variable {α : Type*}

section Order
variable [LinearOrder α]

end Order

section Median
variable [Field α] [LinearOrder α] [IsStrictOrderedRing α]

/-- `statistics.median` of a sorted list: the middle value, or the mean of the two middle ones. -/
def median (xs : List α) : Option α :=
  if xs.length % 2 = 1 then xs[xs.length / 2]?
  else
    match xs[xs.length / 2 - 1]?, xs[xs.length / 2]? with
    | some a, some b => some ((a + b) / (2 : ℕ))
    | _, _ => none

end Median
end NearestRanks
