import Mathlib

/-! Instants and row identifiers of the stored tables. An instant is a count of
microseconds since the epoch, in UTC. -/
namespace PumpResearch

/-- A UUID as its 128-bit number; the database orders UUIDs in this order. -/
abbrev Uuid := Nat

def seconds (n : Int) : Int := n * 1000000

/-- `value.replace(second=0, microsecond=0)`. -/
def minuteStart (t : Int) : Int := t - t % 60000000

theorem minuteStart_le (t : Int) : minuteStart t ≤ t := by
  unfold minuteStart
  omega

theorem lt_minuteStart_add (t : Int) : t < minuteStart t + 60000000 := by
  unfold minuteStart
  omega

theorem minuteStart_mono {s t : Int} (h : s ≤ t) : minuteStart s ≤ minuteStart t := by
  unfold minuteStart
  omega

/-- An instant at or after the start of a minute and at or before an instant of it. -/
theorem minuteStart_eq_of_le {s t : Int} (h : minuteStart t ≤ s) (hs : s ≤ t) :
    minuteStart s = minuteStart t := by
  unfold minuteStart at *
  omega

end PumpResearch
