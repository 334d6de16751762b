import Mathlib

/-! Rounding to 53 significant bits, ties to even, as binary64 rounds within its normal range. -/
namespace Binary64

def roundHalfEven (x : ℚ) : Int :=
  if x - ⌊x⌋ < 1 / 2 ∨ (x - ⌊x⌋ = 1 / 2 ∧ ⌊x⌋ % 2 = 0) then ⌊x⌋ else ⌊x⌋ + 1

/-- The distance of neighbouring numbers around `x`. -/
def unit (x : ℚ) : ℚ := 2 ^ (Int.log 2 |x| - 52)

def round (x : ℚ) : ℚ := roundHalfEven (x / unit x) * unit x

theorem roundHalfEven_intCast (n : Int) : roundHalfEven n = n := by
  simp [roundHalfEven]

/-- A number of 53 significant bits is not rounded. -/
theorem round_of_dyadic (m k : Int) (hm : |m| < 2 ^ 53) :
    round ((m : ℚ) * 2 ^ k) = (m : ℚ) * 2 ^ k := by
  by_cases hzero : m = 0
  · have hround : roundHalfEven 0 = 0 := by simpa using roundHalfEven_intCast 0
    simp [hzero, round, hround]
  have hpos : 0 < |(m : ℚ) * 2 ^ k| := by
    rw [abs_pos]
    exact mul_ne_zero (Int.cast_ne_zero.mpr hzero) (zpow_ne_zero _ two_ne_zero)
  have hlog : Int.log 2 |(m : ℚ) * 2 ^ k| ≤ k + 52 := by
    have hscale : (0 : ℚ) < 2 ^ k := zpow_pos two_pos k
    have hcast : |(m : ℚ)| < 2 ^ (53 : ℤ) := by exact_mod_cast hm
    have hlt : |(m : ℚ) * 2 ^ k| < ((2 : Nat) : ℚ) ^ (k + 53) := by
      rw [abs_mul, abs_of_pos hscale, Nat.cast_ofNat, zpow_add₀ two_ne_zero, mul_comm]
      exact mul_lt_mul_of_pos_left hcast hscale
    have hbelow := (Int.lt_zpow_iff_log_lt Nat.one_lt_two hpos).mp hlt
    omega
  obtain ⟨d, hd⟩ := Int.le.dest (show Int.log 2 |(m : ℚ) * 2 ^ k| - 52 ≤ k by omega)
  have hunit : unit ((m : ℚ) * 2 ^ k) ≠ 0 := zpow_ne_zero _ two_ne_zero
  have hquotient : (m : ℚ) * 2 ^ k / unit ((m : ℚ) * 2 ^ k) = ((m * 2 ^ d : Int) : ℚ) := by
    have hsplit : (2 : ℚ) ^ k = unit ((m : ℚ) * 2 ^ k) * 2 ^ d := by
      rw [unit, ← zpow_natCast, ← zpow_add₀ two_ne_zero, hd]
    rw [div_eq_iff hunit]
    push_cast
    calc (m : ℚ) * 2 ^ k = m * (unit ((m : ℚ) * 2 ^ k) * 2 ^ d) := by rw [← hsplit]
      _ = m * 2 ^ d * unit ((m : ℚ) * 2 ^ k) := by ring
  rw [round, hquotient, roundHalfEven_intCast, ← hquotient, div_mul_cancel₀ _ hunit]

theorem roundHalfEven_close (x : ℚ) : |(roundHalfEven x : ℚ) - x| ≤ 1 / 2 := by
  have hfloor := Int.floor_le x
  have hnext := Int.lt_floor_add_one x
  rw [roundHalfEven, abs_le]
  split
  · next h =>
    have hhalf : x - ⌊x⌋ ≤ 1 / 2 := h.elim le_of_lt fun htie => htie.1.le
    constructor <;> linarith
  · next h =>
    have hhalf : 1 / 2 ≤ x - ⌊x⌋ := not_lt.mp fun hlt => h (.inl hlt)
    push_cast
    constructor <;> linarith

/-- Rounding is off by half a unit in the last place at most. -/
theorem round_close (x : ℚ) : |round x - x| ≤ |x| / 2 ^ 53 := by
  have hunit : 0 < unit x := zpow_pos two_pos _
  by_cases hzero : x = 0
  · have hround : roundHalfEven 0 = 0 := by simpa using roundHalfEven_intCast 0
    simp [hzero, round, hround]
  have hsmall : unit x ≤ |x| / 2 ^ 52 := by
    have hlog := Int.zpow_log_le_self Nat.one_lt_two (abs_pos.mpr hzero)
    rw [unit, zpow_sub₀ two_ne_zero]
    exact div_le_div_of_nonneg_right hlog (by positivity)
  have hscaled : round x - x = (roundHalfEven (x / unit x) - x / unit x) * unit x := by
    rw [sub_mul, div_mul_cancel₀ _ hunit.ne', round]
  have hclose := mul_le_mul_of_nonneg_right (roundHalfEven_close (x / unit x)) hunit.le
  rw [hscaled, abs_mul, abs_of_pos hunit]
  linarith

/-- A tenth and two tenths do not sum to three tenths. -/
example : round (round (1 / 10) + round (2 / 10)) ≠ round (3 / 10) := by decide +kernel

/-! ### Ceilings -/

end Binary64
