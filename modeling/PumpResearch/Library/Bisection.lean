import Mathlib

/-! Bisection of a level that fits a budget. After a fixed number of halvings the lower end is
the greatest grid level that fits, whenever lower levels fit if higher ones do. -/
namespace Bisection
variable {K : Type*} [Field K]

/-- Halve a bracket, keeping the half whose lower end fits. -/
def halve (fits : K → Bool) (bracket : K × K) : K × K :=
  let level := (bracket.1 + bracket.2) / 2
  if fits level then (level, bracket.2) else (bracket.1, level)

def bisect (fits : K → Bool) : ℕ → K × K → K × K
  | 0, bracket => bracket
  | steps + 1, bracket => bisect fits steps (halve fits bracket)

/-- The greatest multiple of `high / 2 ^ steps`, up to `high`, that fits. -/
def greatestLevel (fits : K → Bool) (steps : ℕ) (high : K) : K :=
  Nat.findGreatest (fun k => fits (k * (high / 2 ^ steps))) (2 ^ steps) * (high / 2 ^ steps)

section Grid
variable [CharZero K] {fits : K → Bool}

/-- From a bracket of `2 ^ steps` grid cells, bisection ends in the lower end of a cell that
separates what fits from what does not. -/
theorem bisect_cell (fits : K → Bool) (steps : ℕ) (cell : K) (k : ℕ)
    (hlow : fits (k * 2 ^ steps * cell)) (hhigh : ¬ fits ((k + 1) * 2 ^ steps * cell)) :
    ∃ j : ℕ, j < (k + 1) * 2 ^ steps ∧
      (bisect fits steps (k * 2 ^ steps * cell, (k + 1) * 2 ^ steps * cell)).1 = j * cell ∧
      fits (j * cell) ∧ ¬ fits ((j + 1) * cell) := by
  induction steps generalizing k with
  | zero =>
    simp only [pow_zero, mul_one] at hlow hhigh ⊢
    exact ⟨k, by omega, rfl, hlow, hhigh⟩
  | succ steps ih =>
    have hmid : (k * 2 ^ (steps + 1) * cell + (k + 1) * 2 ^ (steps + 1) * cell) / 2 =
        ((2 * k + 1 : ℕ) : K) * 2 ^ steps * cell := by
      push_cast
      field_simp
      ring
    have hleft : (k : K) * 2 ^ (steps + 1) * cell = ((2 * k : ℕ) : K) * 2 ^ steps * cell := by
      push_cast
      ring
    have hright : ((k : K) + 1) * 2 ^ (steps + 1) * cell =
        (((2 * k + 1 : ℕ) : K) + 1) * 2 ^ steps * cell := by
      push_cast
      ring
    rw [bisect, halve]
    simp only [hmid]
    by_cases hfit : fits (((2 * k + 1 : ℕ) : K) * 2 ^ steps * cell) = true
    · rw [if_pos hfit, hright]
      obtain ⟨j, hj, hresult, hcell⟩ := ih (2 * k + 1) hfit (hright ▸ hhigh)
      exact ⟨j, by rw [pow_succ]; linarith, hresult, hcell⟩
    · rw [if_neg hfit, hleft]
      have hnext : ((2 * k + 1 : ℕ) : K) = ((2 * k : ℕ) : K) + 1 := by
        push_cast
        ring
      rw [hnext] at hfit ⊢
      obtain ⟨j, hj, hresult, hcell⟩ := ih (2 * k) (hleft ▸ hlow) hfit
      have hpow : 0 < 2 ^ steps := Nat.two_pow_pos steps
      exact ⟨j, by rw [pow_succ]; linarith, hresult, hcell⟩

end Grid

section Order
variable [LinearOrder K] [IsStrictOrderedRing K] {fits : K → Bool}

/-- Bisection ends at a level that fits, one grid cell below one that does not. -/
theorem bisect_spec (steps : ℕ) {high : K} (hpos : 0 ≤ high) (hzero : fits 0 = true)
    (hhigh : ¬ fits high) :
    0 ≤ (bisect fits steps (0, high)).1 ∧ fits (bisect fits steps (0, high)).1 = true ∧
      ¬ fits ((bisect fits steps (0, high)).1 + high / 2 ^ steps) := by
  have hcell : (2 : K) ^ steps * (high / 2 ^ steps) = high := by field_simp
  obtain ⟨j, _, hresult, hfit, hnot⟩ := bisect_cell fits steps (high / 2 ^ steps) 0
    (by simpa using hzero) (by simpa [hcell] using hhigh)
  simp only [Nat.cast_zero, zero_mul, zero_add, one_mul, hcell] at hresult
  rw [hresult]
  refine ⟨by positivity, hfit, ?_⟩
  rwa [add_one_mul] at hnot

theorem fits_greatestLevel (hzero : fits 0 = true) (steps : ℕ) (high : K) :
    fits (greatestLevel fits steps high) = true := by
  have hspec := Nat.findGreatest_spec (P := fun k : ℕ => fits (k * (high / 2 ^ steps)) = true)
    (Nat.zero_le (2 ^ steps)) (by simpa using hzero)
  exact hspec

end Order

end Bisection
