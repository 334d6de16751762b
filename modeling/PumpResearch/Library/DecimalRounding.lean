import PumpResearch.Library.PyDecimal

/-! Quantizing decimals under a working precision, and rounding half away from zero. Where the
precision has room for the rounded number, quantizing is rounding. -/
namespace PyDecimal

/-! ### Quantizing -/

inductive DecimalError where
  | invalidOperation
  | valueError
deriving DecidableEq

/-- `MAX_PREC`, the greatest precision of a context. -/
def maxPrec : Nat := 999999999999999999

/-- `Emax` of the default context. Its `Emin` is the opposite. -/
def emax : Int := 999999

/-- How many digits `as_tuple` gives a coefficient. -/
def digitCount (coefficient : Nat) : Nat := Nat.log 10 coefficient + 1

/-- A coefficient at another exponent, rounded half up. -/
def unitsAt (target : Int) (coefficient : Nat) (exponent : Int) : Nat :=
  if target ≤ exponent then coefficient * 10 ^ (exponent - target).toNat
  else
    let divisor := 10 ^ (target - exponent).toNat
    (coefficient + divisor / 2) / divisor

/-- Whether a context has room for a coefficient at an exponent. -/
def hasRoom (prec : Nat) (target : Int) (coefficient : Nat) : Bool :=
  -emax - prec + 1 ≤ target && target ≤ emax && digitCount coefficient ≤ prec &&
    target + digitCount coefficient - 1 ≤ emax

/-- `quantize` to the exponent of a finite decimal, with `ROUND_HALF_UP`, in a context of this
precision. -/
def quantize (prec : Nat) (target : Int) : PyDecimal → Except DecimalError PyDecimal
  | .finite negative coefficient exponent =>
    let units := unitsAt target coefficient exponent
    if hasRoom prec target units then .ok (.finite negative units target)
    else .error .invalidOperation
  | .infinity _ => .error .invalidOperation
  | .nan => .ok .nan

/-- The setter of a context's precision. -/
def setPrec (precision : Nat) : Except DecimalError Nat :=
  if precision ≤ maxPrec then .ok precision else .error .valueError

/-- Equality of decimals: of their numbers, and of nothing to a NaN. -/
def numberEq (d d' : PyDecimal) : Bool :=
  match d.number, d'.number with
  | .rational q, .rational q' => q = q'
  | .infinity b, .infinity b' => b = b'
  | _, _ => false

/-! ### Rounding -/

/-- The number of a finite decimal. -/
def value (negative : Bool) (coefficient : Nat) (exponent : Int) : ℚ :=
  signed negative (coefficient * (10 : ℚ) ^ exponent)

/-- A number rounded half away from zero to a number of places. -/
def roundHalfAway (places : Int) (q : ℚ) : ℚ :=
  let magnitude := ⌊|q| * (10 : ℚ) ^ places + 1 / 2⌋ * (10 : ℚ) ^ (-places)
  if q < 0 then -magnitude else magnitude

theorem numberEq_finite {b b' : Bool} {c c' : Nat} {e e' : Int} :
    numberEq (.finite b c e) (.finite b' c' e') = true ↔ value b c e = value b' c' e' := by
  rw [numberEq, number, number, decide_eq_true_eq]
  rfl

theorem abs_signed {b : Bool} {q : ℚ} (h : 0 ≤ q) : |signed b q| = q := by
  cases b with
  | true => rw [signed, if_pos rfl, abs_neg, abs_of_nonneg h]
  | false => rw [signed, if_neg Bool.false_ne_true, abs_of_nonneg h]

/-- The units at an exponent are the number rounded half up. -/
theorem floor_unitsAt (places : Int) (c : Nat) (e : Int) :
    ⌊(c : ℚ) * (10 : ℚ) ^ e * (10 : ℚ) ^ places + 1 / 2⌋ = unitsAt (-places) c e := by
  have hten : (10 : ℚ) ≠ 0 := by norm_num
  rw [mul_assoc, ← zpow_add₀ hten, unitsAt]
  by_cases h : -places ≤ e
  · rw [if_pos h]
    obtain ⟨k, hk⟩ := Int.eq_ofNat_of_zero_le (show 0 ≤ e + places by omega)
    have hnat : (e - -places).toNat = k := by omega
    rw [hnat, hk, zpow_natCast]
    have hcast : (c : ℚ) * 10 ^ k = ((c * 10 ^ k : Nat) : Int) := by push_cast; rfl
    rw [hcast, Int.floor_intCast_add, show ⌊(1 : ℚ) / 2⌋ = 0 by norm_num, add_zero]
  · rw [if_neg h]
    obtain ⟨k, hk⟩ := Int.eq_ofNat_of_zero_le (show 0 ≤ -places - e - 1 by omega)
    have hnat : (-places - e).toNat = k + 1 := by omega
    have hexp : e + places = -((k + 1 : Nat) : Int) := by push_cast; omega
    have hhalf : 10 ^ (k + 1) / 2 = 5 * 10 ^ k := by rw [pow_succ]; omega
    have hfloor := Rat.floor_natCast_div_natCast (c + 5 * 10 ^ k) (10 ^ (k + 1))
    have hsame : ((c + 5 * 10 ^ k : Nat) : ℚ) / ((10 ^ (k + 1) : Nat) : ℚ) =
        (c : ℚ) * ((10 : ℚ) ^ (k + 1))⁻¹ + 1 / 2 := by
      push_cast
      field_simp
      ring
    rw [hnat, hexp, zpow_neg, zpow_natCast, ← hsame, hfloor]
    simp only [hhalf, Int.natCast_div]

theorem unitsAt_zero (target e : Int) : unitsAt target 0 e = 0 := by
  rw [unitsAt]
  split
  · exact Nat.zero_mul _
  · have hlt : 10 ^ (target - e).toNat / 2 < 10 ^ (target - e).toNat :=
      Nat.div_lt_self (by positivity) (by norm_num)
    simp only [Nat.zero_add, Nat.div_eq_of_lt hlt]

/-- The units at an exponent, with the sign, are the number rounded half away from zero. -/
theorem value_unitsAt (b : Bool) (places : Int) (c : Nat) (e : Int) :
    value b (unitsAt (-places) c e) (-places) = roundHalfAway places (value b c e) := by
  have hnonneg : (0 : ℚ) ≤ c * (10 : ℚ) ^ e := by positivity
  simp only [roundHalfAway, value, abs_signed hnonneg, floor_unitsAt, Int.cast_natCast]
  cases b with
  | false =>
    simp only [signed, Bool.false_eq_true, if_false]
    rw [if_neg (not_lt.mpr hnonneg)]
  | true =>
    simp only [signed, if_true]
    by_cases hc : c = 0
    · simp [hc, unitsAt_zero]
    · have hpos : (0 : ℚ) < c * (10 : ℚ) ^ e := by positivity
      rw [if_pos (neg_lt_zero.mpr hpos)]

/-- A number of so many places is its own rounding. -/
theorem roundHalfAway_value (b : Bool) (places : Int) (c : Nat) :
    roundHalfAway places (value b c (-places)) = value b c (-places) := by
  rw [← value_unitsAt]
  have hunits : unitsAt (-places) c (-places) = c := by
    rw [unitsAt, if_pos le_rfl, sub_self]
    exact Nat.mul_one c
  rw [hunits]

/-- Numbers of one exponent are equal only with equal coefficients. -/
theorem coefficient_inj {b b' : Bool} {c c' : Nat} {e : Int} (h : value b c e = value b' c' e) :
    c = c' := by
  have habs := congrArg abs h
  rw [value, value, abs_signed (by positivity), abs_signed (by positivity)] at habs
  have hpos : (10 : ℚ) ^ e ≠ 0 := by positivity
  exact_mod_cast mul_right_cancel₀ hpos habs

end PyDecimal
