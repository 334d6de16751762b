import PumpResearch.Scheduling.CapacityShares

/-! The weighted allocation of a budget for any weights: one common level, as high as the grid of
the bisection lets it be. -/
namespace PumpResearch.Scheduling
open Bisection

section Definitions
variable (weights : CoverageClass → ℚ)

/-- `min(requested_rates[tier], level * weights[tier])`. -/
def leveledBy (rates : CoverageClass → ℚ) (level : ℚ) (tier : CoverageClass) : ℚ :=
  min (rates tier) (level * weights tier)

def highestLevelBy (rates : CoverageClass → ℚ) (tiers : List CoverageClass) : ℚ :=
  (tiers.map fun tier => rates tier / weights tier).max?.getD 0

def levelFitsBy (counts : CoverageClass → Int) (rates : CoverageClass → ℚ)
    (tiers : List CoverageClass) (budget level : ℚ) : Bool :=
  demand counts (leveledBy weights rates level) tiers ≤ budget

/-- `_weighted_rates`, with the weights as an argument. -/
def weightedRatesBy (tiers : List CoverageClass) (counts : CoverageClass → Int)
    (rates : CoverageClass → ℚ) (budget : ℚ) : Except SchedulingError (CoverageClass → ℚ) :=
  let populated := tiers.filter fun tier => 0 < counts tier
  if populated.isEmpty then .ok rates
  else if budget ≤ 0 then
    .error (.value "a populated capacity tier requires a positive budget")
  else if demand counts rates populated ≤ budget then .ok rates
  else
    let low := (bisect (levelFitsBy weights counts rates populated budget) 80
      (0, highestLevelBy weights rates populated)).1
    .ok fun tier => if tier ∈ populated then leveledBy weights rates low tier else rates tier

end Definitions

/-- The planner calls it with its own weights. -/
theorem weightedRates_eq_by : weightedRates = weightedRatesBy capacityWeight := rfl

section Levels
variable {weights rates : CoverageClass → ℚ} {counts : CoverageClass → Int}
  {tiers : List CoverageClass} {budget : ℚ}

/-- Raising the level raises the demand by no more than the weights allow. -/
theorem demand_leveledBy_le (hcounts : ∀ tier ∈ tiers, 0 ≤ counts tier)
    (hweights : ∀ tier ∈ tiers, 0 < weights tier) (level : ℚ) {gap : ℚ} (hgap : 0 ≤ gap) :
    demand counts (leveledBy weights rates (level + gap)) tiers ≤
      demand counts (leveledBy weights rates level) tiers + gap * demand counts weights tiers := by
  unfold demand
  rw [← List.sum_map_mul_left, ← List.sum_map_add]
  refine List.sum_le_sum fun tier htier => ?_
  have hcount : (0 : ℚ) ≤ counts tier := by exact_mod_cast hcounts tier htier
  have hraise : leveledBy weights rates (level + gap) tier ≤
      leveledBy weights rates level tier + gap * weights tier := by
    have hpos := mul_nonneg hgap (hweights tier htier).le
    unfold leveledBy
    rw [← min_add_add_right, add_mul]
    exact min_le_min (by linarith) le_rfl
  calc counts tier * leveledBy weights rates (level + gap) tier
      ≤ counts tier * (leveledBy weights rates level tier + gap * weights tier) :=
        mul_le_mul_of_nonneg_left hraise hcount
    _ = counts tier * leveledBy weights rates level tier + gap * (counts tier * weights tier) := by
        ring

theorem leveledBy_zero (hrates : ∀ tier ∈ tiers, 0 < rates tier) :
    ∀ tier ∈ tiers, leveledBy weights rates 0 tier = 0 := by
  intro tier htier
  rw [leveledBy, zero_mul]
  exact min_eq_right (hrates tier htier).le

theorem le_highestLevelBy (weights rates : CoverageClass → ℚ) {tier : CoverageClass}
    (h : tier ∈ tiers) : rates tier / weights tier ≤ highestLevelBy weights rates tiers := by
  have hmem : rates tier / weights tier ∈ tiers.map fun tier => rates tier / weights tier :=
    List.mem_map_of_mem h
  unfold highestLevelBy
  cases hm : (tiers.map fun tier => rates tier / weights tier).max? with
  | none =>
    rw [List.max?_eq_none_iff.mp hm] at hmem
    cases hmem
  | some high => exact (List.max?_eq_some_iff.mp hm).2 _ hmem

/-- At the highest level every tier has its requested rate. -/
theorem leveledBy_highestLevelBy (hweights : ∀ tier ∈ tiers, 0 < weights tier) :
    ∀ tier ∈ tiers, leveledBy weights rates (highestLevelBy weights rates tiers) tier =
      rates tier := by
  intro tier htier
  have hle := le_highestLevelBy weights rates htier
  rw [div_le_iff₀ (hweights tier htier)] at hle
  exact min_eq_left hle

/-- The bisection brackets the budget. -/
theorem bisect_levelFitsBy (hcounts : ∀ tier ∈ tiers, 0 ≤ counts tier)
    (hrates : ∀ tier ∈ tiers, 0 < rates tier) (hweights : ∀ tier ∈ tiers, 0 < weights tier)
    (hne : tiers ≠ []) (hbudget : 0 < budget) (hover : budget < demand counts rates tiers) :
    ∃ level, (bisect (levelFitsBy weights counts rates tiers budget) 80
        (0, highestLevelBy weights rates tiers)).1 = level ∧ 0 ≤ level ∧
      demand counts (leveledBy weights rates level) tiers ≤ budget ∧
      budget - demand counts (leveledBy weights rates level) tiers ≤
        demand counts weights tiers * highestLevelBy weights rates tiers / 2 ^ 80 := by
  obtain ⟨first, hfirst⟩ := List.exists_mem_of_ne_nil tiers hne
  have hhigh : 0 ≤ highestLevelBy weights rates tiers :=
    (div_pos (hrates first hfirst) (hweights first hfirst)).le.trans
      (le_highestLevelBy weights rates hfirst)
  have hzero : levelFitsBy weights counts rates tiers budget 0 = true := by
    rw [levelFitsBy, decide_eq_true_eq, demand_congr (leveledBy_zero hrates)]
    simpa [demand] using hbudget.le
  have htop : ¬ levelFitsBy weights counts rates tiers budget
      (highestLevelBy weights rates tiers) := by
    rw [levelFitsBy, decide_eq_true_eq, demand_congr (leveledBy_highestLevelBy hweights)]
    exact not_le.mpr hover
  obtain ⟨hnonneg, hfits, hnext⟩ := bisect_spec 80 hhigh hzero htop
  refine ⟨_, rfl, hnonneg, ?_, ?_⟩
  · rwa [levelFitsBy, decide_eq_true_eq] at hfits
  · rw [levelFitsBy, decide_eq_true_eq, not_le] at hnext
    have hraise := @demand_leveledBy_le weights rates counts tiers hcounts hweights
      (bisect (levelFitsBy weights counts rates tiers budget) 80
        (0, highestLevelBy weights rates tiers)).1
      (highestLevelBy weights rates tiers / 2 ^ 80) (show 0 ≤ highestLevelBy weights rates tiers / 2 ^ 80 by positivity)
    have hgap := hnext.le.trans hraise
    rw [div_mul_eq_mul_div, mul_comm (highestLevelBy weights rates tiers)] at hgap
    linarith

end Levels

/-- The allocation succeeds. It grants what is requested if that fits, and otherwise what a common
level allows, within the budget and short of it by one cell of the grid at most. -/
theorem weighted_max_min (weights rates : CoverageClass → ℚ) (counts : CoverageClass → Int)
    (tiers : List CoverageClass) (budget : ℚ) (hcounts : ∀ tier ∈ tiers, 0 ≤ counts tier)
    (hrates : ∀ tier ∈ tiers, 0 < rates tier) (hweights : ∀ tier ∈ tiers, 0 < weights tier)
    (hbudget : 0 < budget) :
    ∃ result, weightedRatesBy weights tiers counts rates budget = .ok result ∧
      ((demand counts rates tiers ≤ budget ∧ ∀ tier ∈ tiers, result tier = rates tier) ∨
        ∃ level : ℚ, 0 ≤ level ∧
          (∀ tier ∈ tiers, 0 < counts tier →
            result tier = min (rates tier) (level * weights tier)) ∧
          demand counts result tiers ≤ budget ∧
          budget - demand counts result tiers ≤ demand counts weights tiers *
            highestLevelBy weights rates (populated counts tiers) / 2 ^ 80) := by
  have hmem : ∀ tier ∈ populated counts tiers, tier ∈ tiers :=
    fun tier htier => (mem_populated.mp htier).1
  by_cases hempty : populated counts tiers = []
  · refine ⟨rates, ?_, .inl ⟨?_, fun _ _ => rfl⟩⟩
    · simp [weightedRatesBy, show tiers.filter (fun tier => 0 < counts tier) = [] from hempty]
    · rw [demand_populated hcounts, hempty]
      simpa [demand] using hbudget.le
  have hisEmpty : (populated counts tiers).isEmpty = false := by simpa using hempty
  by_cases hfits : demand counts rates (populated counts tiers) ≤ budget
  · refine ⟨rates, ?_, .inl ⟨?_, fun _ _ => rfl⟩⟩
    · simp only [weightedRatesBy, hisEmpty, not_le.mpr hbudget, hfits, Bool.false_eq_true, if_false,
        if_true, show tiers.filter (fun tier => 0 < counts tier) = populated counts tiers from rfl]
    · rwa [demand_populated hcounts]
  · obtain ⟨level, hlevel, hnonneg, hwithin, hunused⟩ := bisect_levelFitsBy
      (fun tier htier => hcounts tier (hmem tier htier))
      (fun tier htier => hrates tier (hmem tier htier))
      (fun tier htier => hweights tier (hmem tier htier)) hempty hbudget (not_le.mp hfits)
    have hresult : weightedRatesBy weights tiers counts rates budget =
        .ok fun tier => if tier ∈ populated counts tiers then leveledBy weights rates level tier
          else rates tier := by
      simp only [weightedRatesBy, hisEmpty, not_le.mpr hbudget, hfits, Bool.false_eq_true, if_false,
        show tiers.filter (fun tier => 0 < counts tier) = populated counts tiers from rfl, hlevel]
    have hdemand : demand counts (fun tier => if tier ∈ populated counts tiers then
        leveledBy weights rates level tier else rates tier) tiers =
          demand counts (leveledBy weights rates level) (populated counts tiers) := by
      rw [demand_populated hcounts]
      exact demand_congr fun tier htier => if_pos htier
    refine ⟨_, hresult, .inr ⟨level, hnonneg, ?_, ?_, ?_⟩⟩
    · intro tier htier hcount
      exact if_pos (mem_populated.mpr ⟨htier, hcount⟩)
    · rw [hdemand]
      exact hwithin
    · rw [hdemand, demand_populated hcounts weights]
      exact hunused

/-- Three new tokens and three early ones share five observations a minute. -/
theorem weighted_max_min_shared :
    ∃ result, weightedRatesBy capacityWeight [.initial, .early] (fun _ => 3) (fun _ => 2) 5 =
        .ok result ∧
      ((demand (fun _ => 3) (fun _ => 2) [.initial, .early] ≤ 5 ∧
          ∀ tier ∈ [CoverageClass.initial, .early], result tier = 2) ∨
        ∃ level : ℚ, 0 ≤ level ∧
          (∀ tier ∈ [CoverageClass.initial, .early], (0 : Int) < 3 →
            result tier = min 2 (level * capacityWeight tier)) ∧
          demand (fun _ => 3) result [.initial, .early] ≤ 5 ∧
          5 - demand (fun _ => 3) result [.initial, .early] ≤
            demand (fun _ => 3) capacityWeight [.initial, .early] *
              highestLevelBy capacityWeight (fun _ => 2)
                (populated (fun _ => 3) [.initial, .early]) / 2 ^ 80) :=
  weighted_max_min capacityWeight (fun _ => 2) (fun _ => 3) [.initial, .early] 5
    (fun _ _ => by decide) (fun _ _ => by decide) (fun tier _ => capacityWeight_pos tier)
    (by decide)

end PumpResearch.Scheduling
