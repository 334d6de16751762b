import PumpResearch.Scheduling.Capacity

/-! The shares a group of classes is meant to get from a budget: the greatest common level of
the grid whose demand fits. The allocation computes these shares exactly when the budget covers
the lowest level of the grid. -/
namespace PumpResearch.Scheduling
open Bisection

variable {counts : CoverageClass → Int} {rates rates' : CoverageClass → ℚ}
  {tiers : List CoverageClass} {budget : ℚ}

theorem capacityWeight_pos (tier : CoverageClass) : 0 < capacityWeight tier := by
  cases tier <;> norm_num [capacityWeight]

/-! ### Demand -/

theorem demand_congr (h : ∀ tier ∈ tiers, rates tier = rates' tier) :
    demand counts rates tiers = demand counts rates' tiers := by
  unfold demand
  rw [List.map_congr_left]
  intro tier htier
  rw [h tier htier]

theorem leveled_zero (hrates : ∀ tier, 0 < rates tier) (tier : CoverageClass) :
    leveled rates 0 tier = 0 := by
  rw [leveled, zero_mul]
  exact min_eq_right (hrates tier).le

theorem levelFits_zero (counts : CoverageClass → Int) (hrates : ∀ tier, 0 < rates tier)
    (tiers : List CoverageClass) (hbudget : 0 ≤ budget) :
    levelFits counts rates tiers budget 0 = true := by
  unfold levelFits
  rw [decide_eq_true_eq, demand_congr fun tier _ => leveled_zero hrates tier]
  simpa [demand] using hbudget

/-! ### Shares -/

def populated (counts : CoverageClass → Int) (tiers : List CoverageClass) : List CoverageClass :=
  tiers.filter fun tier => 0 < counts tier

theorem mem_populated {tier : CoverageClass} :
    tier ∈ populated counts tiers ↔ tier ∈ tiers ∧ 0 < counts tier := by
  simp [populated, List.mem_filter]

/-- Unpopulated tiers demand nothing. -/
theorem demand_populated (hcounts : ∀ tier ∈ tiers, 0 ≤ counts tier) (rates : CoverageClass → ℚ) :
    demand counts rates tiers = demand counts rates (populated counts tiers) := by
  induction tiers with
  | nil => rfl
  | cons tier rest ih =>
    have hrest := ih fun other hother => hcounts other (List.mem_cons_of_mem _ hother)
    unfold demand populated at hrest ⊢
    rw [List.map_cons, List.sum_cons, hrest, List.filter_cons]
    by_cases hcount : 0 < counts tier
    · simp [hcount]
    · have hzero : counts tier = 0 :=
        le_antisymm (not_lt.mp hcount) (hcounts tier List.mem_cons_self)
      simp [hzero]

/-- The greatest grid level whose demand fits the budget. -/
def waterLevel (counts : CoverageClass → Int) (rates : CoverageClass → ℚ)
    (tiers : List CoverageClass) (budget : ℚ) : ℚ :=
  greatestLevel (levelFits counts rates (populated counts tiers) budget) 80
    (highestLevel rates (populated counts tiers))

/-- The rate a class should get from the budget of its group. -/
def groupShare (counts : CoverageClass → Int) (rates : CoverageClass → ℚ)
    (tiers : List CoverageClass) (budget : ℚ) (tier : CoverageClass) : ℚ :=
  if demand counts rates (populated counts tiers) ≤ budget then rates tier
  else if tier ∈ populated counts tiers then
    leveled rates (waterLevel counts rates tiers budget) tier
  else rates tier

/-- The shares of a covered group fit its budget. -/
theorem demand_groupShare_le (counts : CoverageClass → Int) (hrates : ∀ tier, 0 < rates tier)
    (tiers : List CoverageClass) (hbudget : 0 ≤ budget) :
    demand counts (groupShare counts rates tiers budget) (populated counts tiers) ≤ budget := by
  by_cases hover : demand counts rates (populated counts tiers) ≤ budget
  · have hshare : groupShare counts rates tiers budget = rates := by
      funext tier
      rw [groupShare, if_pos hover]
    rwa [hshare]
  · have hshare : ∀ tier ∈ populated counts tiers, groupShare counts rates tiers budget tier =
        leveled rates (waterLevel counts rates tiers budget) tier := by
      intro tier htier
      rw [groupShare, if_neg hover, if_pos htier]
    rw [demand_congr hshare]
    have hfits := fits_greatestLevel
      (levelFits_zero counts hrates (populated counts tiers) hbudget) 80
      (highestLevel rates (populated counts tiers))
    unfold levelFits at hfits
    rwa [decide_eq_true_eq] at hfits

end PumpResearch.Scheduling
