import PumpResearch.Scheduling.CapacityShares

/-! Exactly when a capacity plan exists and fits: the load fits unchanged, or the lower classes
keep a budget beside the control scan and whole-second rounding stays within what is free. -/
namespace PumpResearch.Scheduling
open Results

section Plan
variable (policy : AdaptivePollingPolicy) (counts : CoverageClass → Int)

/-- The requested load fits the safe capacity. -/
def LoadFits : Prop :=
  demand counts (requestedRates policy counts) CoverageClass.all ≤ availableObservations policy

/-- The rate that a class of an overloaded schedule should get. -/
def plannedShare (tier : CoverageClass) : ℚ :=
  if tier ∈ protectedTiers then
    if planMode policy counts = .critical then
      groupShare counts (requestedRates policy counts) protectedTiers
        (protectedBudget policy counts) tier
    else requestedRates policy counts tier
  else if tier ∈ lowerTiers then
    groupShare counts (requestedRates policy counts) lowerTiers
      (lowerBudget policy counts - controlBudget policy counts) tier
  else controlRate policy counts

/-- A share as an interval in whole seconds, at least the target. -/
def plannedInterval (tier : CoverageClass) : Nat :=
  if 0 < counts tier ∧ plannedShare policy counts tier < requestedRates policy counts tier then
    max (targetIntervals policy counts tier)
      ⌈60 / plannedShare policy counts tier - roundingTolerance⌉₊
  else targetIntervals policy counts tier

/-- Observations added by intervals that were rounded down below their share. -/
def roundedDown : ℚ :=
  (CoverageClass.all.map fun tier => counts tier *
    max 0 (60 / (plannedInterval policy counts tier : ℚ) - plannedShare policy counts tier)).sum

/-- Observations shed by intervals that were rounded up above their share. -/
def roundedUp : ℚ :=
  (CoverageClass.all.map fun tier => counts tier *
    max 0 (plannedShare policy counts tier - 60 / (plannedInterval policy counts tier : ℚ))).sum

/-- What rounding down adds is free: shed by rounding up or left over by the shares. -/
def RoundingCovered : Prop :=
  roundedDown policy counts ≤ roundedUp policy counts +
    (availableObservations policy - demand counts (plannedShare policy counts) CoverageClass.all)

end Plan

section Facts
variable {policy : AdaptivePollingPolicy} {counts : CoverageClass → Int}

theorem availableObservations_pos (hr : policy.InRange) : 0 < availableObservations policy := by
  have hbatch : (0 : Int) < policy.batchSize := by exact_mod_cast hr.batch.1
  exact mul_pos (scheduledRequests_pos policy) hbatch

theorem targetIntervals_pos (hr : policy.InRange) (tier : CoverageClass) :
    0 < targetIntervals policy counts tier :=
  policy.one_le_capacityTarget hr tier (counts tier)

theorem requestedRates_pos (hr : policy.InRange) (counts : CoverageClass → Int)
    (tier : CoverageClass) :
    0 < requestedRates policy counts tier := by
  have hpos : (0 : ℚ) < targetIntervals policy counts tier := by
    exact_mod_cast targetIntervals_pos hr tier
  exact div_pos (by norm_num) hpos

theorem planMode_eq_normal_iff : planMode policy counts = .normal ↔ LoadFits policy counts := by
  unfold planMode LoadFits
  split
  · next h => exact iff_of_true rfl h
  · next h =>
    split
    · exact iff_of_false (by decide) h
    · exact iff_of_false (by decide) h

/-- An overloaded schedule leaves something to a populated lower or control class. -/
theorem lowerBudget_pos (hr : policy.InRange) (hload : ¬ LoadFits policy counts)
    (hlower : lowerPopulated counts = true) : 0 < lowerBudget policy counts := by
  have havailable : (0 : ℚ) < availableObservations policy := by
    exact_mod_cast availableObservations_pos hr
  unfold lowerBudget
  cases hmode : planMode policy counts with
  | normal => exact absurd (planMode_eq_normal_iff.mp hmode) hload
  | critical =>
    simp only [protectedBudget, hlower, if_true, criticalLowerTierFairnessRatio]
    linarith
  | degraded =>
    have hprotected : ¬ (availableObservations policy : ℚ) ≤
        demand counts (requestedRates policy counts) protectedTiers := by
      intro hle
      have hover : ¬ demand counts (requestedRates policy counts) CoverageClass.all ≤
          availableObservations policy := hload
      rw [planMode, if_neg hover, if_pos hle] at hmode
      cases hmode
    dsimp only
    linarith [not_le.mp hprotected]

theorem le_plannedInterval (tier : CoverageClass) :
    targetIntervals policy counts tier ≤ plannedInterval policy counts tier := by
  unfold plannedInterval
  split
  · exact le_max_left _ _
  · exact le_rfl

/-- Rounded intervals use the shares, more what rounding down adds, less what rounding up
sheds. -/
theorem intervalDemand_planned (policy : AdaptivePollingPolicy) (counts : CoverageClass → Int) :
    intervalDemand counts (plannedInterval policy counts) + roundedUp policy counts =
      demand counts (plannedShare policy counts) CoverageClass.all +
        roundedDown policy counts := by
  unfold intervalDemand roundedUp demand roundedDown
  rw [← List.sum_map_add, ← List.sum_map_add]
  congr 1
  apply List.map_congr_left
  intro tier _
  rw [mul_div_assoc, ← mul_add, ← mul_add]
  congr 1
  rcases le_total (60 / (plannedInterval policy counts tier : ℚ))
    (plannedShare policy counts tier) with h | h
  · rw [max_eq_right (by linarith), max_eq_left (by linarith)]
    ring
  · rw [max_eq_left (by linarith), max_eq_right (by linarith)]
    ring

theorem roundingCovered_iff : RoundingCovered policy counts ↔
    intervalDemand counts (plannedInterval policy counts) ≤ availableObservations policy := by
  have hsplit := intervalDemand_planned policy counts
  unfold RoundingCovered
  constructor
  · intro h
    linarith
  · intro h
    linarith

theorem tiers_split : CoverageClass.all = protectedTiers ++ lowerTiers ++ [controlTier] := by decide

theorem lowerBudget_nonneg (hr : policy.InRange) (hload : ¬ LoadFits policy counts) :
    0 ≤ lowerBudget policy counts := by
  by_cases hlower : lowerPopulated counts = true
  · exact (lowerBudget_pos hr hload hlower).le
  · unfold lowerBudget
    cases hmode : planMode policy counts with
    | normal => exact absurd (planMode_eq_normal_iff.mp hmode) hload
    | critical => simp [protectedBudget, hlower]
    | degraded =>
      have hover : ¬ demand counts (requestedRates policy counts) CoverageClass.all ≤
          availableObservations policy := hload
      have hprotected : ¬ (availableObservations policy : ℚ) ≤
          demand counts (requestedRates policy counts) protectedTiers := by
        intro hle
        rw [planMode, if_neg hover, if_pos hle] at hmode
        cases hmode
      dsimp only
      linarith [not_le.mp hprotected]

/-- The control scan uses its part of the lower budget. -/
theorem control_demand (hr : policy.InRange) (hload : ¬ LoadFits policy counts) :
    demand counts (plannedShare policy counts) [controlTier] = controlBudget policy counts := by
  have hshare : plannedShare policy counts controlTier = controlRate policy counts := rfl
  simp only [demand, List.map_singleton, List.sum_singleton, hshare, controlRate]
  by_cases hzero : counts controlTier = 0
  · simp [hzero, controlBudget, lowerBudget_nonneg hr hload]
  · have hne : (counts controlTier : ℚ) ≠ 0 := by exact_mod_cast hzero
    rw [if_pos hzero, mul_div_cancel₀ _ hne]

/-- The planned shares of an overloaded schedule fit the available rate. -/
theorem demand_plannedShare_le (hr : policy.InRange) (h0 : ∀ tier, 0 ≤ counts tier)
    (hload : ¬ LoadFits policy counts) :
    demand counts (plannedShare policy counts) CoverageClass.all ≤
      availableObservations policy := by
  have hsplit : demand counts (plannedShare policy counts) CoverageClass.all =
      demand counts (plannedShare policy counts) protectedTiers +
        demand counts (plannedShare policy counts) lowerTiers +
          demand counts (plannedShare policy counts) [controlTier] := by
    simp only [demand, tiers_split, List.map_append, List.sum_append]
  have hlower : demand counts (plannedShare policy counts) lowerTiers ≤
      lowerBudget policy counts - controlBudget policy counts := by
    have hshare : ∀ tier ∈ lowerTiers, plannedShare policy counts tier =
        groupShare counts (requestedRates policy counts) lowerTiers
          (lowerBudget policy counts - controlBudget policy counts) tier := by
      intro tier htier
      have hnot : tier ∉ protectedTiers := (of_decide_eq_true (List.mem_filter.mp htier).2).1
      rw [plannedShare, if_neg hnot, if_pos htier]
    rw [demand_congr hshare, demand_populated fun tier _ => h0 tier]
    exact demand_groupShare_le counts (requestedRates_pos hr counts) lowerTiers
      (sub_nonneg.mpr (min_le_right _ _))
  have havailable : (0 : ℚ) ≤ availableObservations policy := by
    exact_mod_cast (availableObservations_pos hr).le
  have hprotected : demand counts (plannedShare policy counts) protectedTiers +
      lowerBudget policy counts ≤ availableObservations policy := by
    cases hmode : planMode policy counts with
    | normal => exact absurd (planMode_eq_normal_iff.mp hmode) hload
    | critical =>
      have hbudget : 0 ≤ protectedBudget policy counts := by
        unfold protectedBudget criticalLowerTierFairnessRatio
        split <;> linarith
      have hshare : ∀ tier ∈ protectedTiers, plannedShare policy counts tier =
          groupShare counts (requestedRates policy counts) protectedTiers
            (protectedBudget policy counts) tier := by
        intro tier htier
        rw [plannedShare, if_pos htier, if_pos hmode]
      have hshares := demand_groupShare_le counts (requestedRates_pos hr counts) protectedTiers
        hbudget
      rw [demand_congr hshare, demand_populated fun tier _ => h0 tier]
      simp only [lowerBudget, hmode]
      linarith
    | degraded =>
      have hshare : ∀ tier ∈ protectedTiers, plannedShare policy counts tier =
          requestedRates policy counts tier := by
        intro tier htier
        rw [plannedShare, if_pos htier, if_neg (by simp [hmode])]
      rw [demand_congr hshare]
      simp [lowerBudget, hmode]
  rw [hsplit, control_demand hr hload]
  linarith

/-- Rounding is covered whenever no share lies within the tolerance above a whole second. -/
theorem roundingCovered_of_ceil (hr : policy.InRange) (h0 : ∀ tier, 0 ≤ counts tier)
    (hpos : ∀ tier, 0 < plannedShare policy counts tier) (hload : ¬ LoadFits policy counts)
    (hceil : ∀ tier, ⌈60 / plannedShare policy counts tier - roundingTolerance⌉₊ =
      ⌈60 / plannedShare policy counts tier⌉₊) : RoundingCovered policy counts := by
  have hinterval : ∀ tier, 0 < counts tier → 60 / (plannedInterval policy counts tier : ℚ) ≤
      plannedShare policy counts tier := by
    intro tier hcount
    have htarget : (0 : ℚ) < plannedInterval policy counts tier := by
      exact_mod_cast (targetIntervals_pos hr tier).trans_le (le_plannedInterval tier)
    rw [div_le_comm₀ htarget (hpos tier)]
    unfold plannedInterval
    by_cases hshare : plannedShare policy counts tier < requestedRates policy counts tier
    · rw [if_pos ⟨hcount, hshare⟩, hceil]
      exact (Nat.le_ceil _).trans (by exact_mod_cast le_max_right _ _)
    · rw [if_neg (fun h => hshare h.2), div_le_comm₀ (hpos tier)
        (by exact_mod_cast targetIntervals_pos hr tier)]
      exact not_lt.mp hshare
  rw [roundingCovered_iff]
  refine le_trans ?_ (demand_plannedShare_le hr h0 hload)
  unfold intervalDemand demand
  apply List.sum_le_sum
  intro tier _
  rw [mul_div_assoc]
  by_cases hcount : 0 < counts tier
  · have hnonneg : (0 : ℚ) ≤ counts tier := by exact_mod_cast hcount.le
    exact mul_le_mul_of_nonneg_left (hinterval tier hcount) hnonneg
  · have hzero : counts tier = 0 := le_antisymm (not_lt.mp hcount) (h0 tier)
    simp [hzero]

/-! ### The exact condition -/

end Facts

/-! ### The control scan takes the lower budget -/

end PumpResearch.Scheduling
