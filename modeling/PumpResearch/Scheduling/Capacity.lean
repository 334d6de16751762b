import PumpResearch.Library.Bisection
import PumpResearch.Library.Results
import PumpResearch.Scheduling.Policy

/-! The capacity planner: effective polling intervals that fit the safe request budget. The
interpreter's floats are read as exact rationals. -/
namespace PumpResearch.Scheduling
open Bisection Results

inductive CapacityMode where
  | normal
  | degraded
  | critical
deriving DecidableEq, Repr

def protectedTiers : List CoverageClass := [.protectedActive, .protectedResurrected]

def controlTier : CoverageClass := .retiredControl

def lowerTiers : List CoverageClass :=
  CoverageClass.all.filter fun tier => tier ∉ protectedTiers ∧ tier ≠ controlTier

/-- Allocation weights; within the protected group the two classes weigh the same. -/
def capacityWeight : CoverageClass → ℚ
  | .protectedActive => 1
  | .protectedResurrected => 1
  | .protectedWatch => 64
  | .initial => 32
  | .early => 16
  | .mature => 8
  | .fadingTail => 4
  | .fadingCool => 2
  | .cooled => 2
  | .longTailDay => 1
  | .longTailWeek => 1 / 2
  | .retiredControl => 1 / 4

def criticalLowerTierFairnessRatio : ℚ := 1 / 20

/-- What the whole-second rounding of intervals tolerates. -/
def roundingTolerance : ℚ := 1 / 10 ^ 12

structure CapacityPlan where
  mode : CapacityMode
  tokenCounts : CoverageClass → Int
  targetIntervalSeconds : CoverageClass → Nat
  effectiveIntervalSeconds : CoverageClass → Nat
  requestedTokenObservationsPerMinute : ℚ
  availableTokenObservationsPerMinute : Int
  effectiveTokenObservationsPerMinute : ℚ
  requestedRequestsPerMinute : ℚ
  safeRequestsPerMinute : Int
  reservedRequestsPerMinute : Int
  availableRequestsPerMinute : Int
  effectiveRequestsPerMinute : ℚ
  capacityUtilizationPct : ℚ
  effectiveCapacityUtilizationPct : ℚ
  degradedScheduleCount : Int
  degradedSchedulePct : ℚ

/-- Token observations per minute of some classes at given rates per token. -/
def demand (counts : CoverageClass → Int) (rates : CoverageClass → ℚ)
    (tiers : List CoverageClass) : ℚ :=
  (tiers.map fun tier => counts tier * rates tier).sum

/-- Rates capped by a common level times the class weight. -/
def leveled (rates : CoverageClass → ℚ) (level : ℚ) (tier : CoverageClass) : ℚ :=
  min (rates tier) (level * capacityWeight tier)

/-- The level at which every class has its requested rate. -/
def highestLevel (rates : CoverageClass → ℚ) (tiers : List CoverageClass) : ℚ :=
  (tiers.map fun tier => rates tier / capacityWeight tier).max?.getD 0

def levelFits (counts : CoverageClass → Int) (rates : CoverageClass → ℚ)
    (tiers : List CoverageClass) (budget level : ℚ) : Bool :=
  demand counts (leveled rates level) tiers ≤ budget

/-- `_weighted_rates`: the rates of a group of classes within a budget. -/
def weightedRates (tiers : List CoverageClass) (counts : CoverageClass → Int)
    (rates : CoverageClass → ℚ) (budget : ℚ) : Except SchedulingError (CoverageClass → ℚ) :=
  let populated := tiers.filter fun tier => 0 < counts tier
  if populated.isEmpty then .ok rates
  else if budget ≤ 0 then
    .error (.value "a populated capacity tier requires a positive budget")
  else if demand counts rates populated ≤ budget then .ok rates
  else
    let low := (bisect (levelFits counts rates populated budget) 80
      (0, highestLevel rates populated)).1
    .ok fun tier => if tier ∈ populated then leveled rates low tier else rates tier

/-- `_interval_for_rate`. -/
def intervalForRate (requestedInterval : Nat) (effectiveRate : ℚ) (populated : Bool) :
    Except SchedulingError Nat :=
  if !populated || 60 / requestedInterval ≤ effectiveRate then .ok requestedInterval
  else if effectiveRate ≤ 0 then
    .error (.value "a populated tier must receive a positive effective rate")
  else .ok (max requestedInterval ⌈60 / effectiveRate - roundingTolerance⌉₊)

/-- `{tier: f(tier) for tier in CapacityTier}` for an `f` that may raise. -/
def forTiers {ν : Type} (f : CoverageClass → Except SchedulingError ν) :
    Except SchedulingError (CoverageClass → ν) := do
  let active ← f .protectedActive
  let resurrected ← f .protectedResurrected
  let watch ← f .protectedWatch
  let initial ← f .initial
  let early ← f .early
  let mature ← f .mature
  let fadingTail ← f .fadingTail
  let fadingCool ← f .fadingCool
  let cooled ← f .cooled
  let day ← f .longTailDay
  let week ← f .longTailWeek
  let control ← f .retiredControl
  return fun
    | .protectedActive => active
    | .protectedResurrected => resurrected
    | .protectedWatch => watch
    | .initial => initial
    | .early => early
    | .mature => mature
    | .fadingTail => fadingTail
    | .fadingCool => fadingCool
    | .cooled => cooled
    | .longTailDay => day
    | .longTailWeek => week
    | .retiredControl => control

def targetIntervals (policy : AdaptivePollingPolicy) (counts : CoverageClass → Int)
    (tier : CoverageClass) : Nat :=
  policy.capacityTargetIntervalSeconds tier (counts tier)

def requestedRates (policy : AdaptivePollingPolicy) (counts : CoverageClass → Int)
    (tier : CoverageClass) : ℚ :=
  60 / targetIntervals policy counts tier

def safeRequests (policy : AdaptivePollingPolicy) : Int := max 1 policy.safeRequestBudget

def scheduledRequests (policy : AdaptivePollingPolicy) : Int :=
  safeRequests policy - policy.reservedRequestsPerMinute

def availableObservations (policy : AdaptivePollingPolicy) : Int :=
  scheduledRequests policy * policy.batchSize

/-- Some class outside the protected group has tokens. -/
def lowerPopulated (counts : CoverageClass → Int) : Bool :=
  (lowerTiers ++ [controlTier]).any fun tier => counts tier ≠ 0

def planMode (policy : AdaptivePollingPolicy) (counts : CoverageClass → Int) : CapacityMode :=
  if demand counts (requestedRates policy counts) CoverageClass.all ≤ availableObservations policy
  then .normal
  else if availableObservations policy ≤
      demand counts (requestedRates policy counts) protectedTiers then .critical
  else .degraded

/-- What an overloaded protected group may use. -/
def protectedBudget (policy : AdaptivePollingPolicy) (counts : CoverageClass → Int) : ℚ :=
  availableObservations policy *
    (if lowerPopulated counts then 1 - criticalLowerTierFairnessRatio else 1)

/-- What is left for the lower classes and the control scan. -/
def lowerBudget (policy : AdaptivePollingPolicy) (counts : CoverageClass → Int) : ℚ :=
  match planMode policy counts with
  | .critical => availableObservations policy - protectedBudget policy counts
  | _ => availableObservations policy - demand counts (requestedRates policy counts) protectedTiers

/-- The control scan takes its share before the lower classes. -/
def controlBudget (policy : AdaptivePollingPolicy) (counts : CoverageClass → Int) : ℚ :=
  min (counts controlTier * requestedRates policy counts controlTier) (lowerBudget policy counts)

def controlRate (policy : AdaptivePollingPolicy) (counts : CoverageClass → Int) : ℚ :=
  if counts controlTier ≠ 0 then controlBudget policy counts / counts controlTier
  else requestedRates policy counts controlTier

/-- `effective_rates`, built up in the order of the source. -/
def effectiveRates (policy : AdaptivePollingPolicy) (counts : CoverageClass → Int) :
    Except SchedulingError (CoverageClass → ℚ) :=
  let rates := requestedRates policy counts
  match planMode policy counts with
  | .normal => .ok rates
  | .critical => do
    let upper ← weightedRates protectedTiers counts rates (protectedBudget policy counts)
    let lower ← weightedRates lowerTiers counts rates
      (lowerBudget policy counts - controlBudget policy counts)
    return fun tier =>
      if tier ∈ protectedTiers then upper tier
      else if tier ∈ lowerTiers then lower tier
      else controlRate policy counts
  | .degraded => do
    let lower ← weightedRates lowerTiers counts rates
      (lowerBudget policy counts - controlBudget policy counts)
    return fun tier =>
      if tier ∈ protectedTiers then rates tier
      else if tier ∈ lowerTiers then lower tier
      else controlRate policy counts

/-- Observations per minute at whole-second intervals. -/
def intervalDemand (counts : CoverageClass → Int) (intervals : CoverageClass → Nat) : ℚ :=
  (CoverageClass.all.map fun tier => counts tier * 60 / (intervals tier : ℚ)).sum

/-- The plan recorded for chosen intervals. -/
def capacityPlan (policy : AdaptivePollingPolicy) (counts : CoverageClass → Int)
    (intervals : CoverageClass → Nat) : CapacityPlan :=
  let targets := targetIntervals policy counts
  let requested := demand counts (requestedRates policy counts) CoverageClass.all
  let available := availableObservations policy
  let effective := intervalDemand counts intervals
  let degradedCount :=
    ((CoverageClass.all.filter fun tier => targets tier < intervals tier).map counts).sum
  let totalCount := (CoverageClass.all.map counts).sum
  { mode := planMode policy counts
    tokenCounts := counts
    targetIntervalSeconds := targets
    effectiveIntervalSeconds := intervals
    requestedTokenObservationsPerMinute := requested
    availableTokenObservationsPerMinute := available
    effectiveTokenObservationsPerMinute := effective
    requestedRequestsPerMinute := requested / policy.batchSize
    safeRequestsPerMinute := safeRequests policy
    reservedRequestsPerMinute := policy.reservedRequestsPerMinute
    availableRequestsPerMinute := scheduledRequests policy
    effectiveRequestsPerMinute := effective / policy.batchSize
    capacityUtilizationPct := 100 * requested / available
    effectiveCapacityUtilizationPct := 100 * effective / available
    degradedScheduleCount := degradedCount
    degradedSchedulePct := if totalCount ≠ 0 then 100 * degradedCount / totalCount else 0 }

/-- `plan_capacity`. -/
def planCapacity (policy : AdaptivePollingPolicy) (counts : CoverageClass → Int) :
    Except SchedulingError CapacityPlan := do
  if CoverageClass.all.any fun tier => counts tier < 0 then
    throw (.value "capacity token counts cannot be negative")
  if scheduledRequests policy ≤ 0 then
    throw (.value "scheduler request reserve leaves no scheduled capacity")
  let rates ← effectiveRates policy counts
  let intervals ← forTiers fun tier =>
    intervalForRate (targetIntervals policy counts tier) (rates tier) (0 < counts tier)
  if (availableObservations policy : ℚ) + 1 / 10 ^ 9 < intervalDemand counts intervals then
    throw (.assertion "rounded capacity plan exceeds the safe token budget")
  return capacityPlan policy counts intervals

/-- Every plan of a policy has the same requests to schedule. -/
theorem availableRequests_of_planCapacity {policy : AdaptivePollingPolicy}
    {counts : CoverageClass → Int} {plan : CapacityPlan} (h : planCapacity policy counts = .ok plan) :
    plan.availableRequestsPerMinute = scheduledRequests policy := by
  simp only [planCapacity, guard_eq_ok, bind_eq_ok, pure_eq_ok] at h
  obtain ⟨_, _, _, _, _, _, _, rfl⟩ := h
  rfl

theorem scheduledRequests_pos (policy : AdaptivePollingPolicy) : 0 < scheduledRequests policy := by
  have hreserve := policy.reserve_below
  unfold scheduledRequests safeRequests
  omega

end PumpResearch.Scheduling
