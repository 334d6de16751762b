import PumpResearch.Instants

/-! Coverage classes and the polling policy: which class a token is in, when that class ends,
and the settings that bound the work. Durations are in microseconds. -/
namespace PumpResearch.Scheduling

inductive LifecycleState where
  | new
  | active
  | watch
  | fading
  | dormant
  | resurrected
deriving DecidableEq, Repr

inductive CoverageClass where
  | protectedActive
  | protectedResurrected
  | protectedWatch
  | initial
  | early
  | mature
  | fadingTail
  | fadingCool
  | cooled
  | longTailDay
  | longTailWeek
  | retiredControl
deriving DecidableEq, Repr

/-- The classes in the order of the source enumeration. -/
def CoverageClass.all : List CoverageClass :=
  [.protectedActive, .protectedResurrected, .protectedWatch, .initial, .early, .mature,
   .fadingTail, .fadingCool, .cooled, .longTailDay, .longTailWeek, .retiredControl]

theorem CoverageClass.mem_all (coverage : CoverageClass) : coverage ∈ all := by
  cases coverage <;> decide

theorem CoverageClass.all_nodup : all.Nodup := by decide

inductive SchedulingError where
  | value (message : String)
  | assertion (message : String)
  | coverageReconstruction (message : String)
  | coverageProgress (message : String)
  | lostPollLease (message : String)
  | integrity (message : String)
  | noResultFound
deriving DecidableEq, Repr

/-- The settings of a policy before they are validated together. -/
structure PollingSettings where
  /-- Target intervals in whole seconds; the retired entry is a placeholder of 60. -/
  intervalSeconds : CoverageClass → Nat
  newInitialDuration : Int
  earlyUntil : Int
  matureUntil : Int
  cooledUntil : Int
  longTailDayUntil : Int
  retireAfter : Int
  fadingFastDuration : Int
  fadingTotalDuration : Int
  batchSize : Nat
  leaseDuration : Int
  maxInFlightBatches : Nat
  requestBudgetPerMinute : Nat
  requestAttemptsPerBatch : Nat
  reservedRequestsPerMinute : Nat
  controlScanTokensPerMinute : Nat
  capacityHeadroomRatio : ℚ
  capacityRefresh : Int

namespace PollingSettings

/-- The request budget less the headroom, rounded down. -/
def safeRequestBudget (s : PollingSettings) : Int :=
  ⌊(s.requestBudgetPerMinute : ℚ) * (1 - s.capacityHeadroomRatio)⌋

/-- The ages that end the ordinary classes. -/
def boundaries (s : PollingSettings) : List Int :=
  [s.newInitialDuration, s.earlyUntil, s.matureUntil, s.cooledUntil, s.longTailDayUntil,
   s.retireAfter]

/-- The ranges that the application settings allow for each field. -/
structure InRange (s : PollingSettings) : Prop where
  interval : ∀ coverage, 1 ≤ s.intervalSeconds coverage
  budget : 0 < s.requestBudgetPerMinute ∧ s.requestBudgetPerMinute ≤ 300
  reserved : s.reservedRequestsPerMinute ≤ 120
  batch : 1 ≤ s.batchSize ∧ s.batchSize ≤ 30
  control : 1 ≤ s.controlScanTokensPerMinute ∧ s.controlScanTokensPerMinute ≤ 30
  headroom : 0 ≤ s.capacityHeadroomRatio ∧ s.capacityHeadroomRatio < 1
  inFlight : 1 ≤ s.maxInFlightBatches ∧ s.maxInFlightBatches ≤ 100
  attempts : 1 ≤ s.requestAttemptsPerBatch ∧ s.requestAttemptsPerBatch ≤ 5
  lease : seconds 1 ≤ s.leaseDuration
  refresh : seconds 1 ≤ s.capacityRefresh ∧ s.capacityRefresh ≤ seconds 300

end PollingSettings

/-- Settings that passed `_validate`. -/
structure AdaptivePollingPolicy extends PollingSettings where
  boundaries_increase : toPollingSettings.boundaries.IsChain (· < ·)
  fading_shorter : fadingFastDuration < fadingTotalDuration
  reserve_below : (reservedRequestsPerMinute : Int) < toPollingSettings.safeRequestBudget

/-- `_validate`. -/
def PollingSettings.validate (s : PollingSettings) :
    Except SchedulingError AdaptivePollingPolicy :=
  if hb : s.boundaries.IsChain (· < ·) then
    if hf : s.fadingFastDuration < s.fadingTotalDuration then
      if hr : (s.reservedRequestsPerMinute : Int) < s.safeRequestBudget then
        .ok ⟨s, hb, hf, hr⟩
      else
        .error (.value "scheduler request reserve must be below the safe request budget")
    else .error (.value "FADING fast duration must be shorter than its total tail")
  else .error (.value "coverage age boundaries must increase strictly")

theorem PollingSettings.validate_toPollingSettings (policy : AdaptivePollingPolicy) :
    policy.toPollingSettings.validate = .ok policy := by
  simp [validate, policy.boundaries_increase, policy.fading_shorter, policy.reserve_below]

/-- Claim precedence of a class; lower is served first. -/
def priorityForCoverage : CoverageClass → Nat
  | .protectedActive => 0
  | .protectedResurrected => 0
  | .protectedWatch => 1
  | .initial => 2
  | .early => 3
  | .mature => 4
  | .fadingTail => 5
  | .fadingCool => 6
  | .cooled => 7
  | .longTailDay => 8
  | .longTailWeek => 9
  | .retiredControl => 10

namespace AdaptivePollingPolicy
variable (policy : AdaptivePollingPolicy)

/-- The class of a token that is not protected, dormant or fading, by its age. -/
def ageClass (age : Int) : CoverageClass :=
  if age < policy.newInitialDuration then .initial
  else if age < policy.earlyUntil then .early
  else if age < policy.matureUntil then .mature
  else if age < policy.cooledUntil then .cooled
  else if age < policy.longTailDayUntil then .longTailDay
  else if age < policy.retireAfter then .longTailWeek
  else .retiredControl

def coverageClassFor (state : LifecycleState) (admittedAt stateDecidedAt now : Int) :
    Except SchedulingError CoverageClass :=
  if now < admittedAt then .error (.value "coverage time cannot predate DEX admission")
  else
    match state with
    | .active => .ok .protectedActive
    | .resurrected => .ok .protectedResurrected
    | .watch => .ok .protectedWatch
    | .dormant => .ok .retiredControl
    | .fading =>
      if now - stateDecidedAt < 0 then
        .error (.value "coverage time cannot predate lifecycle decision")
      else if now - stateDecidedAt < policy.fadingFastDuration then .ok .fadingTail
      else if now - stateDecidedAt < policy.fadingTotalDuration then .ok .fadingCool
      else .ok .retiredControl
    | .new => .ok (policy.ageClass (now - admittedAt))

/-- The wall time at which a class ends, for the classes that end. -/
def boundaryOf (admittedAt stateDecidedAt : Int) : CoverageClass → Option Int
  | .fadingTail => some (stateDecidedAt + policy.fadingFastDuration)
  | .fadingCool => some (stateDecidedAt + policy.fadingTotalDuration)
  | .initial => some (admittedAt + policy.newInitialDuration)
  | .early => some (admittedAt + policy.earlyUntil)
  | .mature => some (admittedAt + policy.matureUntil)
  | .cooled => some (admittedAt + policy.cooledUntil)
  | .longTailDay => some (admittedAt + policy.longTailDayUntil)
  | .longTailWeek => some (admittedAt + policy.retireAfter)
  | .protectedActive | .protectedResurrected | .protectedWatch | .retiredControl => none

def nextTransitionAt (state : LifecycleState) (admittedAt stateDecidedAt now : Int) :
    Except SchedulingError (Option Int) := do
  let coverage ← policy.coverageClassFor state admittedAt stateDecidedAt now
  return policy.boundaryOf admittedAt stateDecidedAt coverage

/-- An ordinary target interval; retired scans have a fixed budget instead. -/
def intervalForCoverage (coverage : CoverageClass) : Option Nat :=
  if coverage = .retiredControl then none else some (policy.intervalSeconds coverage)

/-- The target used by capacity planning; control rotation depends on the population. -/
def capacityTargetIntervalSeconds (coverage : CoverageClass) (population : Int) : Nat :=
  if coverage = .retiredControl then
    if population ≤ 0 then 60
    else max 60 ⌈(60 * population : ℚ) / policy.controlScanTokensPerMinute⌉₊
  else policy.intervalSeconds coverage

/-- A class that ends has not ended yet: its boundary lies ahead. -/
theorem lt_of_nextTransitionAt {state : LifecycleState} {admittedAt stateDecidedAt now next : Int}
    (h : policy.nextTransitionAt state admittedAt stateDecidedAt now = .ok (some next)) :
    now < next := by
  unfold nextTransitionAt coverageClassFor at h
  by_cases hn : now < admittedAt
  · simp [hn, bind, Except.bind] at h
  · rw [if_neg hn] at h
    cases state with
    | active => simp [boundaryOf, bind, Except.bind, pure, Except.pure] at h
    | resurrected => simp [boundaryOf, bind, Except.bind, pure, Except.pure] at h
    | watch => simp [boundaryOf, bind, Except.bind, pure, Except.pure] at h
    | dormant => simp [boundaryOf, bind, Except.bind, pure, Except.pure] at h
    | fading =>
      dsimp only at h
      split at h
      · simp [bind, Except.bind] at h
      · split at h
        · simp only [bind, Except.bind, pure, Except.pure, boundaryOf, Except.ok.injEq,
            Option.some.injEq] at h
          omega
        · split at h
          · simp only [bind, Except.bind, pure, Except.pure, boundaryOf, Except.ok.injEq,
              Option.some.injEq] at h
            omega
          · simp [boundaryOf, bind, Except.bind, pure, Except.pure] at h
    | new =>
      simp only [bind, Except.bind, pure, Except.pure, ageClass, Except.ok.injEq] at h
      split_ifs at h <;> simp only [boundaryOf, Option.some.injEq, reduceCtorEq] at h <;> omega

theorem one_le_capacityTarget (h : policy.InRange) (coverage : CoverageClass) (population : Int) :
    1 ≤ policy.capacityTargetIntervalSeconds coverage population := by
  unfold capacityTargetIntervalSeconds
  split
  · split
    · decide
    · exact le_max_of_le_left (by decide)
  · exact h.interval coverage

end AdaptivePollingPolicy

end PumpResearch.Scheduling
