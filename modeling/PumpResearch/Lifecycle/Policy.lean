import PumpResearch.Library.KeyedOrder
import PumpResearch.Scheduling.Policy

/-! Lifecycle rules: which pair of a response is the evidence for a token, and which transition
that evidence allows. -/
namespace PumpResearch.Scheduling

/-- The stored text of a state. -/
def LifecycleState.value : LifecycleState → String
  | .new => "NEW"
  | .active => "ACTIVE"
  | .watch => "WATCH"
  | .fading => "FADING"
  | .dormant => "DORMANT"
  | .resurrected => "RESURRECTED"

end PumpResearch.Scheduling

namespace PumpResearch.Lifecycle
open KeyedOrder
open Scheduling (LifecycleState)

/-! ### Evidence selection -/

inductive EvidenceSelectionOutcome where
  | selected
  | failed
deriving DecidableEq, Repr

/-- One pair observation of a response. -/
structure LifecycleEvidenceCandidate where
  observationId : Uuid
  observationReceivedAt : Int
  pairId : Uuid
  chain : String
  pairAddress : String
  dexIdentifier : Option String
  liquidityUsd : Option ℚ
  volumeM5Usd : Option ℚ
  volumeH1Usd : Option ℚ
deriving DecidableEq

/-- `reason_detail` of a selection. -/
inductive SelectionDetail where
  | candidates (ordered : List LifecycleEvidenceCandidate)
  | incomplete (ordered : List LifecycleEvidenceCandidate) (pairAddresses : List String)
  | selected (ordered : List LifecycleEvidenceCandidate) (pairAddress : String)
      (liquidityUsd : Option ℚ) (liquidityTieCount : Nat)
deriving DecidableEq

/-- The selected candidate or a derivation failure; the outcome is `selected` exactly when there
is a candidate. -/
structure EvidenceSelectionResult where
  selected : Option LifecycleEvidenceCandidate
  reasonCode : String
  reasonDetail : SelectionDetail
deriving DecidableEq

def EvidenceSelectionResult.outcome (result : EvidenceSelectionResult) :
    EvidenceSelectionOutcome :=
  if result.selected.isSome then .selected else .failed

def canonicalPairKey (candidate : LifecycleEvidenceCandidate) : String ×ₗ String :=
  toLex (candidate.chain, candidate.pairAddress)

/-- `HighestLiquidityEvidencePolicy.select`. -/
def selectEvidence (candidates : List LifecycleEvidenceCandidate) : EvidenceSelectionResult :=
  let ordered := sortOn canonicalPairKey candidates
  match ordered with
  | [] => ⟨none, "no_candidate_pair_observations", .candidates ordered⟩
  | [only] =>
    ⟨some only, "only_candidate_pair", .selected ordered only.pairAddress only.liquidityUsd 1⟩
  | first :: _ =>
    let incomplete := (ordered.filter (·.liquidityUsd.isNone)).map (·.pairAddress)
    if incomplete ≠ [] then
      ⟨none, "candidate_missing_required_liquidity_usd", .incomplete ordered incomplete⟩
    else
      let greatestLiquidity := (ordered.filterMap (·.liquidityUsd)).max?
      let tied := ordered.filter (·.liquidityUsd = greatestLiquidity)
      let selected := tied.headD first
      ⟨some selected,
        if tied.length = 1 then "highest_reported_liquidity_usd"
        else "highest_reported_liquidity_usd_canonical_address_tiebreak",
        .selected ordered selected.pairAddress selected.liquidityUsd tied.length⟩

/-- The selected candidate is one of the response. -/
theorem mem_of_selectEvidence {candidates : List LifecycleEvidenceCandidate}
    {candidate : LifecycleEvidenceCandidate}
    (h : (selectEvidence candidates).selected = some candidate) : candidate ∈ candidates := by
  rw [← mem_sortOn canonicalPairKey candidates]
  simp only [selectEvidence] at h
  split at h
  · cases h
  · next only hone =>
    cases h
    rw [hone]
    exact List.mem_singleton_self _
  · next first rest _ hordered =>
    split at h
    · cases h
    · cases h
      generalize htied : (sortOn canonicalPairKey candidates).filter _ = tied
      cases tied with
      | nil =>
        rw [hordered]
        exact List.mem_cons_self
      | cons best others =>
        have hbest : best ∈ (best :: others) := List.mem_cons_self
        rw [← htied] at hbest
        exact (List.mem_filter.mp hbest).1

/-! ### Transitions -/

/-- The fields of a source fact that a rule may read. -/
structure RawObservationEvidence where
  observationId : Uuid
  receivedAt : Int
  pairId : Uuid
  apiRequestLogId : Uuid
  volumeM5Usd : Option ℚ
  volumeH1Usd : Option ℚ
  liquidityUsd : Option ℚ
deriving DecidableEq

inductive LifecycleTransitionRule where
  | newToActive
  | newToWatch
  | activeToFading
  | watchToFading
  | fadingToDormant
  | dormantToResurrected
deriving DecidableEq, Repr

namespace LifecycleTransitionRule

def value : LifecycleTransitionRule → String
  | newToActive => "new_to_active"
  | newToWatch => "new_to_watch"
  | activeToFading => "active_to_fading"
  | watchToFading => "watch_to_fading"
  | fadingToDormant => "fading_to_dormant"
  | dormantToResurrected => "dormant_to_resurrected"

def source : LifecycleTransitionRule → LifecycleState
  | newToActive => .new
  | newToWatch => .new
  | activeToFading => .active
  | watchToFading => .watch
  | fadingToDormant => .fading
  | dormantToResurrected => .dormant

def target : LifecycleTransitionRule → LifecycleState
  | newToActive => .active
  | newToWatch => .watch
  | activeToFading => .fading
  | watchToFading => .fading
  | fadingToDormant => .dormant
  | dormantToResurrected => .resurrected

end LifecycleTransitionRule

/-- One satisfied rule and the evidence it used. -/
structure TransitionEvaluation where
  rule : LifecycleTransitionRule
  previousState : LifecycleState
  newState : LifecycleState
  inputValues : List (String × ℚ)
  thresholds : List (String × ℚ)
deriving DecidableEq

structure LifecyclePolicy where
  newToActiveMinVolumeM5Usd : ℚ
  newToWatchMinLiquidityUsd : ℚ
  activeToFadingMaxVolumeM5Usd : ℚ
  watchToFadingMaxVolumeM5Usd : ℚ
  fadingToDormantMaxVolumeH1Usd : ℚ
  fadingToDormantMaxLiquidityUsd : ℚ
  dormantToResurrectedMinVolumeM5Usd : ℚ
  dormantToResurrectedMinLiquidityUsd : ℚ
deriving DecidableEq

/-- A state falls to `FADING` under low five-minute volume. -/
def fadingBelow (rule : LifecycleTransitionRule) (state : LifecycleState) (maximum volumeM5 : ℚ) :
    Option TransitionEvaluation :=
  if volumeM5 ≤ maximum then
    some ⟨rule, state, .fading, [("volume_m5_usd", volumeM5)], [("max_volume_m5_usd", maximum)]⟩
  else none

/-- `LifecyclePolicy.evaluate`: a missing value satisfies no rule. -/
def LifecyclePolicy.evaluate (policy : LifecyclePolicy) (state : LifecycleState)
    (observation : RawObservationEvidence) : Option TransitionEvaluation :=
  match state, observation.volumeM5Usd, observation.volumeH1Usd, observation.liquidityUsd with
  | .new, some volumeM5, _, liquidity =>
    if policy.newToActiveMinVolumeM5Usd ≤ volumeM5 then
      some ⟨.newToActive, .new, .active, [("volume_m5_usd", volumeM5)],
        [("min_volume_m5_usd", policy.newToActiveMinVolumeM5Usd)]⟩
    else
      match liquidity with
      | some liquidity =>
        if policy.newToWatchMinLiquidityUsd ≤ liquidity then
          some ⟨.newToWatch, .new, .watch,
            [("volume_m5_usd", volumeM5), ("liquidity_usd", liquidity)],
            [("max_volume_m5_usd_exclusive", policy.newToActiveMinVolumeM5Usd),
             ("min_liquidity_usd", policy.newToWatchMinLiquidityUsd)]⟩
        else none
      | none => none
  | .active, some volumeM5, _, _ =>
    fadingBelow .activeToFading .active policy.activeToFadingMaxVolumeM5Usd volumeM5
  | .watch, some volumeM5, _, _ =>
    fadingBelow .watchToFading .watch policy.watchToFadingMaxVolumeM5Usd volumeM5
  | .fading, _, some volumeH1, some liquidity =>
    if volumeH1 ≤ policy.fadingToDormantMaxVolumeH1Usd ∧
        liquidity ≤ policy.fadingToDormantMaxLiquidityUsd then
      some ⟨.fadingToDormant, .fading, .dormant,
        [("volume_h1_usd", volumeH1), ("liquidity_usd", liquidity)],
        [("max_volume_h1_usd", policy.fadingToDormantMaxVolumeH1Usd),
         ("max_liquidity_usd", policy.fadingToDormantMaxLiquidityUsd)]⟩
    else none
  | .dormant, some volumeM5, _, some liquidity =>
    if policy.dormantToResurrectedMinVolumeM5Usd ≤ volumeM5 ∧
        policy.dormantToResurrectedMinLiquidityUsd ≤ liquidity then
      some ⟨.dormantToResurrected, .dormant, .resurrected,
        [("volume_m5_usd", volumeM5), ("liquidity_usd", liquidity)],
        [("min_volume_m5_usd", policy.dormantToResurrectedMinVolumeM5Usd),
         ("min_liquidity_usd", policy.dormantToResurrectedMinLiquidityUsd)]⟩
    else none
  | _, _, _, _ => none

/-- A transition leaves the state it was evaluated in, along its rule. -/
theorem LifecyclePolicy.evaluate_eq_some {policy : LifecyclePolicy} {state : LifecycleState}
    {observation : RawObservationEvidence} {evaluation : TransitionEvaluation}
    (h : policy.evaluate state observation = some evaluation) :
    evaluation.previousState = state ∧ evaluation.rule.source = state ∧
      evaluation.newState = evaluation.rule.target := by
  simp only [evaluate, fadingBelow] at h
  split at h <;> (try split at h) <;> (try split at h) <;> (try split at h) <;> cases h <;>
    exact ⟨rfl, rfl, rfl⟩

end PumpResearch.Lifecycle
