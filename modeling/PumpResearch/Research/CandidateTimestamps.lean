import PumpResearch.Library.KeyedOrder
import PumpResearch.Research.AsOf

/-! Candidate timestamps: reference times of a token, generated from its admission time
and never from an outcome. -/
namespace PumpResearch.Research
open KeyedOrder

structure CandidateTimestamp where
  id : String
  tokenId : String
  tokenAddress : String
  epochNumber : Int
  admissionAt : Timestamp
  decisionAt : Timestamp
  reason : String
  policySha256 : String
deriving DecidableEq

/-- `points`: decision times with their reasons. -/
def candidatePoints (history : TokenHistory) (policy : CandidateTimestampPolicy)
    (admission : Timestamp) : List (Timestamp × String) :=
  match policy.mode with
  | .fixedAge =>
    policy.offsetsSeconds.map fun offset =>
      (admission + seconds offset, "fixed_age_" ++ toString offset ++ "s")
  | .observation =>
    (history.observations.filter fun item => item.receivedAt ≥ admission).map fun item =>
      (item.receivedAt, "observation_received")
  | .lifecycle =>
    (history.lifecycle.filter fun item =>
      decide (item.newState ∈ policy.lifecycleStates) && decide (item.decidedAt ≥ admission)).map
      fun item => (item.decidedAt, "lifecycle_" ++ item.newState.toLower)

def pointKey (point : Timestamp × String) : Timestamp ×ₗ String := toLex point

theorem pointKey_injective : Function.Injective pointKey := toLex.injective

def inScope (scopeStartAt scopeEndAt : Option Timestamp) (decisionAt : Timestamp) : Bool :=
  scopeStartAt.all (· ≤ decisionAt) && scopeEndAt.all (decisionAt < ·)

def makeCandidate (H : Hashing) (history : TokenHistory) (policy : CandidateTimestampPolicy)
    (admission : Timestamp) (point : Timestamp × String) : CandidateTimestamp where
  id := H.candidateSha256 history.epochId history.tokenId point.1 point.2 (policy.sha256 H)
  tokenId := history.tokenId
  tokenAddress := history.address
  epochNumber := history.epochNumber
  admissionAt := admission
  decisionAt := point.1
  reason := point.2
  policySha256 := policy.sha256 H

/-- `generate_candidate_timestamps`. -/
def generateCandidateTimestamps (H : Hashing) (history : TokenHistory)
    (policy : CandidateTimestampPolicy) (scopeStartAt scopeEndAt : Option Timestamp) :
    List CandidateTimestamp :=
  match history.admissionAt with
  | none => []
  | some admission =>
    ((sortOn pointKey (candidatePoints history policy admission).dedup).filter fun point =>
      inScope scopeStartAt scopeEndAt point.1).map (makeCandidate H history policy admission)

/-- The points of a decision time depend on the facts of that time only. -/
theorem mem_candidatePoints_congr {h₁ h₂ : TokenHistory} {policy : CandidateTimestampPolicy}
    {admission : Timestamp} {point : Timestamp × String}
    (hobs : ∀ x : ObservationFact, x.receivedAt = point.1 →
      (x ∈ h₁.observations ↔ x ∈ h₂.observations))
    (hlife : ∀ x : LifecycleFact, x.decidedAt = point.1 → (x ∈ h₁.lifecycle ↔ x ∈ h₂.lifecycle)) :
    point ∈ candidatePoints h₁ policy admission ↔ point ∈ candidatePoints h₂ policy admission := by
  cases hmode : policy.mode with
  | fixedAge => simp only [candidatePoints, hmode]
  | observation =>
    simp only [candidatePoints, hmode, List.mem_map, List.mem_filter]
    constructor
    · rintro ⟨item, ⟨hm, hge⟩, rfl⟩
      exact ⟨item, ⟨(hobs item rfl).mp hm, hge⟩, rfl⟩
    · rintro ⟨item, ⟨hm, hge⟩, rfl⟩
      exact ⟨item, ⟨(hobs item rfl).mpr hm, hge⟩, rfl⟩
  | lifecycle =>
    simp only [candidatePoints, hmode, List.mem_map, List.mem_filter]
    constructor
    · rintro ⟨item, ⟨hm, hge⟩, rfl⟩
      exact ⟨item, ⟨(hlife item rfl).mp hm, hge⟩, rfl⟩
    · rintro ⟨item, ⟨hm, hge⟩, rfl⟩
      exact ⟨item, ⟨(hlife item rfl).mpr hm, hge⟩, rfl⟩

theorem mem_admissionTimes {history : TokenHistory} {t : Timestamp} :
    t ∈ (history.lifecycle.filter LifecycleFact.admits).map (·.decidedAt) ↔
      ∃ x ∈ history.lifecycle, x.admits ∧ x.decidedAt = t := by
  simp [List.mem_map, List.mem_filter, and_assoc]

/-- Candidates depend on the identity and on the members of two families. -/
theorem generate_congr {H : Hashing} {policy : CandidateTimestampPolicy}
    {start stop : Option Timestamp} {h₁ h₂ : TokenHistory} (hi : SameIdentity h₁ h₂)
    (hobs : ∀ x, x ∈ h₁.observations ↔ x ∈ h₂.observations)
    (hlife : ∀ x, x ∈ h₁.lifecycle ↔ x ∈ h₂.lifecycle) :
    generateCandidateTimestamps H h₁ policy start stop =
      generateCandidateTimestamps H h₂ policy start stop := by
  have hadm : h₁.admissionAt = h₂.admissionAt := by
    apply min?_eq_of_mem_iff
    intro t
    simp only [mem_admissionTimes, hlife]
  cases h : h₂.admissionAt with
  | none => simp only [generateCandidateTimestamps, hadm, h]
  | some admission =>
    have hmake : makeCandidate H h₁ policy admission = makeCandidate H h₂ policy admission := by
      funext point
      simp only [makeCandidate, hi.epochId, hi.tokenId, hi.address, hi.epochNumber]
    have hpoints : ∀ p, p ∈ candidatePoints h₁ policy admission ↔
        p ∈ candidatePoints h₂ policy admission :=
      fun p => mem_candidatePoints_congr (fun x _ => hobs x) (fun x _ => hlife x)
    simp only [generateCandidateTimestamps, hadm, h, hmake,
      sortOn_dedup_congr pointKey_injective hpoints]

end PumpResearch.Research
