import PumpResearch.Instants
import PumpResearch.Library.OrderedDict

/-! Orchestration rules of candidate tiers. They choose a target tier and a finite coverage
time from facts received by the evaluation watermark. -/
namespace PumpResearch.Candidates
open OrderedDict

inductive CandidateTier where
  | tier0Universal
  | tier1Interesting
  | tier2Investigate
  | tier3DeepReview
  | tier4Pretrade
deriving DecidableEq, Repr

inductive TransitionReason where
  | marketActivity
  | watchState
  | boostActivity
  | securityChange
  | coverageResurrection
  | evidenceStale
  | activityCooling
deriving DecidableEq, Repr

/-- The facts of one evaluation as supplied, before they are checked. -/
structure EvidenceFields where
  tokenId : Uuid
  evaluatedAt : Int
  watermark : Int
  lifecycleState : String
  coverageClass : String
  admittedAt : Int
  observationId : Option String
  observationReceivedAt : Option Int
  liquidityUsd : Option ℚ
  volumeM5Usd : Option ℚ
  buysM5 : Option Int
  sellsM5 : Option Int
  boostEventId : Option String := none
  boostReceivedAt : Option Int := none
  securitySnapshotId : Option String := none
  securityReceivedAt : Option Int := none
  coverageResurrection : Bool := false
  holderSnapshotId : Option String := none
  holderReceivedAt : Option Int := none
  holderTop10Pct : Option ℚ := none
  traderSnapshotId : Option String := none
  traderReceivedAt : Option Int := none
  uniqueTraders : Option Int := none
  totalTrades : Option Int := none
  walletEvidenceReceivedAt : Option Int := none
  commonFunderSharePct : Option ℚ := none
  liquidityEvidenceReceivedAt : Option Int := none
  liquidityRemovalPct : Option ℚ := none
deriving DecidableEq

/-- The receipt times that `__post_init__` compares with the watermark, under their names. -/
def EvidenceFields.receiptTimes (e : EvidenceFields) : List (String × Option Int) :=
  [("observation_received_at", e.observationReceivedAt),
   ("boost_received_at", e.boostReceivedAt),
   ("security_received_at", e.securityReceivedAt),
   ("holder_received_at", e.holderReceivedAt),
   ("trader_received_at", e.traderReceivedAt),
   ("wallet_evidence_received_at", e.walletEvidenceReceivedAt),
   ("liquidity_evidence_received_at", e.liquidityEvidenceReceivedAt)]

/-- Evidence that passed its checks: no fact is later than the watermark. -/
structure CandidateEvidence extends EvidenceFields where
  watermark_le : watermark ≤ evaluatedAt
  received_le : ∀ field ∈ toEvidenceFields.receiptTimes, ∀ t, field.2 = some t → t ≤ watermark
deriving DecidableEq

instance decidableReceivedBy (watermark : Int) (t : Option Int) :
    Decidable (∀ u, t = some u → u ≤ watermark) :=
  match t with
  | none => .isTrue (fun _ h => nomatch h)
  | some v => decidable_of_iff (v ≤ watermark)
      ⟨fun h _ hu => Option.some.inj hu ▸ h, fun h => h v rfl⟩

/-- `CandidateEvidence.__post_init__`. -/
def EvidenceFields.postInit (e : EvidenceFields) : Except String CandidateEvidence :=
  if hw : e.watermark ≤ e.evaluatedAt then
    match hf : e.receiptTimes.find? fun field => ¬ ∀ t, field.2 = some t → t ≤ e.watermark with
    | some field => .error (field.1 ++ " cannot exceed the input watermark")
    | none => .ok ⟨e, hw, by simpa [List.find?_eq_none] using hf⟩
  else .error "input watermark cannot be after evaluation time"

namespace CandidateEvidence

def transactionCountM5 (e : CandidateEvidence) : Option Int :=
  match e.buysM5, e.sellsM5 with
  | some buys, some sells => some (buys + sells)
  | _, _ => none

/-- The ratio under a division of Decimals; missing or zero liquidity has none. -/
def volumeLiquidityRatio (divide : ℚ → ℚ → ℚ) (e : CandidateEvidence) : Option ℚ :=
  match e.volumeM5Usd, e.liquidityUsd with
  | some volume, some liquidity => if liquidity = 0 then none else some (divide volume liquidity)
  | _, _ => none

end CandidateEvidence

/-- A value recorded in the detail of a decision. -/
inductive DetailValue where
  | absent
  | flag (value : Bool)
  | number (value : Int)
  | decimal (value : ℚ)
  | names (values : List String)
deriving DecidableEq

structure EvaluationDecision where
  eligible : Bool
  targetTier : CandidateTier
  reason : TransitionReason
  coverageUntil : Option Int
  evidenceSha256 : String
  detail : Dict String DetailValue
deriving DecidableEq

structure CandidatePolicy where
  minimumLiquidityUsd : ℚ
  minimumTransactionsM5 : Int
  minimumVolumeLiquidityRatio : ℚ
  tier2MinimumLiquidityUsd : ℚ
  tier2MinimumTransactionsM5 : Int
  tier2MinimumVolumeLiquidityRatio : ℚ
  tier1Ttl : Int
  tier2Ttl : Int
  coverageInterval : Int
  securityFreshness : Int
  tasksPerMinute : Nat
  expensiveSlotsPerMinute : Nat
  boostWakeupsPerMinute : Nat
  maxActiveCoverage : Nat
  tier3Ttl : Int
  maxTier3Candidates : Nat
  tier3HolderTop10Pct : ℚ
  tier3MaxUniqueTraders : Int
  tier3MinTotalTrades : Int
  tier3CommonFunderSharePct : ℚ
  tier3LiquidityRemovalPct : ℚ
deriving DecidableEq

def candidateVersion : String := "1.1.0"

/-- A present value that passes a test. -/
def presentAnd {α : Type} (value : Option α) (test : α → Bool) : Bool := value.elim false test

/-- Activity at or above the three market minima. -/
def marketAtLeast (e : CandidateEvidence) (ratio : Option ℚ) (minLiquidity : ℚ)
    (minTransactions : Int) (minRatio : ℚ) : Bool :=
  presentAnd e.liquidityUsd (minLiquidity ≤ ·) &&
    presentAnd e.transactionCountM5 (minTransactions ≤ ·) && presentAnd ratio (minRatio ≤ ·)

namespace CandidatePolicy

/-- The deep-review reasons in the order of their names. -/
def tier3Reasons (policy : CandidatePolicy) (e : CandidateEvidence) : List (String × Bool) :=
  [("common_funder", presentAnd e.commonFunderSharePct (policy.tier3CommonFunderSharePct ≤ ·)),
   ("few_traders", presentAnd e.uniqueTraders fun unique =>
      presentAnd e.totalTrades fun total =>
        policy.tier3MinTotalTrades ≤ total && unique ≤ policy.tier3MaxUniqueTraders),
   ("holder_concentration", presentAnd e.holderTop10Pct (policy.tier3HolderTop10Pct ≤ ·)),
   ("liquidity_removal", presentAnd e.liquidityRemovalPct (policy.tier3LiquidityRemovalPct ≤ ·))]

/-- The reason for a first-tier nomination, if there is one. -/
def nominationReason (e : CandidateEvidence) (marketOk : Bool) : Option TransitionReason :=
  if e.boostEventId.isSome then some .boostActivity
  else if e.coverageResurrection then some .coverageResurrection
  else if e.lifecycleState = "WATCH" && marketOk then some .watchState
  else if marketOk then some .marketActivity
  else none

/-- `CandidatePolicy.evaluate`, under a Decimal division and a digest of evidence. -/
def evaluate (divide : ℚ → ℚ → ℚ) (evidenceDigest : CandidateEvidence → String)
    (policy : CandidatePolicy) (e : CandidateEvidence) (currentTier : CandidateTier) :
    EvaluationDecision :=
  let ratio := e.volumeLiquidityRatio divide
  let marketOk := marketAtLeast e ratio policy.minimumLiquidityUsd policy.minimumTransactionsM5
    policy.minimumVolumeLiquidityRatio
  let securityFresh := presentAnd e.securityReceivedAt fun received =>
    e.evaluatedAt - received ≤ policy.securityFreshness
  let tier2Market := marketAtLeast e ratio policy.tier2MinimumLiquidityUsd
    policy.tier2MinimumTransactionsM5 policy.tier2MinimumVolumeLiquidityRatio
  let matched := (policy.tier3Reasons e).filter (·.2)
  if (currentTier = .tier2Investigate || currentTier = .tier3DeepReview) && !matched.isEmpty then
    { eligible := true
      targetTier := .tier3DeepReview
      reason := .securityChange
      coverageUntil := some (e.evaluatedAt + policy.tier3Ttl)
      evidenceSha256 := evidenceDigest e
      detail := Dict.empty.setAll [("deep_review_eligible", .flag true),
        ("deep_review_reasons", .names (matched.map (·.1)))] }
  else
    match nominationReason e marketOk with
    | none =>
      { eligible := false
        targetTier := .tier0Universal
        reason := if currentTier = .tier0Universal then .activityCooling else .evidenceStale
        coverageUntil := none
        evidenceSha256 := evidenceDigest e
        detail := Dict.empty.set "market_activity_eligible" (.flag false) }
    | some reason =>
      let target : CandidateTier :=
        if (currentTier = .tier1Interesting || currentTier = .tier2Investigate) && tier2Market &&
          securityFresh then .tier2Investigate else .tier1Interesting
      let ttl := if target = .tier2Investigate then policy.tier2Ttl else policy.tier1Ttl
      { eligible := true
        targetTier := target
        reason := reason
        coverageUntil := some (e.evaluatedAt + ttl)
        evidenceSha256 := evidenceDigest e
        detail := Dict.empty.setAll [("market_activity_eligible", .flag marketOk),
          ("tier2_market_eligible", .flag tier2Market), ("security_fresh", .flag securityFresh),
          ("transaction_count_m5", e.transactionCountM5.elim .absent .number),
          ("volume_liquidity_ratio", ratio.elim .absent .decimal)] }

section Decisions
variable {divide : ℚ → ℚ → ℚ} {evidenceDigest : CandidateEvidence → String}

/-- An eligible decision has a coverage end, and only those do. -/
theorem evaluate_coverageUntil (policy : CandidatePolicy) (e : CandidateEvidence)
    (tier : CandidateTier) :
    (policy.evaluate divide evidenceDigest e tier).coverageUntil.isSome =
      (policy.evaluate divide evidenceDigest e tier).eligible := by
  unfold evaluate
  dsimp only
  split
  · rfl
  · split
    · rfl
    · rfl

/-- A decision is eligible exactly when it targets a tier above the universal one. -/
theorem evaluate_eligible_iff (policy : CandidatePolicy) (e : CandidateEvidence)
    (tier : CandidateTier) : (policy.evaluate divide evidenceDigest e tier).eligible = true ↔
      (policy.evaluate divide evidenceDigest e tier).targetTier ≠ .tier0Universal := by
  unfold evaluate
  dsimp only
  split
  · simp
  · split
    · simp
    · simp only [true_iff]
      split <;> simp

end Decisions

end CandidatePolicy

end PumpResearch.Candidates
