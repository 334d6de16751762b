import PumpResearch.Library.KeyedOrder
import PumpResearch.Library.OrderedDict
import PumpResearch.Library.Results
import PumpResearch.Research.Contracts

/-! State reconstruction at a decision time. Every family is filtered by its own
availability rule before anything is selected from it. -/
namespace PumpResearch.Research
open KeyedOrder OrderedDict Results

structure TokenStateAsOf where
  epochId : String
  epochNumber : Int
  tokenId : String
  chain : String
  address : String
  decisionAt : Timestamp
  identityKnown : Bool
  admissionAt : Option Timestamp
  lifecycle : Option LifecycleFact
  coverage : Option CoverageFact
  candidate : Option CandidateFact
  candidateTier : Option CandidateTierFact
  selectedPairId : Option String
  currentObservation : Option ObservationFact
  observationHistory : List ObservationFact
  pairFact : Option PairFact
  boost : Option BoostFact
  firstBoostReceivedAt : Option Timestamp
  previousBoost : Option BoostFact
  metadata : Option MetadataFact
  security : Option SecurityFact
  holderSnapshot : Option SelectiveSecurityFact
  traderDistribution : Option SelectiveSecurityFact
  creatorHistory : Option SelectiveSecurityFact
  securityFeatures : Option SelectiveSecurityFact
  liquidityEvents : List SelectiveSecurityFact
  walletEdges : List SelectiveSecurityFact
  walletClusters : List SelectiveSecurityFact
  fundingRelationships : List SelectiveSecurityFact
  context : Option MarketContextFact
  featureSetIdentifier : String
  featureSetSha256 : String
  availabilityWatermark : Option Timestamp

/-- The sort key `(time, id)` of most families. -/
def timeKey {α : Type} (time : α → Timestamp) (ident : α → String) (a : α) :
    Timestamp ×ₗ String := toLex (time a, ident a)

theorem timeKey_refines {α : Type} (time : α → Timestamp) (ident : α → String) (a b : α)
    (h : timeKey time ident a = timeKey time ident b) : ident a = ident b :=
  congrArg (fun k => (ofLex k).2) h

def raiseOnFirst {α : Type} (bad : α → Bool) (error : α → ResearchError) (xs : List α) :
    Except ResearchError Unit :=
  match xs.find? bad with
  | some a => .error (error a)
  | none => .ok ()

def SelectiveSecurityFact.knownMode (fact : SelectiveSecurityFact) : Bool :=
  fact.acquisitionMode ∈ ["historically_available", "retrospectively_reconstructed"]

/-- `_validate_history`. Its timezone checks hold of every aware timestamp. -/
def validateHistory (history : TokenHistory) : Except ResearchError Unit := do
  raiseOnFirst (fun item => item.decidedAt < item.inputWatermark)
    (fun _ => .contract "lifecycle input watermark is after its decision") history.lifecycle
  raiseOnFirst (fun item => item.receivedAt < item.bucketEnd)
    (fun _ => .contract "market context was received before its bucket closed") history.context
  raiseOnFirst (fun item => item.candidateAt < item.inputWatermark)
    (fun _ => .contract "candidate input watermark is after its decision") history.candidates
  raiseOnFirst (fun item => item.decidedAt < item.inputWatermark)
    (fun _ => .contract "candidate tier input watermark is after its decision")
    history.candidateTiers
  raiseOnFirst (fun fact => !fact.knownMode)
    (fun fact => .contract
      ("unknown selective-security acquisition mode: " ++ fact.acquisitionMode))
    history.selectiveSecurity

/-- The dictionary `latest` of `_select_pair`: the last observation of each pair. -/
def latestPerPair (observations : List ObservationFact) : Dict String ObservationFact :=
  observations.foldl (fun latest observation => latest.set observation.pairId observation) .empty

def pairRank (item : ObservationFact) : Bool ×ₗ ℚ ×ₗ Timestamp ×ₗ String :=
  toLex (item.liquidityUsd.isSome,
    toLex (item.liquidityUsd.getD (-1), toLex (item.receivedAt, item.pairId)))

/-- `_select_pair`. -/
def selectPair (observations : List ObservationFact) : Option String :=
  (firstMax pairRank (latestPerPair observations).values).map (·.pairId)

section AsOf
variable (history : TokenHistory) (decisionAt : Timestamp)

def visibleDiscoveries : List DiscoveryFact :=
  sortOn (timeKey (·.receivedAt) (·.id))
    (history.discoveries.filter fun item => item.receivedAt ≤ decisionAt)

def visibleObservations : List ObservationFact :=
  sortOn (timeKey (·.receivedAt) (·.id))
    (history.observations.filter fun item => item.receivedAt ≤ decisionAt)

/-- `_latest_lifecycle`. -/
def latestLifecycle (items : List LifecycleFact) : Option LifecycleFact :=
  firstMax (timeKey (·.decidedAt) (·.id)) (items.filter fun item =>
    decide (item.decidedAt ≤ decisionAt) && decide (item.inputWatermark ≤ item.decidedAt))

def admissionAsOf : Option Timestamp :=
  ((history.lifecycle.filter fun item =>
    decide (item.decidedAt ≤ decisionAt) && item.admits).map (·.decidedAt)).min?

def latestCoverage : Option CoverageFact :=
  firstMax (fun item => toLex (item.effectiveAt, timeKey (·.decidedAt) (·.id) item))
    (history.coverage.filter fun item =>
      decide (item.decidedAt ≤ decisionAt) && decide (item.effectiveAt ≤ decisionAt))

def latestCandidate : Option CandidateFact :=
  firstMax (timeKey (·.candidateAt) (·.id)) (history.candidates.filter fun item =>
    decide (item.candidateAt ≤ decisionAt) && decide (item.inputWatermark ≤ decisionAt))

def latestCandidateTier : Option CandidateTierFact :=
  firstMax (timeKey (·.decidedAt) (·.id)) (history.candidateTiers.filter fun item =>
    decide (item.decidedAt ≤ decisionAt) && decide (item.inputWatermark ≤ decisionAt))

def pairHistory : List ObservationFact :=
  (visibleObservations history decisionAt).filter fun item =>
    some item.pairId = selectPair (visibleObservations history decisionAt)

def latestPairFact : Option PairFact :=
  firstMax (timeKey (·.receivedAt) (·.id)) (history.pairFacts.filter fun item =>
    decide (item.receivedAt ≤ decisionAt) &&
      decide (some item.pairId = selectPair (visibleObservations history decisionAt)))

def visibleBoosts : List BoostFact :=
  sortOn (timeKey (·.receivedAt) (·.id))
    (history.boosts.filter fun item => item.receivedAt ≤ decisionAt)

/-- `_latest_received`, for the families that share it. -/
def latestReceived {α : Type} (receivedAt : α → Timestamp) (ident : α → String)
    (items : List α) : Option α :=
  firstMax (timeKey receivedAt ident) (items.filter fun item => receivedAt item ≤ decisionAt)

/-- The selective-security facts that were available at the time, in source order. -/
def deepSecurity : List SelectiveSecurityFact :=
  history.selectiveSecurity.filter fun item =>
    decide (item.receivedAt ≤ decisionAt) &&
      decide (item.acquisitionMode = "historically_available")

def latestSecurity (family : String) : Option SelectiveSecurityFact :=
  firstMax (timeKey (·.receivedAt) (·.id))
    ((deepSecurity history decisionAt).filter fun item => item.family = family)

def securityEvents (family : String) : List SelectiveSecurityFact :=
  sortOn (timeKey (·.receivedAt) (·.id))
    ((deepSecurity history decisionAt).filter fun item => item.family = family)

def latestContext : Option MarketContextFact :=
  firstMax (fun item => toLex (item.receivedAt, timeKey (·.bucketEnd) (·.id) item))
    (history.context.filter fun item =>
      decide (item.receivedAt ≤ decisionAt) && decide (item.bucketEnd ≤ decisionAt))

/-- `known_times`. Coverage facts do not enter it. -/
def knownTimes : List Timestamp :=
  (visibleDiscoveries history decisionAt).map (·.receivedAt) ++
  (pairHistory history decisionAt).map (·.receivedAt) ++
  ((latestLifecycle decisionAt history.lifecycle).map (·.decidedAt)).toList ++
  ((latestCandidate history decisionAt).map (·.candidateAt)).toList ++
  ((latestCandidateTier history decisionAt).map (·.decidedAt)).toList ++
  ((latestPairFact history decisionAt).map (·.receivedAt)).toList ++
  ((visibleBoosts history decisionAt).getLast?.map (·.receivedAt)).toList ++
  ((latestReceived decisionAt (·.receivedAt) (·.id) history.metadata).map (·.receivedAt)).toList ++
  ((latestReceived decisionAt (·.receivedAt) (·.id) history.security).map (·.receivedAt)).toList ++
  ((latestContext history decisionAt).map (·.receivedAt)).toList ++
  (deepSecurity history decisionAt).map (·.receivedAt)

def identityKnown : Bool :=
  !(visibleDiscoveries history decisionAt).isEmpty ||
  !(visibleObservations history decisionAt).isEmpty ||
  (latestLifecycle decisionAt history.lifecycle).isSome ||
  (latestCandidate history decisionAt).isSome ||
  (latestCandidateTier history decisionAt).isSome

/-- The state built after validation. -/
def tokenState (H : Hashing) (contract : FeatureSetContract) : TokenStateAsOf where
  epochId := history.epochId
  epochNumber := history.epochNumber
  tokenId := history.tokenId
  chain := history.chain
  address := history.address
  decisionAt := decisionAt
  identityKnown := identityKnown history decisionAt
  admissionAt := admissionAsOf history decisionAt
  lifecycle := latestLifecycle decisionAt history.lifecycle
  coverage := latestCoverage history decisionAt
  candidate := latestCandidate history decisionAt
  candidateTier := latestCandidateTier history decisionAt
  selectedPairId := selectPair (visibleObservations history decisionAt)
  currentObservation := (pairHistory history decisionAt).getLast?
  observationHistory := pairHistory history decisionAt
  pairFact := latestPairFact history decisionAt
  boost := (visibleBoosts history decisionAt).getLast?
  firstBoostReceivedAt := (visibleBoosts history decisionAt).head?.map (·.receivedAt)
  previousBoost := (visibleBoosts history decisionAt).dropLast.getLast?
  metadata := latestReceived decisionAt (·.receivedAt) (·.id) history.metadata
  security := latestReceived decisionAt (·.receivedAt) (·.id) history.security
  holderSnapshot := latestSecurity history decisionAt "holder_snapshots"
  traderDistribution := latestSecurity history decisionAt "trader_distribution_snapshots"
  creatorHistory := latestSecurity history decisionAt "creator_history_snapshots"
  securityFeatures := latestSecurity history decisionAt "security_feature_snapshots"
  liquidityEvents := securityEvents history decisionAt "liquidity_event_evidence"
  walletEdges := securityEvents history decisionAt "wallet_relationship_edges"
  walletClusters := securityEvents history decisionAt "wallet_cluster_snapshots"
  fundingRelationships := securityEvents history decisionAt "funding_relationship_evidence"
  context := latestContext history decisionAt
  featureSetIdentifier := contract.identifier
  featureSetSha256 := contract.sha256 H
  availabilityWatermark := (knownTimes history decisionAt).max?

theorem tokenState_availabilityWatermark (H : Hashing) (contract : FeatureSetContract) :
    (tokenState history decisionAt H contract).availabilityWatermark =
      (knownTimes history decisionAt).max? := by
  simp only [tokenState]

end AsOf

/-- `get_token_state_as_of`. -/
def getTokenStateAsOf (H : Hashing) (history : TokenHistory) (timestamp : Timestamp)
    (contract : FeatureSetContract) (allowInvalidEpoch : Bool) :
    Except ResearchError TokenStateAsOf := do
  if !history.epochDataValid && !allowInvalidEpoch then
    throw (.contract ("epoch " ++ toString history.epochNumber ++
      " is invalid and excluded from canonical research"))
  validateHistory history
  return tokenState history timestamp H contract

theorem getTokenStateAsOf_eq_ok {H : Hashing} {history : TokenHistory} {t : Timestamp}
    {contract : FeatureSetContract} {allow : Bool} {state : TokenStateAsOf}
    (h : getTokenStateAsOf H history t contract allow = .ok state) :
    validateHistory history = .ok () ∧ state = tokenState history t H contract := by
  rw [getTokenStateAsOf] at h
  by_cases hbad : (!history.epochDataValid && !allow) = true
  · simp [hbad, throw, throwThe, MonadExceptOf.throw, bind, Except.bind] at h
  · simp only [hbad, bind_eq_ok, Bool.false_eq_true, if_false, pure_eq_ok] at h
    obtain ⟨_, hv, hs⟩ := h
    exact ⟨hv, hs.symm⟩

/-- The identity fields and the validity flag of two histories agree. -/
structure SameIdentity (h₁ h₂ : TokenHistory) : Prop where
  epochId : h₁.epochId = h₂.epochId
  epochNumber : h₁.epochNumber = h₂.epochNumber
  epochDataValid : h₁.epochDataValid = h₂.epochDataValid
  tokenId : h₁.tokenId = h₂.tokenId
  chain : h₁.chain = h₂.chain
  address : h₁.address = h₂.address

/-- Both histories hold the same facts of a family up to the decision time, and facts that
share an id come in the same order. -/
def FamilyAgrees {α : Type} (ident : α → String) (available : α → Bool) (xs ys : List α) : Prop :=
  SameByKey ident (xs.filter available) (ys.filter available)

/-- Two histories agree on every fact available at the decision time. -/
structure VisibleAgree (decisionAt : Timestamp) (h₁ h₂ : TokenHistory) : Prop where
  discoveries : FamilyAgrees (·.id) (fun x => x.receivedAt ≤ decisionAt) h₁.discoveries h₂.discoveries
  observations :
    FamilyAgrees (·.id) (fun x => x.receivedAt ≤ decisionAt) h₁.observations h₂.observations
  lifecycle : FamilyAgrees (·.id) (fun x => x.decidedAt ≤ decisionAt) h₁.lifecycle h₂.lifecycle
  pairFacts : FamilyAgrees (·.id) (fun x => x.receivedAt ≤ decisionAt) h₁.pairFacts h₂.pairFacts
  boosts : FamilyAgrees (·.id) (fun x => x.receivedAt ≤ decisionAt) h₁.boosts h₂.boosts
  metadata : FamilyAgrees (·.id) (fun x => x.receivedAt ≤ decisionAt) h₁.metadata h₂.metadata
  security : FamilyAgrees (·.id) (fun x => x.receivedAt ≤ decisionAt) h₁.security h₂.security
  context : FamilyAgrees (·.id) (fun x => x.receivedAt ≤ decisionAt) h₁.context h₂.context
  coverage : FamilyAgrees (·.id)
    (fun x => decide (x.decidedAt ≤ decisionAt) && decide (x.effectiveAt ≤ decisionAt))
    h₁.coverage h₂.coverage
  candidates :
    FamilyAgrees (·.id) (fun x => x.candidateAt ≤ decisionAt) h₁.candidates h₂.candidates
  candidateTiers :
    FamilyAgrees (·.id) (fun x => x.decidedAt ≤ decisionAt) h₁.candidateTiers h₂.candidateTiers
  selectiveSecurity : FamilyAgrees (·.id) (fun x => x.receivedAt ≤ decisionAt)
    h₁.selectiveSecurity h₂.selectiveSecurity

section Family
variable {α : Type} {ident : α → String} {available : α → Bool} {xs ys : List α}

theorem FamilyAgrees.filter_and (h : FamilyAgrees ident available xs ys) (p : α → Bool) :
    SameByKey ident (xs.filter fun a => available a && p a)
      (ys.filter fun a => available a && p a) := by
  have hp := SameByKey.filter h p
  simpa only [List.filter_filter, Bool.and_comm] using hp

theorem FamilyAgrees.sorted (h : FamilyAgrees ident available xs ys) (time : α → Timestamp) :
    sortOn (timeKey time ident) (xs.filter available) =
      sortOn (timeKey time ident) (ys.filter available) :=
  (SameByKey.refine h (timeKey_refines time ident)).sortOn_eq

theorem FamilyAgrees.latest {κ : Type} [LinearOrder κ] (h : FamilyAgrees ident available xs ys)
    (p : α → Bool) (key : α → κ) (hk : ∀ a b, key a = key b → ident a = ident b) :
    firstMax key (xs.filter fun a => available a && p a) =
      firstMax key (ys.filter fun a => available a && p a) :=
  (SameByKey.refine (h.filter_and p) hk).firstMax_eq

end Family

section Congruence
variable {decisionAt : Timestamp} {h₁ h₂ : TokenHistory}

theorem visibleDiscoveries_congr (h : VisibleAgree decisionAt h₁ h₂) :
    visibleDiscoveries h₁ decisionAt = visibleDiscoveries h₂ decisionAt :=
  h.discoveries.sorted (·.receivedAt)

theorem visibleObservations_congr (h : VisibleAgree decisionAt h₁ h₂) :
    visibleObservations h₁ decisionAt = visibleObservations h₂ decisionAt :=
  h.observations.sorted (·.receivedAt)

theorem visibleBoosts_congr (h : VisibleAgree decisionAt h₁ h₂) :
    visibleBoosts h₁ decisionAt = visibleBoosts h₂ decisionAt :=
  h.boosts.sorted (·.receivedAt)

theorem latestLifecycle_congr (h : VisibleAgree decisionAt h₁ h₂) :
    latestLifecycle decisionAt h₁.lifecycle = latestLifecycle decisionAt h₂.lifecycle :=
  h.lifecycle.latest _ _ (timeKey_refines _ _)

theorem admissionAsOf_congr (h : VisibleAgree decisionAt h₁ h₂) :
    admissionAsOf h₁ decisionAt = admissionAsOf h₂ decisionAt := by
  apply min?_eq_of_mem_iff
  intro t
  simp only [List.mem_map, (h.lifecycle.filter_and LifecycleFact.admits).mem_iff]

theorem latestCoverage_congr (h : VisibleAgree decisionAt h₁ h₂) :
    latestCoverage h₁ decisionAt = latestCoverage h₂ decisionAt := by
  have hl := h.coverage.latest (fun _ => true)
    (fun item => toLex (item.effectiveAt, timeKey (·.decidedAt) (·.id) item))
    (fun a b hab => timeKey_refines _ _ a b (congrArg (fun k => (ofLex k).2) hab))
  simpa only [latestCoverage, Bool.and_true] using hl

theorem latestCandidate_congr (h : VisibleAgree decisionAt h₁ h₂) :
    latestCandidate h₁ decisionAt = latestCandidate h₂ decisionAt :=
  h.candidates.latest _ _ (timeKey_refines _ _)

theorem latestCandidateTier_congr (h : VisibleAgree decisionAt h₁ h₂) :
    latestCandidateTier h₁ decisionAt = latestCandidateTier h₂ decisionAt :=
  h.candidateTiers.latest _ _ (timeKey_refines _ _)

theorem pairHistory_congr (h : VisibleAgree decisionAt h₁ h₂) :
    pairHistory h₁ decisionAt = pairHistory h₂ decisionAt := by
  rw [pairHistory, pairHistory, visibleObservations_congr h]

theorem latestPairFact_congr (h : VisibleAgree decisionAt h₁ h₂) :
    latestPairFact h₁ decisionAt = latestPairFact h₂ decisionAt := by
  rw [latestPairFact, latestPairFact, visibleObservations_congr h]
  exact h.pairFacts.latest _ _ (timeKey_refines _ _)

theorem latestReceived_congr {α : Type} {receivedAt : α → Timestamp} {ident : α → String}
    {xs ys : List α} (h : FamilyAgrees ident (fun x => receivedAt x ≤ decisionAt) xs ys) :
    latestReceived decisionAt receivedAt ident xs = latestReceived decisionAt receivedAt ident ys :=
  (SameByKey.refine h (timeKey_refines receivedAt ident)).firstMax_eq

theorem latestContext_congr (h : VisibleAgree decisionAt h₁ h₂) :
    latestContext h₁ decisionAt = latestContext h₂ decisionAt :=
  h.context.latest _ _
    (fun a b hab => timeKey_refines _ _ a b (congrArg (fun k => (ofLex k).2) hab))

theorem deepSecurity_sameByKey (h : VisibleAgree decisionAt h₁ h₂) :
    SameByKey (·.id) (deepSecurity h₁ decisionAt) (deepSecurity h₂ decisionAt) :=
  h.selectiveSecurity.filter_and _

theorem latestSecurity_congr (h : VisibleAgree decisionAt h₁ h₂) (family : String) :
    latestSecurity h₁ decisionAt family = latestSecurity h₂ decisionAt family :=
  (((deepSecurity_sameByKey h).filter _).refine (timeKey_refines _ _)).firstMax_eq

theorem securityEvents_congr (h : VisibleAgree decisionAt h₁ h₂) (family : String) :
    securityEvents h₁ decisionAt family = securityEvents h₂ decisionAt family :=
  (((deepSecurity_sameByKey h).filter _).refine (timeKey_refines _ _)).sortOn_eq

/-- The deep facts keep their source order, but only their latest time is read. -/
theorem watermark_congr (h : VisibleAgree decisionAt h₁ h₂) :
    (knownTimes h₁ decisionAt).max? = (knownTimes h₂ decisionAt).max? := by
  apply max?_eq_of_mem_iff
  intro t
  simp only [knownTimes, visibleDiscoveries_congr h, pairHistory_congr h, latestLifecycle_congr h,
    latestCandidate_congr h, latestCandidateTier_congr h, latestPairFact_congr h,
    visibleBoosts_congr h, latestReceived_congr h.metadata, latestReceived_congr h.security,
    latestContext_congr h, List.mem_append, List.mem_map, (deepSecurity_sameByKey h).mem_iff]

theorem identityKnown_congr (h : VisibleAgree decisionAt h₁ h₂) :
    identityKnown h₁ decisionAt = identityKnown h₂ decisionAt := by
  simp only [identityKnown, visibleDiscoveries_congr h, visibleObservations_congr h,
    latestLifecycle_congr h, latestCandidate_congr h, latestCandidateTier_congr h]

/-- The state is a function of the identity and of the facts available at the time. -/
theorem tokenState_congr (hi : SameIdentity h₁ h₂) (h : VisibleAgree decisionAt h₁ h₂)
    (H : Hashing) (contract : FeatureSetContract) :
    tokenState h₁ decisionAt H contract = tokenState h₂ decisionAt H contract := by
  simp only [tokenState, hi.epochId, hi.epochNumber, hi.tokenId, hi.chain, hi.address,
    identityKnown_congr h, admissionAsOf_congr h, latestLifecycle_congr h, latestCoverage_congr h,
    latestCandidate_congr h, latestCandidateTier_congr h, visibleObservations_congr h,
    pairHistory_congr h, latestPairFact_congr h, visibleBoosts_congr h,
    latestReceived_congr h.metadata, latestReceived_congr h.security, latestSecurity_congr h,
    securityEvents_congr h, latestContext_congr h, watermark_congr h]

end Congruence

end PumpResearch.Research
