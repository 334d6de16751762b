import Mathlib

/-! Research facts, token histories and versioned contracts. Timestamps are aware
datetimes, kept as the instant in microseconds; Decimal values are kept as rationals. -/
namespace PumpResearch.Research

abbrev Timestamp := Int

/-- The executable orders behind the sort keys, ahead of the complete orders of Mathlib. -/
scoped instance linearOrderTimestamp : LinearOrder Timestamp := Int.instLinearOrder

scoped instance linearOrderBool : LinearOrder Bool := Bool.linearOrder

/-- `timedelta(seconds=n)`. -/
def seconds (n : Int) : Int := n * 1000000

inductive ResearchError where
  | contract (message : String)
  | value (message : String)
  | key (name : String)
  | integrity (message : String)
  | arithmetic (message : String)
deriving DecidableEq

def lookbackHorizonsSeconds : List Int := [5, 15, 30, 60, 120, 300, 900]

/-- `LOOKBACK_TOLERANCE_SECONDS`; a missing key is a `KeyError`. -/
def lookbackToleranceTable : List (Int × Int) :=
  [(5, 5), (15, 10), (30, 15), (60, 30), (120, 60), (300, 120), (900, 300)]

def labelHorizonsSeconds : List Int := [30, 60, 300, 900, 3600, 21600, 86400, 604800]

/-- `LABEL_FORWARD_TOLERANCE_SECONDS`; a missing key is a `KeyError`. -/
def labelForwardToleranceTable : List (Int × Int) :=
  [(30, 15), (60, 30), (300, 120), (900, 300), (3600, 900), (21600, 3600), (86400, 10800),
    (604800, 43200)]

def lookupSeconds {β : Type} (table : List (Int × β)) (horizon : Int) : Except ResearchError β :=
  match table.lookup horizon with
  | some value => .ok value
  | none => .error (.key (toString horizon))

structure DiscoveryFact where
  id : String
  receivedAt : Timestamp
  sourceEventAt : Option Timestamp := none
  eventType : String := "discovered"
deriving DecidableEq

structure ObservationFact where
  id : String
  pairId : String
  pairAddress : String
  receivedAt : Timestamp
  sourceObservedAt : Option Timestamp := none
  priceUsd : Option ℚ := none
  priceNative : Option ℚ := none
  liquidityUsd : Option ℚ := none
  marketCapUsd : Option ℚ := none
  fullyDilutedValuationUsd : Option ℚ := none
  volumeM5Usd : Option ℚ := none
  volumeH1Usd : Option ℚ := none
  volumeH6Usd : Option ℚ := none
  volumeH24Usd : Option ℚ := none
  buysM5 : Option Int := none
  sellsM5 : Option Int := none
  buysH1 : Option Int := none
  sellsH1 : Option Int := none
  buysH6 : Option Int := none
  sellsH6 : Option Int := none
  buysH24 : Option Int := none
  sellsH24 : Option Int := none
  liquidityBase : Option ℚ := none
  liquidityQuote : Option ℚ := none
deriving DecidableEq

structure LifecycleFact where
  id : String
  decidedAt : Timestamp
  inputWatermark : Timestamp
  previousState : Option String
  newState : String
  reasonCode : String
deriving DecidableEq

structure PairFact where
  id : String
  pairId : String
  receivedAt : Timestamp
  pairCreatedAt : Option Timestamp := none
  dexIdentifier : Option String := none
  baseTokenAddress : Option String := none
  quoteTokenAddress : Option String := none
deriving DecidableEq

structure BoostFact where
  id : String
  receivedAt : Timestamp
  sourceObservedAt : Option Timestamp := none
  activeBoostCount : Option Int := none
  amount : Option ℚ := none
  totalAmount : Option ℚ := none
deriving DecidableEq

structure MetadataFact where
  id : String
  receivedAt : Timestamp
  sourceObservedAt : Option Timestamp := none
  name : Option String := none
  symbol : Option String := none
  metadataUri : Option String := none
  imageUrl : Option String := none
  websiteUrl : Option String := none
  twitter : Option String := none
  telegram : Option String := none
deriving DecidableEq

structure SecurityFact where
  id : String
  receivedAt : Timestamp
  sourceObservedAt : Option Timestamp := none
  status : String := "unavailable"
  tokenProgram : String := "unknown"
  mintAuthority : Option String := none
  freezeAuthority : Option String := none
  rawSupply : Option ℚ := none
  decimals : Option Int := none
  extensionTypes : Option (List String) := none
deriving DecidableEq

structure MarketContextFact where
  id : String
  bucketStart : Timestamp
  bucketEnd : Timestamp
  receivedAt : Timestamp
  solUsdPrice : Option ℚ := none
  solReturn5m : Option ℚ := none
  solRealizedVolatility1h : Option ℚ := none
  admittedTokens : Option Int := none
  matureCohortActiveFraction : Option ℚ := none
  pairSampleCount : Option Int := none
  aggregateVolumeM5Usd : Option ℚ := none
  aggregateBuysM5 : Option Int := none
  aggregateSellsM5 : Option Int := none
deriving DecidableEq

structure CoverageFact where
  id : String
  decidedAt : Timestamp
  effectiveAt : Timestamp
  coverageClass : String
  lifecycleState : String
deriving DecidableEq

structure CandidateFact where
  id : String
  candidateAt : Timestamp
  inputWatermark : Timestamp
  triggerType : String
  evidenceSha256 : String
deriving DecidableEq

structure CandidateTierFact where
  id : String
  decidedAt : Timestamp
  inputWatermark : Timestamp
  previousTier : String
  newTier : String
  reasonCode : String
deriving DecidableEq

/-- `values` is only carried along; it is kept as its canonical JSON text. -/
structure SelectiveSecurityFact where
  id : String
  family : String
  receivedAt : Timestamp
  acquisitionMode : String
  availability : Option String := none
  completeness : Option String := none
  values : String := ""
deriving DecidableEq

/-- Where a history was read from: the descriptor dictionaries of the sources. -/
inductive SourceDescriptor where
  | memory (kind sha256 : String)
  | adapter (fields : List (String × String))
  | hotCold (cutoff : Timestamp) (sources : List SourceDescriptor)

structure TokenHistory where
  epochId : String
  epochNumber : Int
  epochDataValid : Bool
  tokenId : String
  chain : String
  address : String
  discoveries : List DiscoveryFact := []
  observations : List ObservationFact := []
  lifecycle : List LifecycleFact := []
  pairFacts : List PairFact := []
  boosts : List BoostFact := []
  metadata : List MetadataFact := []
  security : List SecurityFact := []
  context : List MarketContextFact := []
  coverage : List CoverageFact := []
  candidates : List CandidateFact := []
  candidateTiers : List CandidateTierFact := []
  selectiveSecurity : List SelectiveSecurityFact := []
  sourceDescriptor : SourceDescriptor := .adapter []

/-- Admission times: NEW decisions whose input was known when they were made. -/
def LifecycleFact.admits (item : LifecycleFact) : Bool :=
  item.newState = "NEW" && decide (item.inputWatermark ≤ item.decidedAt)

/-- `TokenHistory.admission_at`. -/
def TokenHistory.admissionAt (history : TokenHistory) : Option Timestamp :=
  ((history.lifecycle.filter LifecycleFact.admits).map (·.decidedAt)).min?

structure FeatureSetContract where
  name : String := "market"
  version : String := "1"
  requiredInputs : List String := ["observations", "lifecycle_events"]
  optionalInputs : List String := ["pair_fact_events", "boost_observations",
    "token_metadata_events", "token_security_snapshots", "market_context_snapshots"]
  availabilityRule : String := "availability_at <= decision_at; no forward interpolation"
  lookbackHorizonsSeconds : List Int := lookbackHorizonsSeconds
  lookbackToleranceSeconds : List (Int × Int) := lookbackToleranceTable
  derivationRevision : String := "market-v1.0.0"
deriving DecidableEq

def FeatureSetContract.identifier (c : FeatureSetContract) : String := c.name ++ "-v" ++ c.version

structure LabelSetContract where
  name : String := "outcomes"
  version : String := "1"
  horizonsSeconds : List Int := labelHorizonsSeconds
  forwardToleranceSeconds : List (Int × Int) := labelForwardToleranceTable
  proxyNotionalsUsd : List Int := [100, 1000, 5000]
  derivationRevision : String := "outcomes-v1.1.0"
  executionAdjustedReturnAvailable : Bool := false
deriving DecidableEq

def LabelSetContract.identifier (c : LabelSetContract) : String := c.name ++ "-v" ++ c.version

inductive CandidateMode where
  | fixedAge | observation | lifecycle
deriving DecidableEq

structure CandidateTimestampPolicy where
  mode : CandidateMode := .fixedAge
  offsetsSeconds : List Int := [30, 60, 120, 300, 600, 1800, 3600]
  lifecycleStates : List String := ["ACTIVE", "FADING", "RESURRECTED"]
  version : String := "1"
deriving DecidableEq

inductive SplitName where
  | train | validation | test
deriving DecidableEq

def SplitName.text : SplitName → String
  | .train => "train"
  | .validation => "validation"
  | .test => "test"

/-- A value exists only if `__post_init__` accepted its bounds. -/
structure SplitWindow where
  name : SplitName
  startAt : Timestamp
  endAt : Timestamp
  labelEndAt : Timestamp
  start_lt_end : startAt < endAt
  end_le_labelEnd : endAt ≤ labelEndAt
deriving DecidableEq

def SplitWindow.make (name : SplitName) (startAt endAt labelEndAt : Timestamp) :
    Except ResearchError SplitWindow :=
  if h : startAt < endAt ∧ endAt ≤ labelEndAt then
    .ok ⟨name, startAt, endAt, labelEndAt, h.1, h.2⟩
  else .error (.value "split requires start_at < end_at <= label_end_at")

/-- Adjacent windows do not overlap. -/
def WindowsOrdered : List SplitWindow → Prop
  | previous :: current :: rest =>
    previous.endAt ≤ current.startAt ∧ WindowsOrdered (current :: rest)
  | _ => True

instance decidableWindowsOrdered : (ws : List SplitWindow) → Decidable (WindowsOrdered ws)
  | [] => .isTrue trivial
  | [_] => .isTrue trivial
  | previous :: current :: rest =>
    have := decidableWindowsOrdered (current :: rest)
    inferInstanceAs (Decidable (previous.endAt ≤ current.startAt ∧ WindowsOrdered (current :: rest)))

/-- A value exists only if `__post_init__` accepted its windows. -/
structure ChronologicalSplitContract where
  windows : List SplitWindow
  tokenExclusiveByAdmission : Bool := true
  maximumLabelHorizonSeconds : Int := 604800
  version : String := "1"
  names_canonical : windows.map (·.name) = [.train, .validation, .test]
  windows_ordered : WindowsOrdered windows

def ChronologicalSplitContract.make (windows : List SplitWindow)
    (tokenExclusiveByAdmission : Bool) (maximumLabelHorizonSeconds : Int) (version : String) :
    Except ResearchError ChronologicalSplitContract :=
  if hn : windows.map (·.name) = [.train, .validation, .test] then
    if ho : WindowsOrdered windows then
      .ok ⟨windows, tokenExclusiveByAdmission, maximumLabelHorizonSeconds, version, hn, ho⟩
    else .error (.value "chronological split windows cannot overlap")
  else .error (.value "canonical split windows must be train, validation, test")

def ChronologicalSplitContract.assignmentTime (contract : ChronologicalSplitContract)
    (admission decision : Timestamp) : Timestamp :=
  if contract.tokenExclusiveByAdmission then admission else decision

/-- The loop of `assign`, returning the window whose name it returns. -/
def ChronologicalSplitContract.assignIn (contract : ChronologicalSplitContract)
    (admission decision : Timestamp) : List SplitWindow → Option SplitWindow
  | [] => none
  | window :: rest =>
    if window.startAt ≤ contract.assignmentTime admission decision ∧
        contract.assignmentTime admission decision < window.endAt then
      if ¬ (window.startAt ≤ decision ∧ decision < window.endAt) then none
      else if decision + seconds contract.maximumLabelHorizonSeconds > window.labelEndAt then none
      else some window
    else contract.assignIn admission decision rest

def ChronologicalSplitContract.assignWindow (contract : ChronologicalSplitContract)
    (admission decision : Timestamp) : Option SplitWindow :=
  contract.assignIn admission decision contract.windows

def ChronologicalSplitContract.assign (contract : ChronologicalSplitContract)
    (admission decision : Timestamp) : Option SplitName :=
  (contract.assignWindow admission decision).map (·.name)

/-- An assigned row's nominal label horizon ends inside the window's label range. -/
theorem ChronologicalSplitContract.assignIn_horizon (contract : ChronologicalSplitContract)
    (admission decision : Timestamp) (windows : List SplitWindow) (w : SplitWindow)
    (h : contract.assignIn admission decision windows = some w) :
    w ∈ windows ∧ w.startAt ≤ decision ∧ decision < w.endAt ∧
      decision + seconds contract.maximumLabelHorizonSeconds ≤ w.labelEndAt := by
  induction windows with
  | nil => simp [assignIn] at h
  | cons v rest ih =>
    rw [assignIn] at h
    by_cases hv : v.startAt ≤ contract.assignmentTime admission decision ∧
        contract.assignmentTime admission decision < v.endAt
    · rw [if_pos hv] at h
      by_cases hin : v.startAt ≤ decision ∧ decision < v.endAt
      · rw [if_neg (not_not.mpr hin)] at h
        by_cases hpurge : decision + seconds contract.maximumLabelHorizonSeconds > v.labelEndAt
        · simp [hpurge] at h
        · rw [if_neg hpurge] at h
          obtain rfl : v = w := Option.some.inj h
          exact ⟨by simp, hin.1, hin.2, not_lt.mp hpurge⟩
      · simp [hin] at h
    · rw [if_neg hv] at h
      obtain ⟨hm, hrest⟩ := ih h
      exact ⟨List.mem_cons_of_mem v hm, hrest⟩

/-- The fact documents `_histories_content_sha256` feeds to `canonical_digest`. Their key
sets differ from family to family, so documents of two families are never equal. -/
inductive FactDocument where
  | identity (epochId : String) (epochNumber : Int) (epochDataValid : Bool)
      (tokenId chain address : String)
  | discovery (fact : DiscoveryFact)
  | observation (fact : ObservationFact)
  | lifecycle (fact : LifecycleFact)
  | pair (fact : PairFact)
  | boost (fact : BoostFact)
  | metadata (fact : MetadataFact)
  | security (fact : SecurityFact)
  | context (fact : MarketContextFact)
  | coverage (fact : CoverageFact)

/-- Everything the research package passes to `canonical_digest`. -/
inductive Document where
  | fact (document : FactDocument)
  | featureSet (contract : FeatureSetContract)
  | labelSet (contract : LabelSetContract)
  | candidatePolicy (policy : CandidateTimestampPolicy)
  | splitContract (contract : ChronologicalSplitContract)
  | historyCounts (epoch : Int) (token : String) (observations lifecycle boosts : Nat)
  | descriptor (descriptor : SourceDescriptor)
  | identifiers (ids : List String)

/-- The digests of the package: `canonical_digest`, a SHA-256 fed with a sequence of hex
digests, and the SHA-256 of a candidate payload. -/
structure Hashing where
  canonicalDigest : Document → String
  sha256Updates : List String → String
  candidateSha256 : (epochId tokenId : String) → (decisionAt : Timestamp) →
    (reason policySha256 : String) → String

/-- Readable digests, for evaluating the model. -/
def plainHashing : Hashing where
  canonicalDigest _ := "digest"
  sha256Updates := String.join
  candidateSha256 epochId tokenId decisionAt reason policySha256 :=
    String.intercalate "|" [epochId, tokenId, toString decisionAt, reason, policySha256]

def FeatureSetContract.sha256 (H : Hashing) (c : FeatureSetContract) : String :=
  H.canonicalDigest (.featureSet c)

def LabelSetContract.sha256 (H : Hashing) (c : LabelSetContract) : String :=
  H.canonicalDigest (.labelSet c)

def CandidateTimestampPolicy.sha256 (H : Hashing) (p : CandidateTimestampPolicy) : String :=
  H.canonicalDigest (.candidatePolicy p)

def ChronologicalSplitContract.sha256 (H : Hashing) (c : ChronologicalSplitContract) : String :=
  H.canonicalDigest (.splitContract c)

end PumpResearch.Research
