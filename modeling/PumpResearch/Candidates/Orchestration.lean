import PumpResearch.Candidates.TierHistory
import PumpResearch.Lifecycle.Policy
import PumpResearch.Scheduling.Completion

/-! The orchestration service: evidence is read from committed facts as of a watermark, decided by
the policy for the stored tier, and applied. -/
namespace PumpResearch.Candidates
open KeyedOrder KeyedTable OrderedDict Results Scheduling

/-! ### Committed facts -/

/-- A fact about a token with the columns that evidence takes from it. -/
structure TokenFact (Columns : Type) where
  id : Uuid
  tokenId : Uuid
  receivedAt : Int
  columns : Columns
deriving DecidableEq

structure HolderColumns where
  acquisitionMode : String
  top10Pct : Option ℚ
deriving DecidableEq

structure TraderColumns where
  acquisitionMode : String
  uniqueTraders : Option Int
  totalTrades : Option Int
deriving DecidableEq

/-- The features of a snapshot, as the numbers that `_decimal_feature` makes of them. -/
structure FeatureColumns where
  acquisitionMode : String
  commonFunderShare : Option ℚ
  liquidityRemovalRecentPct : Option ℚ
deriving DecidableEq

structure TrackedPair where
  id : Uuid
  tokenId : Uuid
deriving DecidableEq

structure PairObservation where
  id : Uuid
  pairId : Uuid
  receivedAt : Int
  liquidityUsd : Option ℚ
  volumeM5Usd : Option ℚ
  buysM5 : Option Int
  sellsM5 : Option Int
deriving DecidableEq

/-- A lifecycle evaluation of one token. -/
structure LifecycleEvaluation where
  apiRequestLogId : Uuid
  tokenId : Uuid
  outcome : String
  selectedObservationId : Option Uuid
  selectedObservationReceivedAt : Option Int
  inputWatermark : Int
deriving DecidableEq

/-- The epoch of a collector run; old runs have none. -/
structure RunEpoch where
  id : Uuid
  collectionEpochId : Option Uuid
deriving DecidableEq

/-- A boost event names its boost observation; its time is the decision time. -/
abbrev BoostEventFact := TokenFact Uuid

/-- The committed tables. A boost event is decided when its observation is received, for the token
of its observation, and a lifecycle evaluation selects among the pairs of its own token. -/
structure CandidateFacts where
  runs : List RunEpoch := []
  pairs : List TrackedPair := []
  observations : List PairObservation := []
  evaluations : List LifecycleEvaluation := []
  boostObservations : List (TokenFact Unit) := []
  boostEvents : List BoostEventFact := []
  securitySnapshots : List (TokenFact Unit) := []
  holderSnapshots : List (TokenFact HolderColumns) := []
  traderSnapshots : List (TokenFact TraderColumns) := []
  featureSnapshots : List (TokenFact FeatureColumns) := []
  boosts_unique : (boostObservations.map (·.id)).Nodup
  boostEvents_unique : (boostEvents.map (·.id)).Nodup
  boostEvents_observed : ∀ event ∈ boostEvents, ∃ boost ∈ boostObservations,
    boost.id = event.columns ∧ boost.tokenId = event.tokenId ∧ boost.receivedAt = event.receivedAt
  evaluations_own : ∀ evaluation ∈ evaluations, ∀ observation ∈ observations, ∀ pair ∈ pairs,
    evaluation.selectedObservationId = some observation.id → pair.id = observation.pairId →
      pair.tokenId = evaluation.tokenId

/-- The newest of the rows, as `ORDER BY time DESC, id DESC LIMIT 1` returns it. -/
def newest {α : Type} (time : α → Int) (id : α → Uuid) (rows : List α) : Option α :=
  firstMax (fun row => toLex (time row, id row)) rows

section Queries
variable (facts : CandidateFacts)

/-- The latest fact of a token by the watermark that the query keeps. -/
def latestFact {Columns : Type} (keep : Columns → Bool) (tokenId : Uuid) (watermark : Int)
    (rows : List (TokenFact Columns)) : Option (TokenFact Columns) :=
  newest (·.receivedAt) (·.id) (rows.filter fun row =>
    row.tokenId = tokenId && row.receivedAt ≤ watermark && keep row.columns)

def historicallyAvailable : String := "historically_available"

def CandidateFacts.ofToken (tokenId : Uuid) (observation : PairObservation) : Bool :=
  facts.pairs.any fun pair => pair.id = observation.pairId && pair.tokenId = tokenId

def CandidateFacts.latestObservation (tokenId : Uuid) (watermark : Int) :
    Option PairObservation :=
  newest (·.receivedAt) (·.id) (facts.observations.filter fun observation =>
    facts.ofToken tokenId observation && observation.receivedAt ≤ watermark)

/-- The newest boost event after a time and by the watermark. -/
def CandidateFacts.latestBoostEvent (tokenId : Uuid) (after watermark : Int) :
    Option BoostEventFact :=
  newest (·.receivedAt) (·.id) (facts.boostEvents.filter fun event =>
    event.tokenId = tokenId && event.receivedAt ≤ watermark && decide (after < event.receivedAt))

/-- The first boost event of a boost observation. -/
def CandidateFacts.boostEventOf (boostObservationId : Uuid) : Option BoostEventFact :=
  (sortOn (fun event : BoostEventFact => toLex (event.receivedAt, event.id))
    (facts.boostEvents.filter (·.columns = boostObservationId))).head?

def CandidateFacts.epochOf (collectorRunId : Uuid) : Option Uuid :=
  (facts.runs.find? (·.id = collectorRunId)).bind (·.collectionEpochId)

end Queries

/-! ### Evidence -/

inductive OrchestrationError where
  | assertion
  | value (message : String)
  | repository (error : RepositoryError)
deriving DecidableEq

/-- The policy of a service with the parameters of its process. -/
structure OrchestrationService where
  ids : CandidateIdentities
  policy : CandidatePolicy
  divide : ℚ → ℚ → ℚ
  uuidText : Uuid → String
  taskMaxAttempts : Nat
  uuidText_injective : Function.Injective uuidText

section Service
variable (service : OrchestrationService) (facts : CandidateFacts)

def scheduleAdmittedAt (schedule : PollSchedule) : Option Int :=
  schedule.coverage.map (·.admittedAt)

/-- The boost event of an evaluation: the one that it is for, or the newest after its start. -/
def boostEventFor (schedule : PollSchedule) (watermark : Int)
    (explicitBoostEvent : Option BoostEventFact) (boostAfter : Option Int) :
    Except OrchestrationError (Option BoostEventFact) :=
  match explicitBoostEvent with
  | some event => .ok (some event)
  | none =>
    match boostAfter.or (scheduleAdmittedAt schedule) with
    | none => .error .assertion
    | some after => .ok (facts.latestBoostEvent schedule.tokenId after watermark)

/-- The fields of `_build_evidence`. -/
def evidenceFields (observation : PairObservation) (schedule : PollSchedule) (watermark : Int)
    (admittedAt : Int) (boostEvent : Option BoostEventFact) : EvidenceFields :=
  let security := latestFact (fun _ => true) schedule.tokenId watermark facts.securitySnapshots
  let holder := latestFact (·.acquisitionMode = historicallyAvailable) schedule.tokenId watermark
    facts.holderSnapshots
  let trader := latestFact (·.acquisitionMode = historicallyAvailable) schedule.tokenId watermark
    facts.traderSnapshots
  let features := latestFact (·.acquisitionMode = historicallyAvailable) schedule.tokenId watermark
    facts.featureSnapshots
  { tokenId := schedule.tokenId
    evaluatedAt := watermark
    watermark := watermark
    lifecycleState := schedule.lifecycleState.value
    coverageClass := schedule.coverageClass.elim "LEGACY_UNMAPPED" coverageValue
    admittedAt := admittedAt
    observationId := some (service.uuidText observation.id)
    observationReceivedAt := some observation.receivedAt
    liquidityUsd := observation.liquidityUsd
    volumeM5Usd := observation.volumeM5Usd
    buysM5 := observation.buysM5
    sellsM5 := observation.sellsM5
    boostEventId := boostEvent.map fun event => service.uuidText event.id
    boostReceivedAt := boostEvent.map (·.receivedAt)
    securitySnapshotId := security.map fun row => service.uuidText row.id
    securityReceivedAt := security.map (·.receivedAt)
    coverageResurrection := schedule.coverageClass = some .retiredControl
    holderSnapshotId := holder.map fun row => service.uuidText row.id
    holderReceivedAt := holder.map (·.receivedAt)
    holderTop10Pct := holder.bind (·.columns.top10Pct)
    traderSnapshotId := trader.map fun row => service.uuidText row.id
    traderReceivedAt := trader.map (·.receivedAt)
    uniqueTraders := trader.bind (·.columns.uniqueTraders)
    totalTrades := trader.bind (·.columns.totalTrades)
    walletEvidenceReceivedAt := features.map (·.receivedAt)
    commonFunderSharePct := features.bind (·.columns.commonFunderShare)
    liquidityEvidenceReceivedAt := features.map (·.receivedAt)
    liquidityRemovalPct := features.bind (·.columns.liquidityRemovalRecentPct) }

/-- `_build_evidence`. -/
def buildEvidence (observation : PairObservation) (schedule : PollSchedule) (watermark : Int)
    (explicitBoostEvent : Option BoostEventFact) (boostAfter : Option Int) :
    Except OrchestrationError CandidateEvidence := do
  let boostEvent ← boostEventFor facts schedule watermark explicitBoostEvent boostAfter
  match scheduleAdmittedAt schedule with
  | none => .error .assertion
  | some admittedAt =>
    (evidenceFields service facts observation schedule watermark admittedAt
      boostEvent).postInit.mapError .value

/-! ### Evaluations -/

/-- Evidence with the decision for a stored tier. -/
def evaluationCall (collectionEpochId : Uuid) (collectorRunId : Option Uuid) (tier : CandidateTier)
    (evidence : CandidateEvidence) : EvaluationCall where
  collectionEpochId := collectionEpochId
  collectorRunId := collectorRunId
  evidence := evidence
  decision := service.policy.evaluate service.divide service.ids.evidenceSha256 evidence tier
  now := evidence.evaluatedAt
  taskMaxAttempts := service.taskMaxAttempts

def applyEvidence (store : CandidateStore) (call : EvaluationCall) :
    Except OrchestrationError (CandidateStore × CandidateTransitionResult) :=
  (applyEvaluation service.ids service.policy store call).mapError .repository

/-- A selected observation with the schedule of its token. -/
structure Selection where
  evaluation : LifecycleEvaluation
  observation : PairObservation
  schedule : PollSchedule

/-- The joins of the evaluations that a request selected, by token. -/
def selections (store : CandidateStore) (apiRequestLogId : Uuid) : List Selection :=
  sortOn (·.evaluation.tokenId) (facts.evaluations.flatMap fun evaluation =>
    if evaluation.apiRequestLogId = apiRequestLogId ∧ evaluation.outcome = "selected" then
      (facts.observations.filter fun observation =>
        evaluation.selectedObservationId = some observation.id ∧
          evaluation.selectedObservationReceivedAt = some observation.receivedAt).flatMap
        fun observation =>
          (facts.pairs.filter (·.id = observation.pairId)).filterMap fun pair =>
            (store.schedules.find? pair.tokenId).map fun schedule =>
              ⟨evaluation, observation, schedule⟩
    else [])

/-- One turn of the loop of `evaluate_request_in_session`. -/
def evaluateSelection (collectionEpochId collectorRunId : Uuid)
    (state : CandidateStore × List CandidateTransitionResult) (selection : Selection) :
    Except OrchestrationError (CandidateStore × List CandidateTransitionResult) := do
  let current := state.1.currentStates.find? (collectionEpochId, selection.evaluation.tokenId)
  let evidence ← buildEvidence service facts selection.observation selection.schedule
    selection.evaluation.inputWatermark none
    (current.elim (scheduleAdmittedAt selection.schedule) fun current =>
      some current.inputWatermark)
  let applied ← applyEvidence service state.1
    (evaluationCall service collectionEpochId (some collectorRunId) (previousTier current) evidence)
  return (applied.1, state.2 ++ [applied.2])

/-- `evaluate_request_in_session`. -/
def evaluateRequest (store : CandidateStore) (apiRequestLogId collectorRunId : Uuid) :
    Except OrchestrationError (CandidateStore × List CandidateTransitionResult) :=
  match facts.epochOf collectorRunId with
  | none => .ok (store, [])
  | some epoch =>
    (selections facts store apiRequestLogId).foldlM
      (evaluateSelection service facts epoch collectorRunId) (store, [])

/-- The nominations for boost activity in the minute of a time, by whatever path they came. -/
def boostNominations (events : List CandidateEvent) (time : Int) : Nat :=
  events.countP fun event => event.triggerType = .boostActivity &&
    minuteStart time ≤ event.candidateAt && event.candidateAt < minuteStart time + 60000000

/-- `evaluate_boost_observation_in_session`. -/
def evaluateBoostObservation (store : CandidateStore) (boostObservationId collectorRunId : Uuid) :
    Except OrchestrationError (CandidateStore × Option CandidateTransitionResult) :=
  match facts.boostObservations.find? (·.id = boostObservationId), facts.epochOf collectorRunId with
  | some boost, some epoch =>
    if service.policy.boostWakeupsPerMinute ≤
        boostNominations store.candidateEvents.rows boost.receivedAt then .ok (store, none)
    else
      match store.schedules.find? boost.tokenId,
        facts.latestObservation boost.tokenId boost.receivedAt,
        facts.boostEventOf boost.id with
      | some schedule, some observation, some boostEvent => do
        let evidence ← buildEvidence service facts observation schedule boost.receivedAt
          (some boostEvent) none
        let current := store.currentStates.find? (epoch, boost.tokenId)
        let applied ← applyEvidence service store
          (evaluationCall service epoch (some collectorRunId) (previousTier current) evidence)
        return (applied.1, some applied.2)
      | _, _, _ => .ok (store, none)
  | _, _ => .ok (store, none)

/-- `evaluate_security_token`. -/
def evaluateSecurityToken (store : CandidateStore) (collectionEpochId : Uuid)
    (collectorRunId : Option Uuid) (tokenId : Uuid) (evaluatedAt : Int) :
    Except OrchestrationError (CandidateStore × Option CandidateTransitionResult) :=
  match store.schedules.find? tokenId, facts.latestObservation tokenId evaluatedAt,
    store.currentStates.find? (collectionEpochId, tokenId) with
  | some schedule, some observation, some current => do
    let evidence ← buildEvidence service facts observation schedule evaluatedAt none
      (some current.inputWatermark)
    let applied ← applyEvidence service store
      (evaluationCall service collectionEpochId collectorRunId current.tier evidence)
    return (applied.1, some applied.2)
  | _, _, _ => .ok (store, none)

end Service

/-! ### What an evaluation appends -/

section Nominations
variable {ids : CandidateIdentities} {policy : CandidatePolicy} {store store' : CandidateStore}
  {call : EvaluationCall}

/-- A candidate event is found as it should be stored, or stored. -/
theorem persistCandidate_eq_ok {values row : CandidateEvent}
    {table table' : Table CandidateEvent.id}
    (h : persistCandidate values table = .ok (table', row)) :
    table' = table ∨ table'.rows = table.rows ++ [values] := by
  simp only [persistCandidate] at h
  split at h
  · split at h
    · cases h
      by_cases hkey : table.rows.any (·.idempotencyKey = values.idempotencyKey)
      · rw [if_pos hkey]
        exact .inl rfl
      · rw [if_neg hkey]
        cases hf : table.find? values.id with
        | none => exact .inr (Table.rows_insertNew_of_find?_eq_none hf)
        | some other => exact .inl (Table.insertNew_eq_self hf)
    · cases h
  · cases h

theorem tier3Admitted_reason (policy : CandidatePolicy) (store : CandidateStore)
    (previous : CandidateTier) (decision : EvaluationDecision) :
    (tier3Admitted policy store previous decision).reason = decision.reason := by
  unfold tier3Admitted
  split <;> rfl

theorem planned_reason {decision : EvaluationDecision} {target : CandidateTier}
    (h : plannedTransition ids policy store call = some (decision, target)) :
    decision.reason = call.decision.reason := by
  simp only [plannedTransition] at h
  split at h
  · cases h
  · split at h
    · cases h
    · cases h
      exact tier3Admitted_reason _ _ _ _

/-- The event that a call nominates its token with. -/
structure Nominates (call : EvaluationCall) (event : CandidateEvent) : Prop where
  epoch : event.collectionEpochId = call.collectionEpochId
  token : event.tokenId = call.evidence.tokenId
  evidence : event.evidenceSnapshot = call.evidence
  candidateAt : event.candidateAt = call.evidence.evaluatedAt
  trigger : event.triggerType = call.decision.reason

/-- A successful evaluation appends at most one event, and only with a transition. -/
theorem applyEvaluation_events {result : CandidateTransitionResult}
    (h : applyEvaluation ids policy store call = .ok (store', result)) :
    store'.candidateEvents = store.candidateEvents ∨
      (plannedTransition ids policy store call).isSome = true ∧ ∃ event, Nominates call event ∧
        store'.candidateEvents.rows = store.candidateEvents.rows ++ [event] := by
  unfold applyEvaluation at h
  split at h
  · cases h
    exact .inl rfl
  · next decision target hplan =>
    simp only [writeTransition, bind_eq_ok, pure_eq_ok] at h
    obtain ⟨⟨events, candidate⟩, hevents, _, _, _, _, _, _, hresult⟩ := h
    cases hresult
    unfold persistNomination at hevents
    split at hevents
    · cases hevents
      exact .inl rfl
    · simp only [bind_eq_ok, pure_eq_ok] at hevents
      obtain ⟨⟨table, row⟩, hstored, hsame⟩ := hevents
      cases hsame
      cases persistCandidate_eq_ok hstored with
      | inl hkept => exact .inl hkept
      | inr hnew =>
        have hreason : decision.reason = call.decision.reason := planned_reason hplan
        exact .inr ⟨by rw [hplan]; rfl, _, ⟨rfl, rfl, rfl, rfl, hreason⟩, hnew⟩

end Nominations

end PumpResearch.Candidates
