import PumpResearch.Lifecycle.Policy
import PumpResearch.Scheduling.Epochs

/-! The lifecycle classifier over its tables: the selection of evidence, the event of a
transition, and the schedule that follows it, in one transaction. -/
namespace PumpResearch.Lifecycle
open KeyedOrder KeyedTable Results
open Scheduling (AdaptiveScheduler CachedCapacity LifecycleRequest LifecycleState PollSchedule
  SchedulerStore SchedulingError setLifecycleState)

/-! ### Source facts -/

structure Pair where
  id : Uuid
  tokenId : Uuid
  chain : String
  address : String
  dexIdentifier : Option String
deriving DecidableEq

structure Observation where
  id : Uuid
  receivedAt : Int
  apiRequestLogId : Uuid
  pairId : Uuid
  liquidityUsd : Option ℚ
  volumeM5Usd : Option ℚ
  volumeH1Usd : Option ℚ
deriving DecidableEq

structure ApiRequestLog where
  id : Uuid
  collectorRunId : Option Uuid
deriving DecidableEq

/-- The fact tables that an evaluation reads. -/
structure ResponseFacts where
  pairs : Table Pair.id
  observations : List Observation
  requests : Table ApiRequestLog.id

def candidateOf (observation : Observation) (pair : Pair) : LifecycleEvidenceCandidate where
  observationId := observation.id
  observationReceivedAt := observation.receivedAt
  pairId := pair.id
  chain := pair.chain
  pairAddress := pair.address
  dexIdentifier := pair.dexIdentifier
  liquidityUsd := observation.liquidityUsd
  volumeM5Usd := observation.volumeM5Usd
  volumeH1Usd := observation.volumeH1Usd

/-- The observations of one response with their pairs. -/
def responseRows (facts : ResponseFacts) (apiRequestLogId : Uuid) : List (Observation × Pair) :=
  (facts.observations.filter (·.apiRequestLogId = apiRequestLogId)).filterMap fun observation =>
    (facts.pairs.find? observation.pairId).map fun pair => (observation, pair)

/-- The pair observations of a token in one response. -/
def candidatesOf (facts : ResponseFacts) (apiRequestLogId tokenId : Uuid) :
    List LifecycleEvidenceCandidate :=
  sortOn canonicalPairKey
    (((responseRows facts apiRequestLogId).filter (·.2.tokenId = tokenId)).map fun row =>
      candidateOf row.1 row.2)

/-- The tokens of one response, each once, in the order of their ids. -/
def tokensOf (facts : ResponseFacts) (apiRequestLogId : Uuid) : List Uuid :=
  sortOn id ((responseRows facts apiRequestLogId).map (·.2.tokenId)).dedup

/-! ### Derived rows -/

structure LifecycleEvidenceEvaluation where
  id : Uuid
  inputWatermark : Int
  tokenId : Uuid
  apiRequestLogId : Uuid
  outcome : EvidenceSelectionOutcome
  selectedPairId : Option Uuid
  selectedObservationId : Option Uuid
  selectedObservationReceivedAt : Option Int
  reasonCode : String
  reasonDetail : SelectionDetail
  policySha256 : String
deriving DecidableEq

/-- `uq_lifecycle_evidence_token_request_policy`. -/
def LifecycleEvidenceEvaluation.key (evaluation : LifecycleEvidenceEvaluation) :
    Int × Uuid × Uuid × String :=
  (evaluation.inputWatermark, evaluation.tokenId, evaluation.apiRequestLogId,
    evaluation.policySha256)

/-- `reason_detail` of an event. -/
inductive LifecycleEventDetail where
  | admission (apiRequestLogId : Uuid) (matchingPairCount : Nat)
  | transition (whatHappened : String) (inputValues thresholds : List (String × ℚ))
      (observation : RawObservationEvidence) (evidenceEvaluationId : Uuid)
      (evidencePolicySha256 : String)
deriving DecidableEq

/-- A derived transition; only the classifier's own events refer to an evidence evaluation. -/
structure LifecycleEvent where
  id : Uuid
  collectorRunId : Option Uuid
  tokenId : Uuid
  idempotencyKey : String
  previousState : Option String
  newState : String
  decidedAt : Int
  inputWatermark : Int
  reasonCode : String
  reasonDetail : Option LifecycleEventDetail
  lifecycleEvidenceEvaluationId : Option Uuid
  configurationSha256 : String
deriving DecidableEq

structure DeduplicationConflict where
  recordType : String
  idempotencyKey : String
  occurredAt : Int
deriving DecidableEq

/-- The tables that the classifier writes, next to those of the scheduler. -/
structure ClassifierStore where
  scheduler : SchedulerStore
  evaluations : Table LifecycleEvidenceEvaluation.key
  events : Table LifecycleEvent.idempotencyKey
  conflicts : List DeduplicationConflict

inductive ClassifierError where
  | lookup (message : String)
  | value (message : String)
  | integrity (constraint : String)
  | scheduling (error : SchedulingError)
deriving DecidableEq

/-! ### Repositories -/

/-- `LifecycleEvidenceEvaluationRepository.record`: one row for a token, response and policy. -/
def recordEvaluation (evaluation : LifecycleEvidenceEvaluation)
    (table : Table LifecycleEvidenceEvaluation.key) :
    Except ClassifierError (Table LifecycleEvidenceEvaluation.key × LifecycleEvidenceEvaluation) :=
  match table.find? evaluation.key with
  | some stored => .ok (table, stored)
  | none =>
    if table.rows.any fun stored =>
        stored.inputWatermark = evaluation.inputWatermark ∧ stored.id = evaluation.id then
      .error (.integrity "pk_lifecycle_evidence_evaluations")
    else .ok (table.insertNew evaluation, evaluation)

/-- What the scheduler reads of an event. -/
def schedulerEvent (event : LifecycleEvent) : Scheduling.LifecycleEvent :=
  ⟨event.tokenId, event.newState, event.inputWatermark⟩

/-- `LifecycleEventRepository.record`: a stored key is kept, with a note of the conflict. -/
def recordEvent (event : LifecycleEvent) (store : ClassifierStore) :
    Except ClassifierError (ClassifierStore × LifecycleEvent) :=
  match store.events.find? event.idempotencyKey with
  | some stored => .ok ({ store with conflicts := store.conflicts ++
      [⟨"lifecycle_event", event.idempotencyKey, event.decidedAt⟩] }, stored)
  | none =>
    if store.events.rows.any (·.id = event.id) then .error (.integrity "lifecycle_events_pkey")
    else .ok ({ store with
      events := store.events.insertNew event
      scheduler := { store.scheduler with
        lifecycleEvents := store.scheduler.lifecycleEvents ++ [schedulerEvent event] } }, event)

/-! ### The classifier -/

/-- The digests of idempotency keys. -/
structure LifecycleDigests where
  /-- `_transition_idempotency_key`. -/
  transitionKey : Uuid → Uuid → LifecycleTransitionRule → String → String
  /-- The key of a promotion, for its request and token. -/
  admissionKey : Uuid → Uuid → String

structure LifecycleClassifier where
  policy : LifecyclePolicy
  policySha256 : String
  evidencePolicySha256 : String
  digests : LifecycleDigests
  scheduler : AdaptiveScheduler

/-- What one token evaluation takes from its surroundings: the clock, new ids and the capacity
decision of the process. -/
structure TokenReads (classifier : LifecycleClassifier) where
  now : Int
  evaluationId : Uuid
  eventId : Uuid
  cached : Option (CachedCapacity classifier.scheduler.policy)

structure LifecycleTransition where
  eventId : Uuid
  tokenId : Uuid
  observationId : Uuid
  observationReceivedAt : Int
  decidedAt : Int
  previousState : LifecycleState
  newState : LifecycleState
  rule : LifecycleTransitionRule
deriving DecidableEq

structure SelectionFailure where
  tokenId : Uuid
  evidenceEvaluationId : Uuid
  reasonCode : String
deriving DecidableEq

structure TokenEvaluation where
  transition : Option LifecycleTransition
  selectionFailure : Option SelectionFailure
deriving DecidableEq

def evidenceOf (apiRequestLogId : Uuid) (selected : LifecycleEvidenceCandidate) :
    RawObservationEvidence where
  observationId := selected.observationId
  receivedAt := selected.observationReceivedAt
  pairId := selected.pairId
  apiRequestLogId := apiRequestLogId
  volumeM5Usd := selected.volumeM5Usd
  volumeH1Usd := selected.volumeH1Usd
  liquidityUsd := selected.liquidityUsd

def evaluationRow (classifier : LifecycleClassifier) (reads : TokenReads classifier)
    (tokenId apiRequestLogId : Uuid) (inputWatermark : Int) (selection : EvidenceSelectionResult) :
    LifecycleEvidenceEvaluation where
  id := reads.evaluationId
  inputWatermark := inputWatermark
  tokenId := tokenId
  apiRequestLogId := apiRequestLogId
  outcome := selection.outcome
  selectedPairId := selection.selected.map (·.pairId)
  selectedObservationId := selection.selected.map (·.observationId)
  selectedObservationReceivedAt := selection.selected.map (·.observationReceivedAt)
  reasonCode := selection.reasonCode
  reasonDetail := selection.reasonDetail
  policySha256 := classifier.evidencePolicySha256

def transitionEvent (classifier : LifecycleClassifier) (reads : TokenReads classifier)
    (tokenId : Uuid) (collectorRunId : Option Uuid) (evidence : RawObservationEvidence)
    (evaluated : LifecycleEvidenceEvaluation) (evaluation : TransitionEvaluation) :
    LifecycleEvent where
  id := reads.eventId
  collectorRunId := collectorRunId
  tokenId := tokenId
  idempotencyKey := classifier.digests.transitionKey tokenId evaluated.id evaluation.rule
    classifier.policySha256
  previousState := some evaluation.previousState.value
  newState := evaluation.newState.value
  decidedAt := reads.now
  inputWatermark := evidence.receivedAt
  reasonCode := evaluation.rule.value
  reasonDetail := some (.transition
    (evaluation.previousState.value ++ " -> " ++ evaluation.newState.value)
    evaluation.inputValues evaluation.thresholds evidence evaluated.id evaluated.policySha256)
  lifecycleEvidenceEvaluationId := some evaluated.id
  configurationSha256 := classifier.policySha256

/-- The writes of one satisfied rule. -/
def applyTransition (classifier : LifecycleClassifier) (reads : TokenReads classifier)
    (tokenId : Uuid) (collectorRunId : Option Uuid) (evidence : RawObservationEvidence)
    (evaluated : LifecycleEvidenceEvaluation) (evaluation : TransitionEvaluation)
    (store : ClassifierStore) : Except ClassifierError (ClassifierStore × TokenEvaluation) := do
  if reads.now < evidence.receivedAt then
    throw (.value "Lifecycle decision cannot predate the observation knowledge time")
  let (recorded, event) ← recordEvent
    (transitionEvent classifier reads tokenId collectorRunId evidence evaluated evaluation) store
  let (scheduled, _) ← (setLifecycleState classifier.scheduler
    { tokenId := tokenId
      state := evaluation.newState
      decidedAt := reads.now
      reasonCode := evaluation.rule.value
      admittedAt := none
      collectorRunId := collectorRunId
      cached := reads.cached } recorded.scheduler).mapError .scheduling
  return ({ recorded with scheduler := scheduled },
    ⟨some ⟨event.id, tokenId, evidence.observationId, evidence.receivedAt, reads.now,
      evaluation.previousState, evaluation.newState, evaluation.rule⟩, none⟩)

/-- `_evaluate_token_request_in_session`. -/
def evaluateTokenRequest (classifier : LifecycleClassifier) (facts : ResponseFacts)
    (tokenId apiRequestLogId : Uuid) (reads : TokenReads classifier) (store : ClassifierStore) :
    Except ClassifierError (ClassifierStore × TokenEvaluation) :=
  let candidates := candidatesOf facts apiRequestLogId tokenId
  match (candidates.map (·.observationReceivedAt)).dedup with
  | [] => .error (.lookup
      "Lifecycle evaluation requires at least one persisted pair observation")
  | [inputWatermark] => do
    let selection := selectEvidence candidates
    let (evaluations, evaluated) ← recordEvaluation
      (evaluationRow classifier reads tokenId apiRequestLogId inputWatermark selection)
      store.evaluations
    let recorded := { store with evaluations := evaluations }
    match selection.selected with
    | none => return (recorded, ⟨none, some ⟨tokenId, evaluated.id, selection.reasonCode⟩⟩)
    | some selected =>
      match store.scheduler.schedules.find? tokenId with
      | none => return (recorded, ⟨none, none⟩)
      | some schedule =>
        if selected.observationReceivedAt < schedule.stateDecidedAt then
          return (recorded, ⟨none, none⟩)
        else
          match classifier.policy.evaluate schedule.lifecycleState
              (evidenceOf apiRequestLogId selected) with
          | none => return (recorded, ⟨none, none⟩)
          | some evaluation =>
            applyTransition classifier reads tokenId
              ((facts.requests.find? apiRequestLogId).bind (·.collectorRunId))
              (evidenceOf apiRequestLogId selected) evaluated evaluation recorded
  | _ => .error (.value
      "One API response produced inconsistent observation knowledge timestamps")

/-- One token of a response, its outcome put behind the earlier ones. -/
def evaluateNextToken (classifier : LifecycleClassifier) (facts : ResponseFacts)
    (apiRequestLogId : Uuid) (reads : Uuid → TokenReads classifier)
    (done : ClassifierStore × List TokenEvaluation) (tokenId : Uuid) :
    Except ClassifierError (ClassifierStore × List TokenEvaluation) := do
  let (store, evaluation) ← evaluateTokenRequest classifier facts tokenId apiRequestLogId
    (reads tokenId) done.1
  return (store, done.2 ++ [evaluation])

/-- `evaluate_request_in_session`: every token of a response, once. -/
def evaluateRequest (classifier : LifecycleClassifier) (facts : ResponseFacts)
    (apiRequestLogId : Uuid) (reads : Uuid → TokenReads classifier) (store : ClassifierStore) :
    Except ClassifierError (ClassifierStore × List LifecycleTransition × List SelectionFailure) := do
  let (evaluated, outcomes) ← (tokensOf facts apiRequestLogId).foldlM
    (evaluateNextToken classifier facts apiRequestLogId reads) (store, [])
  return (evaluated, outcomes.filterMap (·.transition), outcomes.filterMap (·.selectionFailure))

/-- `evaluate_observation_in_session`: the token of one observation, with the whole response. -/
def evaluateObservation (classifier : LifecycleClassifier) (facts : ResponseFacts)
    (observationId : Uuid) (receivedAt : Int) (reads : TokenReads classifier)
    (store : ClassifierStore) :
    Except ClassifierError (ClassifierStore × Option LifecycleTransition) :=
  match facts.observations.find? fun observation =>
      observation.id = observationId ∧ observation.receivedAt = receivedAt with
  | none => .error (.lookup "Observation was not found for its received_at partition key")
  | some observation =>
    match facts.pairs.find? observation.pairId with
    | none => .error (.lookup "Observation was not found for its received_at partition key")
    | some pair => do
      let (evaluated, outcome) ← evaluateTokenRequest classifier facts pair.tokenId
        observation.apiRequestLogId reads store
      return (evaluated, outcome.transition)

/-! ### Admission -/

/-- A pending token that a response shows on a DEX. -/
structure Admission (classifier : LifecycleClassifier) where
  tokenId : Uuid
  apiRequestLogId : Uuid
  receivedAt : Int
  matchingPairCount : Nat
  collectorRunId : Option Uuid
  configurationSha256 : String
  eventId : Uuid
  cached : Option (CachedCapacity classifier.scheduler.policy)

def admissionEvent (classifier : LifecycleClassifier) (admission : Admission classifier) :
    LifecycleEvent where
  id := admission.eventId
  collectorRunId := admission.collectorRunId
  tokenId := admission.tokenId
  idempotencyKey := classifier.digests.admissionKey admission.apiRequestLogId admission.tokenId
  previousState := some "PENDING_DEX"
  newState := "NEW"
  decidedAt := admission.receivedAt
  inputWatermark := admission.receivedAt
  reasonCode := "dex_pair_present"
  reasonDetail := some (.admission admission.apiRequestLogId admission.matchingPairCount)
  lifecycleEvidenceEvaluationId := none
  configurationSha256 := admission.configurationSha256

/-- The promotion of a token by the availability check: its event, then its first schedule. -/
def admitAsNew (classifier : LifecycleClassifier) (admission : Admission classifier)
    (store : ClassifierStore) : Except ClassifierError ClassifierStore := do
  let (recorded, _) ← recordEvent (admissionEvent classifier admission) store
  let (scheduled, _) ← (setLifecycleState classifier.scheduler
    { tokenId := admission.tokenId
      state := .new
      decidedAt := admission.receivedAt
      reasonCode := "dex_pair_present"
      admittedAt := none
      collectorRunId := admission.collectorRunId
      cached := admission.cached } recorded.scheduler).mapError .scheduling
  return { recorded with scheduler := scheduled }

end PumpResearch.Lifecycle
