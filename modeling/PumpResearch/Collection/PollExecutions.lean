import PumpResearch.Candidates.Orchestration
import PumpResearch.Collection.PolledPairs
import PumpResearch.Lifecycle.Classifier
import PumpResearch.Scheduling.System

/-! Executions of claimed batches. An answer is stored with its request row, evaluated in two
savepoints, and completed by the scheduler, all in one transaction. -/
namespace PumpResearch.Collection
open KeyedTable RelatedLists Results Runs Scheduling Utf8

/-! ### Rows -/

/-- The documents of `failure_detail`. -/
inductive FailureDocument where
  | partly (coverage : Option (List Text × List NormalizationIssue))
      (lifecycleEvaluation : Option (Lifecycle.ClassifierError × Nat))
      (lifecycleEvidenceSelection : List Lifecycle.SelectionFailure)
      (candidateOrchestration : Option Candidates.OrchestrationError)
  | failed (errorType : String) (message : Option String)

/-- The parts of the idempotency key of a poll's request. -/
structure PollRequestKey where
  batchId : Uuid
  answered : Bool
deriving DecidableEq

structure PollRequestRow where
  id : Uuid
  key : PollRequestKey
  collectorRunId : Uuid
  requestedAt : Int
  receivedAt : Int
  outcome : PollOutcome
  httpStatusCode : Option Int
  chain : String
  tokenAddresses : List String
  attemptCount : Nat
  failureDetail : Option FailureDocument

/-- The request log, and the conflicts that deliveries of a known key leave. -/
structure PollRequestLog where
  requests : Table PollRequestRow.key
  conflicts : List (PollRequestKey × Int)

/-- The tables of an execution. The schedules of the candidate tables are those of the scheduler. -/
structure CollectorTables (Facts : Type) where
  log : PollRequestLog
  polled : PollStore Facts
  classifier : Lifecycle.ClassifierStore
  candidates : Candidates.CandidateStore

inductive ExecutionError where
  | poll (error : PollError)
  | data
  | integrity
  | scheduling (error : SchedulingError)

/-- `ApiRequestLogRepository.record`: a stored key is kept, with a note of the conflict. -/
def recordPollRequest (row : PollRequestRow) (log : PollRequestLog) :
    Except ExecutionError (PollRequestLog × PollRequestRow) :=
  match log.requests.find? row.key with
  | some stored =>
    .ok ({ log with conflicts := log.conflicts ++ [(row.key, row.requestedAt)] }, stored)
  | none =>
    if log.requests.rows.any (·.id = row.id) then .error .integrity
    else .ok ({ log with requests := log.requests.insertNew row }, row)

/-! ### Workflows -/

/-- A workflow with its classifier, its orchestrator if it has one, the column checks of the
database, how its evaluations read what is stored, and the documents that JSONB takes. -/
structure PollingWorkflow (Facts : Type) where
  classifier : Lifecycle.LifecycleClassifier
  orchestrator : Option Candidates.OrchestrationService
  accepts : Observation (ObservedFacts Facts) → Bool
  responseFacts : CollectorTables Facts → Lifecycle.ResponseFacts
  candidateFacts : CollectorTables Facts → Candidates.CandidateFacts
  fits : FailureDocument → Bool
  documentText : FailureDocument → String

/-- An answer with one batch of records, and whether the database takes its JSON and what its
enrichment writes. -/
structure PollAnswer (Facts : Type) where
  requestedAt : Int
  receivedAt : Int
  attemptCount : Nat
  pairs : List (PolledPair Facts)
  storable : Bool

/-- A request that raised, or an answer that `_validate` refused. -/
structure PollFailure where
  requestedAt : Int
  receivedAt : Int
  attemptCount : Nat
  statusCode : Option Int
  errorType : String
  message : String

inductive HandlerError where
  | lifecycle (error : Lifecycle.ClassifierError)
  | candidates (error : Candidates.OrchestrationError)

def CollectorTables.scheduler {Facts : Type} (tables : CollectorTables Facts) : SchedulerStore :=
  tables.classifier.scheduler

def CollectorTables.setScheduler {Facts : Type} (tables : CollectorTables Facts)
    (store : SchedulerStore) : CollectorTables Facts :=
  { tables with classifier := { tables.classifier with scheduler := store } }

section Execution
variable {Facts : Type} (workflow : PollingWorkflow Facts)

/-- What an execution draws: identifiers, and the clocks of its evaluations and its completion. -/
structure PollDraws where
  collectorRunId : Uuid
  requestId : Uuid
  pairId : Text → Uuid
  reads : Uuid → Lifecycle.TokenReads workflow.classifier
  completedAt : Int

/-- The local variables of `execute`. -/
structure PollExecution (Facts : Type) where
  tables : CollectorTables Facts
  outcome : PollOutcome
  coverage : Option (List Text × List NormalizationIssue) := none
  lifecycleEvaluation : Option (Lifecycle.ClassifierError × Nat) := none
  selectionFailures : List Lifecycle.SelectionFailure := []
  candidateOrchestration : Option Candidates.OrchestrationError := none
  classificationError : Option HandlerError := none

/-- `failure_detail`, none until something was put into it. -/
def PollExecution.failureDetail (s : PollExecution Facts) : Option FailureDocument :=
  if s.coverage.isNone && s.lifecycleEvaluation.isNone && s.selectionFailures.isEmpty &&
      s.candidateOrchestration.isNone then none
  else some (.partly s.coverage s.lifecycleEvaluation s.selectionFailures s.candidateOrchestration)

/-- What `record_many` reads of the request: the stored one, if its key is known. -/
def pollResponse (claim : PollBatchClaim) (answer : PollAnswer Facts)
    (draws : PollDraws workflow) (stored : Option PollRequestRow) : PollResponse Facts where
  chain := text claim.chain
  members := claim.members.map fun member => ⟨member.tokenId, text member.address⟩
  requestId := stored.elim draws.requestId (·.id)
  receivedAt := stored.elim answer.receivedAt (·.receivedAt)
  pairs := answer.pairs
  drawn := draws.pairId

def coverageDetail (polled : PolledBatch Facts) : Option (List Text × List NormalizationIssue) :=
  if polled.outcome = .partly then some (polled.emptyAddresses, polled.build.issues) else none

def answeredRequest (claim : PollBatchClaim) (answer : PollAnswer Facts)
    (draws : PollDraws workflow) (polled : PolledBatch Facts) : PollRequestRow where
  id := draws.requestId
  key := ⟨claim.batchId, true⟩
  collectorRunId := draws.collectorRunId
  requestedAt := answer.requestedAt
  receivedAt := answer.receivedAt
  outcome := polled.outcome
  httpStatusCode := some 200
  chain := claim.chain
  tokenAddresses := claim.members.map (·.address)
  attemptCount := answer.attemptCount
  failureDetail := (coverageDetail polled).map fun coverage => .partly (some coverage) none [] none

/-- The first savepoint, and whether it was released. -/
def evaluateLifecycle (requestId : Uuid) (draws : PollDraws workflow) (observations : Nat)
    (s : PollExecution Facts) : PollExecution Facts × Bool :=
  match Lifecycle.evaluateRequest workflow.classifier (workflow.responseFacts s.tables) requestId
      draws.reads s.tables.classifier with
  | .error error =>
    ({ s with
      outcome := .partly
      lifecycleEvaluation := some (error, observations)
      classificationError := some (.lifecycle error) }, false)
  | .ok (classifier, _, selectionFailures) =>
    let evaluated := { s with tables := { s.tables with classifier := classifier } }
    (if selectionFailures.isEmpty then evaluated
      else { evaluated with outcome := .partly, selectionFailures := selectionFailures }, true)

/-- The second savepoint, behind a released first one. -/
def orchestrateCandidates (requestId : Uuid) (draws : PollDraws workflow)
    (s : PollExecution Facts × Bool) : PollExecution Facts :=
  match s.2, workflow.orchestrator with
  | true, some orchestrator =>
    match Candidates.evaluateRequest orchestrator (workflow.candidateFacts s.1.tables)
        (candidatesOver s.1.tables.candidates s.1.tables.classifier.scheduler) requestId
        draws.collectorRunId with
    | .error error =>
      { s.1 with
        outcome := .partly
        candidateOrchestration := some error
        classificationError := s.1.classificationError <|> some (.candidates error) }
    | .ok (candidates, _) =>
      { s.1 with
        tables := { s.1.tables with
          classifier := { s.1.tables.classifier with
            scheduler := { s.1.tables.classifier.scheduler with
              schedules := candidates.schedules } }
          candidates := candidates } }
  | _, _ => s.1

/-- What an execution that committed has done. -/
structure ExecutedBatch (Facts : Type) where
  claim : PollBatchClaim
  request : PollRequestRow
  polled : Option (PolledBatch Facts)
  completion : PollCompletion
  classificationError : Option HandlerError

/-- The completion of the batch, which ends the transaction. -/
def completeExecution (claim : PollBatchClaim) (requestId : Uuid) (draws : PollDraws workflow)
    (outcome : PollOutcome) (detail : Option FailureDocument) (tables : CollectorTables Facts) :
    Except ExecutionError (CollectorTables Facts × PollCompletion) := do
  if ¬ detail.all workflow.fits then throw .data
  let (scheduler, completion) ← (completeBatch workflow.classifier.scheduler
    ⟨draws.completedAt, claim.batchId, outcome, some requestId,
      detail.map workflow.documentText⟩ tables.classifier.scheduler).mapError .scheduling
  return ({ tables with classifier := { tables.classifier with scheduler := scheduler } },
    completion)

/-- The transaction of an answered batch. -/
def executeAnswer (claim : PollBatchClaim) (answer : PollAnswer Facts)
    (draws : PollDraws workflow) (tables : CollectorTables Facts) :
    Except ExecutionError (CollectorTables Facts × ExecutedBatch Facts) := do
  if ¬ answer.storable then throw .data
  let stored := tables.log.requests.find? ⟨claim.batchId, true⟩
  let (store, polled) ← (pollBatch workflow.accepts
    (pollResponse workflow claim answer draws stored) tables.polled).mapError .poll
  let (log, request) ← recordPollRequest (answeredRequest workflow claim answer draws polled)
    tables.log
  let started : PollExecution Facts :=
    { tables := { tables with log := log, polled := store }
      outcome := polled.outcome
      coverage := coverageDetail polled }
  let evaluated := orchestrateCandidates workflow request.id draws
    (evaluateLifecycle workflow request.id draws polled.build.creates.length started)
  let (completed, completion) ← completeExecution workflow claim request.id draws
    evaluated.outcome evaluated.failureDetail evaluated.tables
  return (completed, ⟨claim, request, some polled, completion, evaluated.classificationError⟩)

def failureOutcome (failure : PollFailure) : PollOutcome :=
  if failure.statusCode = some 429 then .throttled else .failed

def failedPollRequest (claim : PollBatchClaim) (failure : PollFailure)
    (draws : PollDraws workflow) : PollRequestRow where
  id := draws.requestId
  key := ⟨claim.batchId, false⟩
  collectorRunId := draws.collectorRunId
  requestedAt := failure.requestedAt
  receivedAt := failure.receivedAt
  outcome := failureOutcome failure
  httpStatusCode := failure.statusCode
  chain := claim.chain
  tokenAddresses := claim.members.map (·.address)
  attemptCount := failure.attemptCount
  failureDetail := some (.failed failure.errorType (some failure.message))

/-- `_persist_failure`. -/
def persistFailure (claim : PollBatchClaim) (failure : PollFailure) (draws : PollDraws workflow)
    (tables : CollectorTables Facts) :
    Except ExecutionError (CollectorTables Facts × ExecutedBatch Facts) := do
  if ¬ workflow.fits (.failed failure.errorType (some failure.message)) then throw .data
  let (log, request) ← recordPollRequest (failedPollRequest workflow claim failure draws)
    tables.log
  let (completed, completion) ← completeExecution workflow claim request.id draws
    (failureOutcome failure) (some (.failed failure.errorType none))
    { tables with log := log }
  return (completed, ⟨claim, request, none, completion, none⟩)

/-- `execute`, with what the source returned or raised. -/
def executeClaim (claim : PollBatchClaim) (result : Except PollFailure (PollAnswer Facts))
    (draws : PollDraws workflow) (tables : CollectorTables Facts) :
    Except ExecutionError (CollectorTables Facts × ExecutedBatch Facts) :=
  match result with
  | .ok answer => executeAnswer workflow claim answer draws tables
  | .error failure => persistFailure workflow claim failure draws tables

/-! ### The collector -/

/-- The tables, the claims that the running process has not executed yet, and the executions that
committed. -/
structure PollingSystem (Facts : Type) where
  tables : CollectorTables Facts
  claimed : List PollBatchClaim
  executed : List (ExecutedBatch Facts)

/-- The deployment whose other transactions write the same tables. -/
structure PollingDeployment (Facts : Type) where
  workflow : PollingWorkflow Facts
  identities : Candidates.CandidateIdentities
  candidatePolicy : Candidates.CandidatePolicy

def PollingDeployment.scheduling (p : PollingDeployment Facts) : Deployment :=
  ⟨p.workflow.classifier.scheduler, p.identities, p.candidatePolicy⟩

/-- Transactions commit in the order of the actions; a claim is executed at most once. -/
inductive PollingAction (p : PollingDeployment Facts) where
  | claim (request : PollClaimRequest p.workflow.classifier.scheduler.policy)
  /-- The claim at a position gets its answer. -/
  | execute (position : Nat) (result : Except PollFailure (PollAnswer Facts))
      (draws : PollDraws p.workflow)
  /-- A transaction of other workflows. -/
  | other (now : Int) (call : Call p.scheduling)
  | crash

/-- Only polling claims and completes batches. -/
def isPolling {d : Deployment} : Call d → Bool
  | .claimNextBatch .. => true
  | .completeBatch .. => true
  | _ => false

/-- One transaction; one that raises is rolled back. -/
def pollingStep (p : PollingDeployment Facts) (s : PollingSystem Facts) :
    PollingAction p → PollingSystem Facts
  | .claim request =>
    match claimNextBatch p.workflow.classifier.scheduler request s.tables.scheduler with
    | .error _ => s
    | .ok (store, claim) =>
      { s with
        tables := s.tables.setScheduler store
        claimed := s.claimed ++ claim.toList }
  | .execute position result draws =>
    match s.claimed[position]? with
    | none => s
    | some claim =>
      match executeClaim p.workflow claim result draws s.tables with
      | .error _ => { s with claimed := s.claimed.eraseIdx position }
      | .ok (tables, executed) =>
        { tables := tables
          claimed := s.claimed.eraseIdx position
          executed := s.executed ++ [executed] }
  | .other now call =>
    if isPolling call then s
    else
      { s with tables := { s.tables.setScheduler
            (Scheduling.execute now call s.tables.scheduler s.tables.candidates).1 with
          candidates := (Scheduling.execute now call s.tables.scheduler s.tables.candidates).2 } }
  | .crash => { s with claimed := [] }

/-- No batch has been claimed yet. -/
def startCollecting (classifier : Lifecycle.ClassifierStore)
    (candidates : Candidates.CandidateStore) : PollingSystem Facts where
  tables := {
    log := ⟨.empty, []⟩
    polled := startPolling.store
    classifier := { classifier with
      scheduler := { classifier.scheduler with
        batches := .empty
        members := .empty
        outcomes := .empty } }
    candidates := candidates }
  claimed := []
  executed := []

end Execution

/-! ### Rows of one execution -/

/-- The tables of batches are kept. -/
structure KeepsBatches (store store' : SchedulerStore) : Prop where
  batches : store'.batches = store.batches
  members : store'.members = store.members
  outcomes : store'.outcomes = store.outcomes

theorem KeepsBatches.refl (store : SchedulerStore) : KeepsBatches store store := ⟨rfl, rfl, rfl⟩

theorem KeepsBatches.trans {store mid store' : SchedulerStore} (h : KeepsBatches store mid)
    (h' : KeepsBatches mid store') : KeepsBatches store store' :=
  ⟨h'.batches.trans h.batches, h'.members.trans h.members, h'.outcomes.trans h.outcomes⟩

theorem keepsBatches_of_lifecycleSet {scheduler : AdaptiveScheduler}
    {request : LifecycleRequest scheduler.policy} {store store' : SchedulerStore}
    (h : LifecycleSet scheduler request store store') : KeepsBatches store store' := by
  cases h with
  | kept => exact .refl _
  | refreshed => exact ⟨rfl, rfl, rfl⟩
  | placed => exact ⟨rfl, rfl, rfl⟩

theorem recordEvent_keepsBatches {event stored : Lifecycle.LifecycleEvent}
    {store store' : Lifecycle.ClassifierStore}
    (h : Lifecycle.recordEvent event store = .ok (store', stored)) :
    KeepsBatches store.scheduler store'.scheduler := by
  unfold Lifecycle.recordEvent at h
  split at h
  · cases h
    exact .refl _
  · split at h
    · cases h
    · cases h
      exact ⟨rfl, rfl, rfl⟩

theorem evaluateTokenRequest_keepsBatches {classifier : Lifecycle.LifecycleClassifier}
    {facts : Lifecycle.ResponseFacts} {tokenId apiRequestLogId : Uuid}
    {reads : Lifecycle.TokenReads classifier} {store store' : Lifecycle.ClassifierStore}
    {outcome : Lifecycle.TokenEvaluation}
    (h : Lifecycle.evaluateTokenRequest classifier facts tokenId apiRequestLogId reads store =
      .ok (store', outcome)) : KeepsBatches store.scheduler store'.scheduler := by
  simp only [Lifecycle.evaluateTokenRequest] at h
  split at h
  · cases h
  · rw [bind_eq_ok] at h
    obtain ⟨⟨evaluations, evaluated⟩, _, h⟩ := h
    split at h
    · cases h
      exact .refl _
    · split at h
      · cases h
        exact .refl _
      · split at h
        · cases h
          exact .refl _
        · split at h
          · cases h
            exact .refl _
          · simp only [Lifecycle.applyTransition, guard_eq_ok, bind_eq_ok, pure_eq_ok,
              mapError_eq_ok] at h
            obtain ⟨_, ⟨recorded, stored⟩, hrecorded, ⟨scheduled, placed⟩, hscheduled, hresult⟩ := h
            cases hresult
            have hevent := recordEvent_keepsBatches hrecorded
            exact hevent.trans (keepsBatches_of_lifecycleSet (setLifecycleState_eq_ok hscheduled))
  · cases h

/-- The evaluation of a response leaves the batches alone. -/
theorem evaluateRequest_keepsBatches {classifier : Lifecycle.LifecycleClassifier}
    {facts : Lifecycle.ResponseFacts} {apiRequestLogId : Uuid}
    {reads : Uuid → Lifecycle.TokenReads classifier} {store store' : Lifecycle.ClassifierStore}
    {result : List Lifecycle.LifecycleTransition × List Lifecycle.SelectionFailure}
    (h : Lifecycle.evaluateRequest classifier facts apiRequestLogId reads store =
      .ok (store', result)) : KeepsBatches store.scheduler store'.scheduler := by
  simp only [Lifecycle.evaluateRequest, bind_eq_ok, pure_eq_ok] at h
  obtain ⟨⟨evaluated, outcomes⟩, hloop, hresult⟩ := h
  cases hresult
  refine foldlM_invariant (fun _ done => KeepsBatches store.scheduler done.1.scheduler) ?_ hloop
    (.refl _)
  intro _ tokenId done done' hdone hstep
  simp only [Lifecycle.evaluateNextToken, bind_eq_ok, pure_eq_ok] at hstep
  obtain ⟨⟨next, outcome⟩, htoken, heq⟩ := hstep
  cases heq
  exact hdone.trans (evaluateTokenRequest_keepsBatches htoken)

/-! ### Claims -/

/-- A claim is a stored batch with its members. -/
structure Grants (store store' : SchedulerStore) (claim : PollBatchClaim) : Prop where
  fresh : store.batches.find? claim.batchId = none
  batches : ∃ batch : PollBatch, batch.id = claim.batchId ∧
    store'.batches.rows = store.batches.rows ++ [batch]
  members : ∃ rows : List PollBatchMember, store'.members.rows = store.members.rows ++ rows ∧
    (∀ row ∈ rows, row.batchId = claim.batchId) ∧
    rows.map (·.tokenId) = claim.members.map (·.tokenId)
  outcomes : store'.outcomes = store.outcomes

/-- What a call to claim did to the batches. -/
def ClaimEffect (store store' : SchedulerStore) : Option PollBatchClaim → Prop
  | none => KeepsBatches store store'
  | some claim => Grants store store' claim

theorem grants_of_grantBatch {batch : PollBatch} {capacity : CapacityDecision}
    {members : List GrantedMember} {store store' : SchedulerStore} {claim : PollBatchClaim}
    (h : grantBatch batch capacity members store = .ok (store', claim)) :
    Grants store store' claim := by
  unfold grantBatch at h
  split at h
  · next hbatches hmembers =>
    cases h
    obtain ⟨hfresh, hrows⟩ := Table.insert?_eq_some hbatches
    refine ⟨hfresh, ⟨batch, rfl, hrows⟩, ⟨_, Table.rows_insertAll? hmembers, ?_, ?_⟩, rfl⟩
    · intro row hrow
      obtain ⟨member, _, rfl⟩ := List.mem_map.mp hrow
      rfl
    · rw [List.map_map, List.map_map]
      rfl
  · cases h
  · cases h

section Claiming
variable {scheduler : AdaptiveScheduler} {request : PollClaimRequest scheduler.policy}
  {capacity : CapacityDecision} {store store' : SchedulerStore} {claim : Option PollBatchClaim}

theorem claims_of_control
    (h : claimControlBatch scheduler request capacity store = .ok (store', claim)) :
    ClaimEffect store store' claim := by
  unfold claimControlBatch at h
  split at h
  · cases h
    exact KeepsBatches.refl _
  · split at h
    · cases h
      exact KeepsBatches.refl _
    · cases h
      exact KeepsBatches.refl _
    · simp only [bind_eq_ok, pure_eq_ok] at h
      obtain ⟨granted, hgranted, hresult⟩ := h
      cases hresult
      exact grants_of_grantBatch hgranted

theorem claims_of_ordinary
    (h : claimOrdinaryBatch scheduler request capacity store = .ok (store', claim)) :
    ClaimEffect store store' claim := by
  unfold claimOrdinaryBatch at h
  split at h
  · exact claims_of_control h
  · cases h
    exact KeepsBatches.refl _
  · simp only [bind_eq_ok, pure_eq_ok] at h
    obtain ⟨members, _, granted, hgranted, hresult⟩ := h
    cases hresult
    exact grants_of_grantBatch hgranted

/-- A preparation before a claim changes nothing about the batches. -/
theorem ClaimEffect.prepared {mid : SchedulerStore} (h : ClaimEffect mid store' claim)
    (hkept : KeepsBatches store mid) : ClaimEffect store store' claim := by
  cases claim with
  | none => exact hkept.trans h
  | some claim =>
    have hgrants : Grants mid store' claim := h
    refine ⟨?_, ?_, ?_, hgrants.outcomes.trans hkept.outcomes⟩
    · rw [← hkept.batches]
      exact hgrants.fresh
    · rw [← hkept.batches]
      exact hgrants.batches
    · rw [← hkept.members]
      exact hgrants.members

theorem claims_of_claimNextBatch
    (h : claimNextBatch scheduler request store = .ok (store', claim)) :
    ClaimEffect store store' claim := by
  simp only [claimNextBatch, bind_eq_ok] at h
  obtain ⟨⟨advancedStore, count⟩, hadvance, ⟨mid, capacity⟩, hcapacity, h⟩ := h
  have hadvanced : AdvancedStore scheduler request.now store advancedStore :=
    advancePages_store hadvance
  obtain ⟨⟨table, rfl⟩, _⟩ := capacityDecision_eq_ok hcapacity
  have hkept : KeepsBatches store { advancedStore with capacityDecisions := table } := by
    rw [hadvanced.frame]
    exact ⟨rfl, rfl, rfl⟩
  dsimp only at h
  split at h
  · refine ClaimEffect.prepared ?_ hkept
    unfold claimWithinCapacity at h
    split at h
    · simp only [bind_eq_ok] at h
      obtain ⟨⟨controlStore, control⟩, hcontrol, h⟩ := h
      cases control with
      | some granted =>
        cases h
        exact claims_of_control hcontrol
      | none => exact claims_of_ordinary h
    · exact claims_of_ordinary h
  · cases h
    exact hkept

end Claiming

/-! ### Completions -/

/-- A first completion adds the outcome that it was asked for. -/
structure RecordsOutcome (request : PollCompletionRequest) (store store' : SchedulerStore)
    (row : PollBatchOutcome) : Prop where
  batches : store'.batches = store.batches
  members : store'.members = store.members
  outcomes : store'.outcomes.rows = store.outcomes.rows ++ [row]
  batchId : row.batchId = request.batchId
  apiRequestLogId : row.apiRequestLogId = request.apiRequestLogId
  outcome : row.outcome = request.outcome
  failureDetail : row.failureDetail = request.failureDetail

theorem outcomeRow_eq_ok {scheduler : AdaptiveScheduler} {request : PollCompletionRequest}
    {members : List PollBatchMember} {row : PollBatchOutcome}
    (h : outcomeRow scheduler request members = .ok row) :
    row.batchId = request.batchId ∧ row.apiRequestLogId = request.apiRequestLogId ∧
      row.outcome = request.outcome ∧ row.failureDetail = request.failureDetail := by
  unfold outcomeRow at h
  dsimp only at h
  split at h
  · cases h
    exact ⟨rfl, rfl, rfl, rfl⟩
  · cases h

theorem completes_of_completeBatch {scheduler : AdaptiveScheduler}
    {request : PollCompletionRequest} {store store' : SchedulerStore} {completion : PollCompletion}
    (hfresh : store.outcomes.find? request.batchId = none)
    (h : completeBatch scheduler request store = .ok (store', completion)) :
    ∃ row, RecordsOutcome request store store' row := by
  unfold completeBatch at h
  split at h
  · cases h
  · rw [hfresh] at h
    simp only [completeOwnedBatch, guard_eq_ok, bind_eq_ok, pure_eq_ok] at h
    obtain ⟨_, _, _, _, _, row, hrow, mid, hmid, hresult⟩ := h
    cases hresult
    obtain ⟨_, _, _, _, rfl⟩ := completeMembers_eq_ok hmid
    obtain ⟨hbatch, hrequest, houtcome, hdetail⟩ := outcomeRow_eq_ok hrow
    refine ⟨{ row with
      observationLatenessMeanMs := roundedToThousandths row.observationLatenessMeanMs }, rfl, rfl,
      ?_, hbatch, hrequest, houtcome, hdetail⟩
    exact Table.rows_insertNew_of_find?_eq_none (hbatch ▸ hfresh)

/-! ### Executions -/

section Executions
variable {Facts : Type} {workflow : PollingWorkflow Facts}

theorem PollExecution.failureDetail_eq_none {s : PollExecution Facts} :
    s.failureDetail = none ↔ s.coverage = none ∧ s.lifecycleEvaluation = none ∧
      s.selectionFailures = [] ∧ s.candidateOrchestration = none := by
  rw [failureDetail]
  split
  · next h => simpa [and_assoc] using h
  · next h => simpa [and_assoc] using h

/-- What a savepoint can do to an execution: its writes are those of evaluations, and a failure
makes the outcome partial and is explained. -/
structure PollExecution.Continues (s s' : PollExecution Facts) : Prop where
  log : s'.tables.log = s.tables.log
  polled : s'.tables.polled = s.tables.polled
  kept : KeepsBatches s.tables.scheduler s'.tables.scheduler
  marked : (s'.outcome = s.outcome ∧ (s'.failureDetail = none ↔ s.failureDetail = none)) ∨
    (s'.outcome = .partly ∧ s'.failureDetail ≠ none)

theorem PollExecution.Continues.trans {s mid s' : PollExecution Facts} (h : s.Continues mid)
    (h' : mid.Continues s') : s.Continues s' := by
  refine ⟨h'.log.trans h.log, h'.polled.trans h.polled, h.kept.trans h'.kept, ?_⟩
  cases h'.marked with
  | inr hpartly => exact .inr hpartly
  | inl hsame =>
    rw [hsame.1, Ne, hsame.2]
    exact h.marked

theorem evaluateLifecycle_continues (requestId : Uuid) (draws : PollDraws workflow)
    (observations : Nat) (s : PollExecution Facts) :
    s.Continues (evaluateLifecycle workflow requestId draws observations s).1 := by
  unfold evaluateLifecycle
  split
  · exact ⟨rfl, rfl, .refl _, .inr ⟨rfl, by simp [PollExecution.failureDetail_eq_none]⟩⟩
  · next classifier _ selectionFailures h =>
    have hkept : KeepsBatches s.tables.scheduler classifier.scheduler :=
      evaluateRequest_keepsBatches h
    cases selectionFailures with
    | nil => exact ⟨rfl, rfl, hkept, .inl ⟨rfl, Iff.rfl⟩⟩
    | cons failure rest =>
      exact ⟨rfl, rfl, hkept, .inr ⟨rfl, by simp [PollExecution.failureDetail_eq_none]⟩⟩

theorem orchestrateCandidates_continues (requestId : Uuid) (draws : PollDraws workflow)
    (s : PollExecution Facts × Bool) :
    s.1.Continues (orchestrateCandidates workflow requestId draws s) := by
  unfold orchestrateCandidates
  split
  · split
    · exact ⟨rfl, rfl, .refl _, .inr ⟨rfl, by simp [PollExecution.failureDetail_eq_none]⟩⟩
    · exact ⟨rfl, rfl, ⟨rfl, rfl, rfl⟩, .inl ⟨rfl, Iff.rfl⟩⟩
  · exact ⟨rfl, rfl, .refl _, .inl ⟨rfl, Iff.rfl⟩⟩

theorem coverageOutcome_cases (memberCount observedCount : Nat) (hasIssues : Bool) :
    coverageOutcome memberCount observedCount hasIssues = .empty ∧ observedCount = 0 ∨
      coverageOutcome memberCount observedCount hasIssues = .succeeded ∨
        coverageOutcome memberCount observedCount hasIssues = .partly := by
  unfold coverageOutcome
  split
  · next h => exact .inl ⟨rfl, h.1⟩
  · split
    · exact .inr (.inl rfl)
    · exact .inr (.inr rfl)

/-- An outcome that names no failure is that of a batch that was covered. -/
def PollExecution.Explained (s : PollExecution Facts) : Prop :=
  s.failureDetail = none ↔ s.outcome = .succeeded ∨ s.outcome = .empty

theorem PollExecution.Continues.explained {s s' : PollExecution Facts} (h : s.Continues s')
    (hs : s.Explained) : s'.Explained := by
  cases h.marked with
  | inl hsame =>
    rw [Explained, hsame.2, hsame.1]
    exact hs
  | inr hpartly =>
    rw [Explained, hpartly.1]
    simp [hpartly.2]

/-- The outcome of a committed execution, with its request and what was polled. -/
structure Reports (e : ExecutedBatch Facts) (row : PollBatchOutcome) : Prop where
  batchId : row.batchId = e.claim.batchId
  request : row.apiRequestLogId = some e.request.id
  outcome : row.outcome = e.request.outcome ∨ e.polled.isSome = true ∧ row.outcome = .partly
  explained : row.failureDetail = none ↔ row.outcome = .succeeded ∨ row.outcome = .empty

/-- The parts of a committed execution agree. -/
structure ExecutedBatch.Sound (e : ExecutedBatch Facts) : Prop where
  key : e.request.key = ⟨e.claim.batchId, e.polled.isSome⟩
  answered : ∀ batch ∈ e.polled, e.request.outcome = batch.outcome ∧
    batch.response.requestId = e.request.id ∧
    batch.response.members.map (·.tokenId) = e.claim.members.map (·.tokenId)
  failed : e.polled = none → e.request.outcome = .failed ∨ e.request.outcome = .throttled

/-- What a transaction that commits does to the tables. -/
structure Executes (workflow : PollingWorkflow Facts) (tables tables' : CollectorTables Facts)
    (claim : PollBatchClaim) (e : ExecutedBatch Facts) : Prop where
  claimed : e.claim = claim
  requests : tables'.log.requests.rows = tables.log.requests.rows ++ [e.request]
  conflicts : tables'.log.conflicts = tables.log.conflicts
  unused : ∀ row ∈ tables.log.requests.rows, row.id ≠ e.request.id
  polled : (e.polled = none ∧ tables'.polled = tables.polled) ∨ ∃ response batch,
    e.polled = some batch ∧
      pollBatch workflow.accepts response tables.polled = .ok (tables'.polled, batch)
  batches : tables'.scheduler.batches = tables.scheduler.batches
  members : tables'.scheduler.members = tables.scheduler.members
  outcomes : ∃ row, tables'.scheduler.outcomes.rows = tables.scheduler.outcomes.rows ++ [row] ∧
    Reports e row
  sound : e.Sound

theorem recordPollRequest_eq_ok {row request : PollRequestRow} {log log' : PollRequestLog}
    (hfresh : log.requests.find? row.key = none)
    (h : recordPollRequest row log = .ok (log', request)) :
    request = row ∧ log'.requests.rows = log.requests.rows ++ [row] ∧
      log'.conflicts = log.conflicts ∧ ∀ stored ∈ log.requests.rows, stored.id ≠ row.id := by
  unfold recordPollRequest at h
  rw [hfresh] at h
  dsimp only at h
  split at h
  · cases h
  · next hfree =>
    cases h
    refine ⟨rfl, Table.rows_insertNew_of_find?_eq_none hfresh, rfl, fun stored hstored heq => ?_⟩
    exact hfree (List.any_eq_true.mpr ⟨stored, hstored, decide_eq_true heq⟩)

theorem completeExecution_eq_ok {claim : PollBatchClaim} {requestId : Uuid}
    {draws : PollDraws workflow} {outcome : PollOutcome} {detail : Option FailureDocument}
    {tables tables' : CollectorTables Facts} {completion : PollCompletion}
    (hfresh : tables.scheduler.outcomes.find? claim.batchId = none)
    (h : completeExecution workflow claim requestId draws outcome detail tables =
      .ok (tables', completion)) :
    tables'.log = tables.log ∧ tables'.polled = tables.polled ∧
      ∃ row, RecordsOutcome ⟨draws.completedAt, claim.batchId, outcome, some requestId,
        detail.map workflow.documentText⟩ tables.scheduler tables'.scheduler row := by
  simp only [completeExecution, guard_eq_ok, bind_eq_ok, pure_eq_ok, mapError_eq_ok] at h
  obtain ⟨_, ⟨scheduler, completed⟩, hcompleted, hresult⟩ := h
  cases hresult
  exact ⟨rfl, rfl, completes_of_completeBatch hfresh hcompleted⟩

/-- The completion that ends an execution, seen from its start. -/
theorem completeExecution_continues {claim : PollBatchClaim} {requestId : Uuid}
    {draws : PollDraws workflow} {started evaluated : PollExecution Facts}
    {tables : CollectorTables Facts} {completion : PollCompletion}
    (hcontinues : started.Continues evaluated) (hstarted : started.Explained)
    (hfresh : started.tables.scheduler.outcomes.find? claim.batchId = none)
    (h : completeExecution workflow claim requestId draws evaluated.outcome
      evaluated.failureDetail evaluated.tables = .ok (tables, completion)) :
    tables.log = started.tables.log ∧ tables.polled = started.tables.polled ∧
      tables.scheduler.batches = started.tables.scheduler.batches ∧
      tables.scheduler.members = started.tables.scheduler.members ∧
      ∃ row, tables.scheduler.outcomes.rows = started.tables.scheduler.outcomes.rows ++ [row] ∧
        row.batchId = claim.batchId ∧ row.apiRequestLogId = some requestId ∧
        (row.outcome = started.outcome ∨ row.outcome = .partly) ∧
        (row.failureDetail = none ↔ row.outcome = .succeeded ∨ row.outcome = .empty) := by
  have hfree : evaluated.tables.scheduler.outcomes.find? claim.batchId = none := by
    rw [hcontinues.kept.outcomes]
    exact hfresh
  obtain ⟨hlog, hpolled, row, hrow⟩ := completeExecution_eq_ok hfree h
  have htold : row.outcome = evaluated.outcome := hrow.outcome
  refine ⟨hlog.trans hcontinues.log, hpolled.trans hcontinues.polled,
    hrow.batches.trans hcontinues.kept.batches, hrow.members.trans hcontinues.kept.members, row,
    ?_, hrow.batchId, hrow.apiRequestLogId, ?_, ?_⟩
  · rw [hrow.outcomes, hcontinues.kept.outcomes]
  · rw [htold]
    exact hcontinues.marked.imp (fun h => h.1) fun h => h.1
  · rw [hrow.failureDetail, htold, Option.map_eq_none_iff]
    exact hcontinues.explained hstarted

theorem persistFailure_executes {claim : PollBatchClaim} {failure : PollFailure}
    {draws : PollDraws workflow} {tables tables' : CollectorTables Facts} {e : ExecutedBatch Facts}
    (hrequest : ∀ answered, tables.log.requests.find? ⟨claim.batchId, answered⟩ = none)
    (houtcome : tables.scheduler.outcomes.find? claim.batchId = none)
    (h : persistFailure workflow claim failure draws tables = .ok (tables', e)) :
    Executes workflow tables tables' claim e := by
  simp only [persistFailure, guard_eq_ok, bind_eq_ok, pure_eq_ok] at h
  obtain ⟨_, ⟨log, request⟩, hrecorded, ⟨completed, completion⟩, hcompleted, hresult⟩ := h
  cases hresult
  obtain ⟨rfl, hrows, hconflicts, hunused⟩ := recordPollRequest_eq_ok (hrequest false) hrecorded
  have hfresh : ({ tables with log := log } : CollectorTables Facts).scheduler.outcomes.find?
      claim.batchId = none := houtcome
  obtain ⟨hlog, hpolled, row, hrow⟩ := completeExecution_eq_ok hfresh hcompleted
  have hfailed : failureOutcome failure = .failed ∨ failureOutcome failure = .throttled := by
    unfold failureOutcome
    split
    · exact .inr rfl
    · exact .inl rfl
  have htold : row.outcome = failureOutcome failure := hrow.outcome
  refine ⟨rfl, by rw [hlog]; exact hrows, by rw [hlog]; exact hconflicts, hunused,
    .inl ⟨rfl, hpolled⟩, hrow.batches, hrow.members, ⟨row, hrow.outcomes, hrow.batchId,
      hrow.apiRequestLogId, .inl htold, ?_⟩, rfl, fun _ h => (by cases h), fun _ => hfailed⟩
  rw [hrow.failureDetail, htold]
  cases hfailed with
  | inl h => simp [h]
  | inr h => simp [h]

theorem pollBatch_eq_ok {response : PollResponse Facts} {store store' : PollStore Facts}
    {batch : PolledBatch Facts}
    (h : pollBatch workflow.accepts response store = .ok (store', batch)) :
    batch.response = response ∧ batch.outcome = coverageOutcome batch.response.members.length
      batch.build.observedTokenIds.card (!batch.build.issues.isEmpty) := by
  simp only [pollBatch, bind_eq_ok, pure_eq_ok, Prod.exists] at h
  obtain ⟨_, _, _, _, _, _, heq⟩ := h
  cases heq
  exact ⟨rfl, rfl⟩

/-- Before its savepoints an execution is partial exactly when its coverage is. -/
theorem explained_of_coverage {tables : CollectorTables Facts} {batch : PolledBatch Facts}
    (houtcome : batch.outcome = coverageOutcome batch.response.members.length
      batch.build.observedTokenIds.card (!batch.build.issues.isEmpty)) :
    ({ tables := tables
       outcome := batch.outcome
       coverage := coverageDetail batch } : PollExecution Facts).Explained := by
  rw [PollExecution.Explained, PollExecution.failureDetail_eq_none, coverageDetail, houtcome]
  cases coverageOutcome_cases batch.response.members.length batch.build.observedTokenIds.card
      (!batch.build.issues.isEmpty) with
  | inl hempty => simp [hempty.1]
  | inr hrest =>
    cases hrest with
    | inl hsucceeded => simp [hsucceeded]
    | inr hpartly => simp [hpartly]

theorem executeAnswer_executes {claim : PollBatchClaim} {answer : PollAnswer Facts}
    {draws : PollDraws workflow} {tables tables' : CollectorTables Facts} {e : ExecutedBatch Facts}
    (hrequest : ∀ answered, tables.log.requests.find? ⟨claim.batchId, answered⟩ = none)
    (houtcome : tables.scheduler.outcomes.find? claim.batchId = none)
    (h : executeAnswer workflow claim answer draws tables = .ok (tables', e)) :
    Executes workflow tables tables' claim e := by
  simp only [executeAnswer, guard_eq_ok, bind_eq_ok, pure_eq_ok, mapError_eq_ok] at h
  obtain ⟨_, ⟨store, polled⟩, hpolled, ⟨log, request⟩, hrecorded, ⟨completed, completion⟩,
    hcompleted, hresult⟩ := h
  cases hresult
  obtain ⟨rfl, hrows, hconflicts, hunused⟩ := recordPollRequest_eq_ok (hrequest true) hrecorded
  rw [hrequest true] at hpolled
  obtain ⟨hresponse, hcoverage⟩ := pollBatch_eq_ok hpolled
  have hcontinues := (evaluateLifecycle_continues draws.requestId draws polled.build.creates.length
    { tables := { tables with log := log, polled := store }
      outcome := polled.outcome
      coverage := coverageDetail polled }).trans (orchestrateCandidates_continues draws.requestId
        draws _)
  obtain ⟨hlog, hstore, hbatches, hmembers, row, houtcomes, hbatchId, hnamed, htold, hexplained⟩ :=
    completeExecution_continues hcontinues (explained_of_coverage hcoverage) houtcome hcompleted
  refine ⟨rfl, ?_, ?_, hunused, .inr ⟨pollResponse workflow claim answer draws none, polled, rfl,
    ?_⟩, hbatches, hmembers, ⟨row, houtcomes, hbatchId, hnamed, ?_, hexplained⟩, rfl, ?_,
    fun h => (by cases h)⟩
  · rw [hlog]
    exact hrows
  · rw [hlog]
    exact hconflicts
  · rw [hstore]
    exact hpolled
  · exact htold.imp id fun h => ⟨rfl, h⟩
  · intro batch hbatch
    cases hbatch
    refine ⟨rfl, ?_, ?_⟩
    · rw [hresponse]
      rfl
    · rw [hresponse, pollResponse, List.map_map]
      rfl

/-- A claim whose batch has no request and no outcome yet is executed once. -/
theorem executes_of_executeClaim {claim : PollBatchClaim}
    {result : Except PollFailure (PollAnswer Facts)} {draws : PollDraws workflow}
    {tables tables' : CollectorTables Facts} {e : ExecutedBatch Facts}
    (hrequest : ∀ answered, tables.log.requests.find? ⟨claim.batchId, answered⟩ = none)
    (houtcome : tables.scheduler.outcomes.find? claim.batchId = none)
    (h : executeClaim workflow claim result draws tables = .ok (tables', e)) :
    Executes workflow tables tables' claim e := by
  cases result with
  | ok answer => exact executeAnswer_executes hrequest houtcome h
  | error failure => exact persistFailure_executes hrequest houtcome h

end Executions

/-! ### Runs -/

/-- What the tables tell of the batches polled so far. -/
structure CollectorTables.Accounted {Facts : Type} (tables : CollectorTables Facts) : Prop where
  /-- An outcome is that of the request it names, or partial when an evaluation left something
  out. -/
  completed : ∀ row ∈ tables.scheduler.outcomes.rows, ∃ request ∈ tables.log.requests.rows,
    row.apiRequestLogId = some request.id ∧ request.key.batchId = row.batchId ∧
      (row.outcome = request.outcome ∨ request.key.answered = true ∧ row.outcome = .partly)
  /-- A request was stored only with the outcome of its batch. -/
  requested : ∀ request ∈ tables.log.requests.rows, ∃ row ∈ tables.scheduler.outcomes.rows,
    row.batchId = request.key.batchId ∧ row.apiRequestLogId = some request.id
  unrepeated : tables.log.conflicts = []
  explained : ∀ row ∈ tables.scheduler.outcomes.rows,
    row.failureDetail = none ↔ row.outcome = .succeeded ∨ row.outcome = .empty
  /-- An observation is of a token of its batch, and the batch did not fail. -/
  observed : ∀ observation ∈ tables.polled.observations.observations.rows,
    ∃ row ∈ tables.scheduler.outcomes.rows,
      row.apiRequestLogId = some observation.apiRequestLogId ∧
      (row.outcome = .succeeded ∨ row.outcome = .partly) ∧
      ∃ member ∈ tables.scheduler.members.rows, member.batchId = row.batchId ∧
        ∃ pair ∈ tables.polled.pairs.rows, pair.id = observation.pairId ∧
          pair.tokenId = member.tokenId
  /-- A batch succeeded only with an observation for every member. -/
  covered : ∀ row ∈ tables.scheduler.outcomes.rows, row.outcome = .succeeded →
    ∀ member ∈ tables.scheduler.members.rows, member.batchId = row.batchId →
      ∃ pair ∈ tables.polled.pairs.rows, pair.tokenId = member.tokenId ∧
        ∃ observation ∈ tables.polled.observations.observations.rows,
          row.apiRequestLogId = some observation.apiRequestLogId ∧ observation.pairId = pair.id

section Runs
variable {Facts : Type} {p : PollingDeployment Facts}

/-- A claim is a stored batch with its members. -/
structure StoredClaim (store : SchedulerStore) (claim : PollBatchClaim) : Prop where
  batch : (store.batches.find? claim.batchId).isSome = true
  members : ∀ tokenId, (∃ member ∈ store.members.rows, member.batchId = claim.batchId ∧
    member.tokenId = tokenId) ↔ tokenId ∈ claim.members.map (·.tokenId)

def PollingSystem.claims (s : PollingSystem Facts) : List PollBatchClaim :=
  s.claimed ++ s.executed.map (·.claim)

/-- The polled batches of the executions. -/
def PollingSystem.pollSystem (s : PollingSystem Facts) : PollSystem Facts :=
  ⟨s.tables.polled, s.executed.filterMap (·.polled)⟩

structure PollingSystem.Invariant (s : PollingSystem Facts) : Prop where
  claimed : ∀ claim ∈ s.claims, StoredClaim s.tables.scheduler claim
  distinct : (s.claims.map (·.batchId)).Nodup
  memberBatch : ∀ member ∈ s.tables.scheduler.members.rows,
    (s.tables.scheduler.batches.find? member.batchId).isSome = true
  told : List.Forall₂ Reports s.executed s.tables.scheduler.outcomes.rows
  requests : s.tables.log.requests.rows = s.executed.map (·.request)
  conflicts : s.tables.log.conflicts = []
  ids : (s.tables.log.requests.rows.map (·.id)).Nodup
  sound : ∀ e ∈ s.executed, e.Sound
  polled : s.pollSystem.Invariant

theorem StoredClaim.kept {store store' : SchedulerStore} {claim : PollBatchClaim}
    (h : StoredClaim store claim) (hbatches : store'.batches = store.batches)
    (hmembers : store'.members = store.members) : StoredClaim store' claim := by
  refine ⟨?_, ?_⟩
  · rw [hbatches]
    exact h.batch
  · rw [hmembers]
    exact h.members

/-- A granted batch is claimed, and earlier claims stay as they are. -/
theorem Grants.claimed {store store' : SchedulerStore} {claim : PollBatchClaim}
    (h : Grants store store' claim) (hmembers : ∀ member ∈ store.members.rows,
      (store.batches.find? member.batchId).isSome = true) :
    StoredClaim store' claim ∧ (∀ earlier, StoredClaim store earlier → StoredClaim store' earlier) ∧
      ∀ member ∈ store'.members.rows, (store'.batches.find? member.batchId).isSome = true := by
  obtain ⟨batch, hid, hbatches⟩ := h.batches
  obtain ⟨rows, hrows, hbatchIds, htokens⟩ := h.members
  have hkept {batchId : Uuid} (hfound : (store.batches.find? batchId).isSome = true) :
      (store'.batches.find? batchId).isSome = true := by
    obtain ⟨stored, hstored⟩ := Option.isSome_iff_exists.mp hfound
    rw [Table.find?_append hbatches hstored]
    rfl
  have hnew : (store'.batches.find? claim.batchId).isSome = true := by
    rw [← hid, Table.find?_last hbatches]
    rfl
  refine ⟨⟨hnew, fun tokenId => ?_⟩,
    fun earlier hearlier => ⟨hkept hearlier.batch, fun tokenId => ?_⟩, fun member hmember => ?_⟩
  · rw [← htokens, List.mem_map]
    constructor
    · intro hmember
      obtain ⟨member, hmember, hbatch, htoken⟩ := hmember
      rw [hrows] at hmember
      cases List.mem_append.mp hmember with
      | inl hold =>
        have hfound := hmembers member hold
        rw [hbatch, h.fresh] at hfound
        cases hfound
      | inr hrow => exact ⟨member, hrow, htoken⟩
    · intro hrow
      obtain ⟨row, hrow, htoken⟩ := hrow
      exact ⟨row, hrows ▸ List.mem_append_right _ hrow, hbatchIds row hrow, htoken⟩
  · rw [← hearlier.members tokenId]
    constructor
    · intro hmember
      obtain ⟨member, hmember, hbatch, htoken⟩ := hmember
      rw [hrows] at hmember
      cases List.mem_append.mp hmember with
      | inl hold => exact ⟨member, hold, hbatch, htoken⟩
      | inr hrow =>
        -- the row is one of the new batch, which no earlier claim has
        have hfound := hearlier.batch
        rw [← hbatch, hbatchIds member hrow, h.fresh] at hfound
        cases hfound
    · intro hmember
      obtain ⟨member, hmember, hrest⟩ := hmember
      exact ⟨member, hrows ▸ List.mem_append_left _ hmember, hrest⟩
  · rw [hrows] at hmember
    cases List.mem_append.mp hmember with
    | inl hold => exact hkept (hmembers member hold)
    | inr hrow =>
      rw [hbatchIds member hrow]
      exact hnew

theorem PollingSystem.Invariant.claim {s : PollingSystem Facts} (h : s.Invariant)
    {store : SchedulerStore} {claim : PollBatchClaim}
    (hgrants : Grants s.tables.scheduler store claim) :
    ({ s with
      tables := s.tables.setScheduler store
      claimed := s.claimed ++ [claim] } : PollingSystem Facts).Invariant := by
  obtain ⟨hnew, hkept, hmembers⟩ := hgrants.claimed h.memberBatch
  have hperm : (s.claimed ++ [claim] ++ s.executed.map (·.claim)).Perm (claim :: s.claims) := by
    rw [List.append_assoc]
    exact List.perm_middle
  refine ⟨?_, ?_, hmembers, ?_, h.requests, h.conflicts, h.ids, h.sound, h.polled⟩
  · intro other hother
    cases List.mem_cons.mp (hperm.mem_iff.mp hother) with
    | inl heq => exact heq ▸ hnew
    | inr hearlier => exact hkept other (h.claimed other hearlier)
  · refine ((hperm.map _).nodup_iff).mpr (List.nodup_cons.mpr ⟨fun hmem => ?_, h.distinct⟩)
    obtain ⟨other, hother, hsame⟩ := List.mem_map.mp hmem
    have hfound := (h.claimed other hother).batch
    rw [hsame, hgrants.fresh] at hfound
    cases hfound
  · show List.Forall₂ Reports s.executed store.outcomes.rows
    rw [hgrants.outcomes]
    exact h.told

/-- Transactions that keep the batches keep the invariant, and so does forgetting claims. -/
theorem PollingSystem.Invariant.kept {s s' : PollingSystem Facts} (h : s.Invariant)
    (hkept : KeepsBatches s.tables.scheduler s'.tables.scheduler)
    (hlog : s'.tables.log = s.tables.log) (hpolled : s'.tables.polled = s.tables.polled)
    (hclaimed : s'.claimed.Sublist s.claimed) (hexecuted : s'.executed = s.executed) :
    s'.Invariant := by
  have hclaims : s'.claims.Sublist s.claims := by
    rw [claims, hexecuted]
    exact hclaimed.append_right _
  refine ⟨?_, h.distinct.sublist (hclaims.map _), ?_, ?_, ?_, ?_, ?_, ?_, ?_⟩
  · intro claim hclaim
    exact (h.claimed claim (hclaims.subset hclaim)).kept hkept.batches hkept.members
  · rw [hkept.members, hkept.batches]
    exact h.memberBatch
  · rw [hkept.outcomes, hexecuted]
    exact h.told
  · rw [hlog, hexecuted]
    exact h.requests
  · rw [hlog]
    exact h.conflicts
  · rw [hlog]
    exact h.ids
  · rw [hexecuted]
    exact h.sound
  · rw [pollSystem, hpolled, hexecuted]
    exact h.polled

/-- A claimed batch has no request and no outcome before it is executed. -/
theorem PollingSystem.Invariant.unexecuted {s : PollingSystem Facts} (h : s.Invariant)
    {position : Nat} {claim : PollBatchClaim} (hclaim : s.claimed[position]? = some claim) :
    (∀ answered, s.tables.log.requests.find? ⟨claim.batchId, answered⟩ = none) ∧
      s.tables.scheduler.outcomes.find? claim.batchId = none := by
  have hother : ∀ e ∈ s.executed, e.claim.batchId ≠ claim.batchId := by
    intro e he heq
    have hdistinct := h.distinct
    rw [claims, List.map_append] at hdistinct
    exact (List.nodup_append.mp hdistinct).2.2 _
      (List.mem_map_of_mem (List.mem_of_getElem? hclaim)) _
      (List.mem_map_of_mem (List.mem_map_of_mem he)) heq.symm
  constructor
  · intro answered
    rw [Table.find?_eq_none_iff, h.requests]
    intro request hrequest heq
    obtain ⟨e, he, rfl⟩ := List.mem_map.mp hrequest
    rw [(h.sound e he).key] at heq
    exact hother e he (congrArg PollRequestKey.batchId heq)
  · rw [Table.find?_eq_none_iff]
    intro row hrow heq
    obtain ⟨e, he, htells⟩ := exists_related_left h.told hrow
    exact hother e he (htells.batchId.symm.trans heq)

theorem PollingSystem.Invariant.execute {s : PollingSystem Facts} (h : s.Invariant)
    {tables : CollectorTables Facts} {position : Nat} {claim : PollBatchClaim}
    {e : ExecutedBatch Facts} (hclaim : s.claimed[position]? = some claim)
    (he : Executes p.workflow s.tables tables claim e) :
    (⟨tables, s.claimed.eraseIdx position, s.executed ++ [e]⟩ : PollingSystem Facts).Invariant := by
  obtain ⟨hbound, hget⟩ := List.getElem?_eq_some_iff.mp hclaim
  have hperm : (s.claimed.eraseIdx position ++ (s.executed ++ [e]).map (·.claim)).Perm
      s.claims := by
    have herase : (claim :: s.claimed.eraseIdx position).Perm s.claimed := by
      rw [← hget]
      exact List.getElem_cons_eraseIdx_perm hbound
    rw [List.map_append, List.map_singleton, he.claimed, ← List.append_assoc]
    refine List.perm_append_comm.trans ?_
    exact herase.append_right _
  obtain ⟨row, hrows, htells⟩ := he.outcomes
  refine ⟨?_, ?_, ?_, ?_, ?_, he.conflicts.trans h.conflicts, ?_, ?_, ?_⟩
  · intro other hother
    exact (h.claimed other (hperm.mem_iff.mp hother)).kept he.batches he.members
  · exact ((hperm.map _).nodup_iff).mpr h.distinct
  · rw [he.members, he.batches]
    exact h.memberBatch
  · rw [hrows]
    exact List.rel_append h.told (.cons htells .nil)
  · rw [he.requests, h.requests, List.map_append, List.map_singleton]
  · rw [he.requests, List.map_append, List.map_singleton]
    refine List.nodup_append.mpr ⟨h.ids, List.nodup_singleton _, ?_⟩
    intro id hid other hother heq
    obtain ⟨request, hrequest, rfl⟩ := List.mem_map.mp hid
    exact he.unused request hrequest (heq.trans (List.mem_singleton.mp hother))
  · exact List.forall_mem_append.mpr ⟨h.sound, List.forall_mem_singleton.mpr he.sound⟩
  · cases he.polled with
    | inl hnone =>
      rw [PollingSystem.pollSystem, List.filterMap_append, hnone.2]
      simpa [hnone.1, PollingSystem.pollSystem] using h.polled
    | inr hsome =>
      obtain ⟨response, batch, hbatch, hpolled⟩ := hsome
      have hstep : (pollStep p.workflow.accepts s.pollSystem response).Invariant :=
        (h.polled.step response).1
      rw [pollStep, PollingSystem.pollSystem, hpolled] at hstep
      rw [PollingSystem.pollSystem, List.filterMap_append]
      simpa [hbatch] using hstep

theorem keepsBatches_of_execute {now : Int} {call : Call p.scheduling}
    (hcall : isPolling call = false) (store : SchedulerStore)
    (candidates : Candidates.CandidateStore) :
    KeepsBatches store (Scheduling.execute now call store candidates).1 := by
  have heffect := execute_effect now call store candidates
  generalize (Scheduling.execute now call store candidates).1 = store' at heffect
  cases heffect with
  | kept => exact .refl _
  | prepared => cases hcall
  | granted => cases hcall
  | completed => cases hcall
  | epochStarted request _ started =>
    rw [started.frame]
    exact ⟨rfl, rfl, rfl⟩
  | lifecycleSet request _ set => exact keepsBatches_of_lifecycleSet set
  | evaluated => exact ⟨rfl, rfl, rfl⟩

theorem PollingSystem.Invariant.step {s : PollingSystem Facts} (h : s.Invariant)
    (action : PollingAction p) : (pollingStep p s action).Invariant := by
  cases action with
  | claim request =>
    simp only [pollingStep]
    split
    · exact h
    · next store claim hclaim =>
      have hclaims : ClaimEffect s.tables.scheduler store claim := claims_of_claimNextBatch hclaim
      cases claim with
      | none =>
        exact h.kept hclaims rfl rfl (by rw [Option.toList_none, List.append_nil]) rfl
      | some claim => exact h.claim hclaims
  | execute position result draws =>
    simp only [pollingStep]
    split
    · exact h
    · next claim hclaim =>
      split
      · exact h.kept (.refl _) rfl rfl (List.eraseIdx_sublist _ _) rfl
      · next tables e hexecuted =>
        obtain ⟨hrequest, houtcome⟩ := h.unexecuted hclaim
        exact h.execute hclaim (executes_of_executeClaim hrequest houtcome hexecuted)
  | other now call =>
    simp only [pollingStep]
    split
    · exact h
    · next hcall =>
      exact h.kept (keepsBatches_of_execute (eq_false_of_ne_true hcall) _ _) rfl rfl (.refl _) rfl
  | crash => exact h.kept (.refl _) rfl rfl (List.nil_sublist _) rfl

theorem PollingSystem.Invariant.observed {s : PollingSystem Facts} (h : s.Invariant)
    {observation : Observation (ObservedFacts Facts)}
    (hobservation : observation ∈ s.tables.polled.observations.observations.rows) :
    ∃ row ∈ s.tables.scheduler.outcomes.rows,
      row.apiRequestLogId = some observation.apiRequestLogId ∧
      (row.outcome = .succeeded ∨ row.outcome = .partly) ∧
      ∃ member ∈ s.tables.scheduler.members.rows, member.batchId = row.batchId ∧
        ∃ pair ∈ s.tables.polled.pairs.rows, pair.id = observation.pairId ∧
          pair.tokenId = member.tokenId := by
  obtain ⟨batch, hbatch, normalized, hnormalized, hkey, _⟩ :=
    h.polled.evidenced observation hobservation
  obtain ⟨e, he, hpolled⟩ := List.mem_filterMap.mp hbatch
  obtain ⟨row, hrow, htells⟩ := exists_related_right h.told he
  have hsettled := h.polled.settled batch hbatch
  obtain ⟨houtcome, hid, htokens⟩ := (h.sound e he).answered batch hpolled
  obtain ⟨member, _, _, hnamed, stored, hstored, _, _, howner, heq⟩ :=
    hsettled.mem_normalized hnormalized
  have htoken : member.tokenId ∈ e.claim.members.map (·.tokenId) := by
    rw [← htokens]
    exact List.mem_map_of_mem hnamed.member_mem
  have hclaimed := h.claimed e.claim
    (List.mem_append_right _ (List.mem_map_of_mem he))
  obtain ⟨memberRow, hmember, hof, hsame⟩ := (hclaimed.members _).mpr htoken
  refine ⟨row, hrow, ?_, ?_, memberRow, hmember, hof.trans htells.batchId.symm, stored, hstored,
    ?_, howner.trans hsame.symm⟩
  · have hrequestId : observation.apiRequestLogId = batch.response.requestId :=
      congrArg ObservationKey.apiRequestLogId hkey
    rw [htells.request, hrequestId, hid]
  · have hcovered : batch.outcome = .succeeded ∨ batch.outcome = .partly := by
      have hobserved : normalized.tokenId ∈ batch.build.observedTokenIds := by
        rw [hsettled.observed, List.mem_toFinset]
        exact List.mem_map_of_mem hnormalized
      rw [hsettled.outcome]
      refine (coverageOutcome_cases _ _ _).resolve_left fun hempty => ?_
      exact absurd hempty.2 (Finset.card_ne_zero_of_mem hobserved)
    cases htells.outcome with
    | inl hsame =>
      rw [hsame, houtcome]
      exact hcovered
    | inr hpartly => exact .inr hpartly.2
  · rw [heq] at hkey
    exact (congrArg ObservationKey.pairId hkey).symm

theorem PollingSystem.Invariant.covered {s : PollingSystem Facts} (h : s.Invariant)
    {row : PollBatchOutcome} (hrow : row ∈ s.tables.scheduler.outcomes.rows)
    (hsucceeded : row.outcome = .succeeded) {memberRow : PollBatchMember}
    (hmember : memberRow ∈ s.tables.scheduler.members.rows)
    (hof : memberRow.batchId = row.batchId) :
    ∃ pair ∈ s.tables.polled.pairs.rows, pair.tokenId = memberRow.tokenId ∧
      ∃ observation ∈ s.tables.polled.observations.observations.rows,
        row.apiRequestLogId = some observation.apiRequestLogId ∧ observation.pairId = pair.id := by
  obtain ⟨e, he, htells⟩ := exists_related_left h.told hrow
  have hrequested : e.request.outcome = .succeeded := by
    cases htells.outcome with
    | inl hsame => rw [← hsame, hsucceeded]
    | inr hpartly =>
      rw [hsucceeded] at hpartly
      cases hpartly.2
  cases hpolled : e.polled with
  | none =>
    have hfailed := (h.sound e he).failed hpolled
    rw [hrequested] at hfailed
    cases hfailed with
    | inl hfailed => cases hfailed
    | inr hfailed => cases hfailed
  | some batch =>
    have hbatch : batch ∈ s.pollSystem.polled := List.mem_filterMap.mpr ⟨e, he, hpolled⟩
    obtain ⟨houtcome, hid, htokens⟩ := (h.sound e he).answered batch hpolled
    obtain ⟨_, hcovered⟩ := h.polled.accounted.succeeded batch hbatch
      (houtcome.symm.trans hrequested)
    have hclaimed := h.claimed e.claim
      (List.mem_append_right _ (List.mem_map_of_mem he))
    have htoken : memberRow.tokenId ∈ batch.response.members.map (·.tokenId) := by
      rw [htokens]
      exact (hclaimed.members _).mp ⟨memberRow, hmember, hof.trans htells.batchId, rfl⟩
    obtain ⟨member, hmember, hsame⟩ := List.mem_map.mp htoken
    obtain ⟨stored, hstored, howner, observation, hobservation, hkey⟩ := hcovered member hmember
    refine ⟨stored, hstored, howner.trans hsame, observation, hobservation, ?_, ?_⟩
    · rw [htells.request, ← hid]
      exact congrArg (some ∘ ObservationKey.apiRequestLogId) hkey.symm
    · exact congrArg ObservationKey.pairId hkey

theorem PollingSystem.Invariant.accounted {s : PollingSystem Facts} (h : s.Invariant) :
    s.tables.Accounted := by
  have hrequest {e : ExecutedBatch Facts} (he : e ∈ s.executed) :
      e.request ∈ s.tables.log.requests.rows := by
    rw [h.requests]
    exact List.mem_map_of_mem he
  refine ⟨?_, ?_, h.conflicts, ?_, fun _ => h.observed,
    fun _ hrow hsucceeded _ hmember => h.covered hrow hsucceeded hmember⟩
  · intro row hrow
    obtain ⟨e, he, htells⟩ := exists_related_left h.told hrow
    have hkey := (h.sound e he).key
    refine ⟨e.request, hrequest he, htells.request, ?_, ?_⟩
    · rw [hkey, htells.batchId]
    · rw [hkey]
      exact htells.outcome
  · intro request hmem
    rw [h.requests] at hmem
    obtain ⟨e, he, rfl⟩ := List.mem_map.mp hmem
    obtain ⟨row, hrow, htells⟩ := exists_related_right h.told he
    exact ⟨row, hrow, by rw [htells.batchId, (h.sound e he).key], htells.request⟩
  · intro row hrow
    obtain ⟨e, _, htells⟩ := exists_related_left h.told hrow
    exact htells.explained

end Runs

/-- In every run of claims, executions, transactions of other workflows and crashes, a batch is
recorded whole or not at all: its request, its outcome and its observations stand together. -/
theorem poll_executions_accounted {Facts : Type} (p : PollingDeployment Facts)
    (classifier : Lifecycle.ClassifierStore) (candidates : Candidates.CandidateStore)
    (actions : List (PollingAction p)) :
    Always (pollingStep p) (fun s => s.tables.Accounted) (startCollecting classifier candidates)
      actions := by
  have hstart : (startCollecting classifier candidates : PollingSystem Facts).Invariant := by
    refine ⟨?_, List.nodup_nil, ?_, .nil, rfl, rfl, List.nodup_nil, ?_,
      ⟨?_, ?_, ?_, List.nodup_nil⟩⟩
    · intro _ h
      cases h
    · intro _ h
      cases h
    · intro _ h
      cases h
    · intro _ h
      cases h
    · intro _ h
      cases h
    · intro _ h
      cases h
  exact (always_of_kept (fun s action h => h.step action) hstart actions).mono
    fun _ h => h.accounted

end PumpResearch.Collection
