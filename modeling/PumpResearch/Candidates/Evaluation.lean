import PumpResearch.Candidates.Tasks
import PumpResearch.Library.Results
import PumpResearch.Scheduling.Store

/-! Applying a candidate evaluation: the tier transition, its evidence, the coverage override
of the token's poll schedule and the enrichment tasks, in one transaction. -/
namespace PumpResearch.Candidates
open KeyedTable OrderedDict Results Scheduling

/-! ### Rows -/

structure CandidatePolicyRecord where
  policySha256 : String
  policyVersion : String
  policySnapshot : CandidatePolicy
deriving DecidableEq

structure SourceFactIds where
  observationId : Option String
  boostEventId : Option String
  securitySnapshotId : Option String
  holderSnapshotId : Option String
  traderSnapshotId : Option String
deriving DecidableEq

structure CandidateEvent where
  id : Uuid
  idempotencyKey : String
  tokenId : Uuid
  collectionEpochId : Uuid
  collectorRunId : Option Uuid
  candidateAt : Int
  triggerType : TransitionReason
  triggerVersion : String
  featureSetName : String
  featureSetVersion : String
  inputWatermark : Int
  lifecycleState : String
  coverageClass : String
  evidenceSha256 : String
  evidenceSnapshot : CandidateEvidence
  sourceFactIds : SourceFactIds
  policySha256 : String
deriving DecidableEq

structure CandidateTierEvent where
  id : Uuid
  idempotencyKey : String
  candidateId : Option Uuid
  tokenId : Uuid
  collectionEpochId : Uuid
  collectorRunId : Option Uuid
  previousTier : CandidateTier
  newTier : CandidateTier
  decidedAt : Int
  inputWatermark : Int
  reasonCode : TransitionReason
  reasonDetail : Dict String DetailValue
  transitionVersion : String
  policySha256 : String
  evidenceSha256 : String
deriving DecidableEq

structure CandidateCurrentState where
  collectionEpochId : Uuid
  tokenId : Uuid
  tier : CandidateTier
  latestCandidateId : Option Uuid
  latestTierEventId : Uuid
  tierSince : Int
  coverageExpiresAt : Option Int
  nextEvaluationAt : Int
  inputWatermark : Int
  evidenceSha256 : String
  policySha256 : String
  updatedAt : Int
deriving DecidableEq

/-- The primary key of the current projection. -/
def CandidateCurrentState.key (state : CandidateCurrentState) : Uuid × Uuid :=
  (state.collectionEpochId, state.tokenId)

structure CandidateStore where
  policies : Table CandidatePolicyRecord.policySha256
  currentStates : Table CandidateCurrentState.key
  schedules : ScheduleTable
  candidateEvents : Table CandidateEvent.id
  tierEvents : Table CandidateTierEvent.id
  tasks : TaskTable

/-! ### Identities -/

structure CandidateSemantic where
  epochId : Uuid
  tokenId : Uuid
  watermark : Int
  evidenceSha256 : String
  policySha256 : String
  reason : TransitionReason
deriving DecidableEq

structure TierSemantic where
  epoch : Uuid
  token : Uuid
  previous : CandidateTier
  target : CandidateTier
  watermark : Int
  evidence : String
  policy : String
deriving DecidableEq

/-- The digests of semantic documents and the UUID derived from a name. -/
structure CandidateIdentities where
  evidenceSha256 : CandidateEvidence → String
  policySha256 : CandidatePolicy → String
  candidateKey : CandidateSemantic → String
  tierKey : TierSemantic → String
  taskKey : TaskSemantic → String
  uuid5 : String → Uuid

def CandidateIdentities.task (ids : CandidateIdentities) : TaskIdentity := ⟨ids.taskKey, ids.uuid5⟩

/-! ### Persisting immutable evidence -/

def candidateValues (ids : CandidateIdentities) (collectionEpochId : Uuid)
    (collectorRunId : Option Uuid) (evidence : CandidateEvidence) (decision : EvaluationDecision)
    (policy : CandidatePolicy) : CandidateEvent :=
  let key := ids.candidateKey ⟨collectionEpochId, evidence.tokenId, evidence.watermark,
    ids.evidenceSha256 evidence, ids.policySha256 policy, decision.reason⟩
  { id := ids.uuid5 ("pump-research:candidate:" ++ key)
    idempotencyKey := key
    tokenId := evidence.tokenId
    collectionEpochId := collectionEpochId
    collectorRunId := collectorRunId
    candidateAt := evidence.evaluatedAt
    triggerType := decision.reason
    triggerVersion := candidateVersion
    featureSetName := "market-v1"
    featureSetVersion := "1.0.0"
    inputWatermark := evidence.watermark
    lifecycleState := evidence.lifecycleState
    coverageClass := evidence.coverageClass
    evidenceSha256 := ids.evidenceSha256 evidence
    evidenceSnapshot := evidence
    sourceFactIds := ⟨evidence.observationId, evidence.boostEventId, evidence.securitySnapshotId,
      evidence.holderSnapshotId, evidence.traderSnapshotId⟩
    policySha256 := ids.policySha256 policy }

/-- `_candidate_equal`: every column but the id. -/
def candidateEqual (row values : CandidateEvent) : Prop := { row with id := values.id } = values

instance decidableCandidateEqual (row values : CandidateEvent) :
    Decidable (candidateEqual row values) :=
  inferInstanceAs (Decidable ({ row with id := values.id } = values))

/-- `_persist_candidate`: insert without conflict, then compare what is stored. -/
def persistCandidate (values : CandidateEvent) (table : Table CandidateEvent.id) :
    Except RepositoryError (Table CandidateEvent.id × CandidateEvent) :=
  let table' :=
    if table.rows.any (·.idempotencyKey = values.idempotencyKey) then table
    else table.insertNew values
  match (table'.find? values.id).or
      (table'.rows.find? (·.idempotencyKey = values.idempotencyKey)) with
  | some row =>
    if candidateEqual row values then .ok (table', row)
    else
      .error (.integrity "candidate deterministic identity maps to different semantic content")
  | none =>
    .error (.integrity "candidate deterministic identity maps to different semantic content")

def tierEventValues (ids : CandidateIdentities) (collectionEpochId : Uuid)
    (collectorRunId candidateId : Option Uuid) (previous target : CandidateTier)
    (evidence : CandidateEvidence) (decision : EvaluationDecision) (policy : CandidatePolicy)
    (now : Int) : CandidateTierEvent :=
  let identity := ids.tierKey ⟨collectionEpochId, evidence.tokenId, previous, target,
    evidence.watermark, ids.evidenceSha256 evidence, ids.policySha256 policy⟩
  { id := ids.uuid5 ("pump-research:candidate-tier:" ++ identity)
    idempotencyKey := identity
    candidateId := candidateId
    tokenId := evidence.tokenId
    collectionEpochId := collectionEpochId
    collectorRunId := collectorRunId
    previousTier := previous
    newTier := target
    decidedAt := now
    inputWatermark := evidence.watermark
    reasonCode := decision.reason
    reasonDetail := decision.detail
    transitionVersion := candidateVersion
    policySha256 := ids.policySha256 policy
    evidenceSha256 := ids.evidenceSha256 evidence }

/-- `_persist_tier_event`. -/
def persistTierEvent (values : CandidateTierEvent) (table : Table CandidateTierEvent.id) :
    Except RepositoryError (Table CandidateTierEvent.id × CandidateTierEvent) :=
  let table' :=
    if table.rows.any (·.idempotencyKey = values.idempotencyKey) then table
    else table.insertNew values
  match table'.find? values.id with
  | some row =>
    if row = values then .ok (table', row)
    else .error (.integrity "candidate tier identity maps to different semantic content")
  | none => .error (.integrity "candidate tier identity maps to different semantic content")

/-! ### The transition -/

structure CandidateTransitionResult where
  candidateId : Option Uuid
  previousTier : CandidateTier
  currentTier : CandidateTier
  changed : Bool
  coverageExpiresAt : Option Int
deriving DecidableEq

def tierRank : CandidateTier → Nat
  | .tier0Universal => 0
  | .tier1Interesting => 1
  | .tier2Investigate => 2
  | .tier3DeepReview => 3
  | .tier4Pretrade => 4

def taskTypesFor : CandidateTier → List String
  | .tier1Interesting => ["BASIC_SECURITY_REFRESH", "METADATA_REFRESH"]
  | .tier2Investigate =>
    ["HOLDER_SNAPSHOT", "TRADER_DISTRIBUTION", "CREATOR_HISTORY", "LIQUIDITY_EVENT_ANALYSIS"]
  | .tier3DeepReview => ["WALLET_CLUSTER_ANALYSIS", "FUNDING_GRAPH_ANALYSIS"]
  | .tier0Universal | .tier4Pretrade => []

/-- One call of `apply_evaluation`. -/
structure EvaluationCall where
  collectionEpochId : Uuid
  collectorRunId : Option Uuid
  evidence : CandidateEvidence
  decision : EvaluationDecision
  now : Int
  taskMaxAttempts : Nat := 4

def currentOf (store : CandidateStore) (call : EvaluationCall) : Option CandidateCurrentState :=
  store.currentStates.find? (call.collectionEpochId, call.evidence.tokenId)

def previousTier (current : Option CandidateCurrentState) : CandidateTier :=
  current.elim .tier0Universal (·.tier)

def unchangedResult (current : Option CandidateCurrentState) : CandidateTransitionResult where
  candidateId := current.bind (·.latestCandidateId)
  previousTier := previousTier current
  currentTier := previousTier current
  changed := false
  coverageExpiresAt := current.bind (·.coverageExpiresAt)

/-- Evidence older than the projection, or of its time with a lower tier, changes nothing. -/
def outdated (current : Option CandidateCurrentState) (call : EvaluationCall) : Prop :=
  ∃ state ∈ current, call.evidence.watermark < state.inputWatermark ∨
    (call.evidence.watermark = state.inputWatermark ∧
      tierRank call.decision.targetTier < tierRank state.tier)

instance decidableOutdated (current : Option CandidateCurrentState) (call : EvaluationCall) :
    Decidable (outdated current call) :=
  inferInstanceAs (Decidable (∃ state ∈ current, _ ∨ _))

def tier3Count (store : CandidateStore) : Nat :=
  store.currentStates.rows.countP (·.tier = .tier3DeepReview)

/-- The deep-review budget: over it, the decision keeps the previous tier. -/
def tier3Admitted (policy : CandidatePolicy) (store : CandidateStore) (previous : CandidateTier)
    (decision : EvaluationDecision) : EvaluationDecision :=
  if decision.targetTier = .tier3DeepReview ∧ previous ≠ .tier3DeepReview ∧
      policy.maxTier3Candidates ≤ tier3Count store then
    { decision with
      targetTier := previous
      detail := (decision.detail.set "tier3_budget_admitted" (.flag false)).set
        "tier3_budget_limit" (.number policy.maxTier3Candidates) }
  else decision

/-- The tier to move to: a token that cooled keeps its tier while its coverage lasts. -/
def targetTier (current : Option CandidateCurrentState) (now : Int)
    (decision : EvaluationDecision) : CandidateTier :=
  if ¬ decision.eligible ∧ previousTier current ≠ .tier0Universal ∧
      ∃ state ∈ current, ∃ expires ∈ state.coverageExpiresAt, now < expires then
    previousTier current
  else decision.targetTier

/-- A candidate is renewed in its tier once its coverage has run out, on new evidence. -/
def refreshes (current : Option CandidateCurrentState) (now : Int) (evidenceSha256 : String)
    (decision : EvaluationDecision) (target : CandidateTier) : Prop :=
  target = previousTier current ∧ target ≠ .tier0Universal ∧ decision.eligible ∧
    ∃ state ∈ current, (∀ expires ∈ state.coverageExpiresAt, expires ≤ now) ∧
      state.nextEvaluationAt ≤ now ∧ state.evidenceSha256 ≠ evidenceSha256

instance decidableRefreshes (current : Option CandidateCurrentState) (now : Int)
    (evidenceSha256 : String) (decision : EvaluationDecision) (target : CandidateTier) :
    Decidable (refreshes current now evidenceSha256 decision target) :=
  inferInstanceAs (Decidable (_ ∧ _ ∧ _ ∧ ∃ state ∈ current, _ ∧ _ ∧ _))

/-- The decision and the tier that a call will write, if it writes a transition at all. -/
def plannedTransition (ids : CandidateIdentities) (policy : CandidatePolicy)
    (store : CandidateStore) (call : EvaluationCall) :
    Option (EvaluationDecision × CandidateTier) :=
  let current := currentOf store call
  if outdated current call then none
  else
    let decision := tier3Admitted policy store (previousTier current) call.decision
    let target := targetTier current call.now decision
    if target = previousTier current ∧ ¬ refreshes current call.now
        (ids.evidenceSha256 call.evidence) decision target then none
    else some (decision, target)

/-- Overrides live at an instant. -/
def activeCoverage (now : Int) (schedules : ScheduleTable) : Nat :=
  schedules.rows.countP (PollSchedule.OverlayActive now ·)

/-- Admission to the coverage cap: a live override keeps its place, a new one needs a free one. -/
def coverageAdmitted (policy : CandidatePolicy) (store : CandidateStore) (call : EvaluationCall)
    (target : CandidateTier) : Bool :=
  match store.schedules.find? call.evidence.tokenId with
  | none => false
  | some schedule => target ≠ .tier0Universal ∧ (schedule.OverlayActive call.now ∨
      activeCoverage call.now store.schedules < policy.maxActiveCoverage)

/-- The new override; its interval must be positive. -/
def newOverlay (policy : CandidatePolicy) (expiresAt : Int) (tierEventId : Uuid) :
    Except RepositoryError CandidateCoverage :=
  if h : 0 < (policy.coverageInterval / 1000000).toNat then
    .ok ⟨expiresAt, (policy.coverageInterval / 1000000).toNat, tierEventId, h⟩
  else .error (.integrity "ck_poll_schedules_candidate_coverage")

def earlier (a : Option Int) (b : Int) : Int := a.elim b (min · b)

/-- The due time under an override; retired work never joins the ordinary queue. -/
def acceleratedDue (schedule : PollSchedule) (due : Int) : Option Int :=
  if schedule.coverageClass = some .retiredControl then none
  else some (earlier schedule.nextDueAt due)

/-- The schedule of a token after its transition. -/
def rescheduled (policy : CandidatePolicy) (now : Int) (target : CandidateTier)
    (coverageExpiresAt : Option Int) (tierEventId : Uuid) (schedule : PollSchedule) :
    Except RepositoryError PollSchedule :=
  if target = .tier0Universal then
    .ok { schedule with
      candidateCoverage := none
      coverageNextTransitionAt := some now
      updatedAt := now }
  else
    match coverageExpiresAt with
    | some expiresAt => do
      let overlay ← newOverlay policy expiresAt tierEventId
      return { schedule with
        candidateCoverage := some overlay
        coverageNextTransitionAt := some (earlier schedule.coverageNextTransitionAt expiresAt)
        nextDueAt := acceleratedDue schedule (now + seconds overlay.intervalSeconds)
        priority := min schedule.priority 1
        targetIntervalSeconds := some
          (min (schedule.targetIntervalSeconds.getD overlay.intervalSeconds)
            overlay.intervalSeconds)
        effectiveIntervalSeconds := some
          (min (schedule.effectiveIntervalSeconds.getD overlay.intervalSeconds)
            overlay.intervalSeconds)
        updatedAt := now }
    | none =>
      if ∃ overlay ∈ schedule.candidateCoverage, overlay.expiresAt ≤ now then
        .ok { schedule with
          candidateCoverage := none
          coverageNextTransitionAt := some now
          updatedAt := now }
      else .ok { schedule with updatedAt := now }

def auditedDecision (policy : CandidatePolicy) (decision : EvaluationDecision)
    (admitted : Bool) : EvaluationDecision :=
  { decision with
    detail := (decision.detail.set "candidate_coverage_admitted" (.flag admitted)).set
      "candidate_coverage_limit" (.number policy.maxActiveCoverage) }

/-- The candidate event of a transition to a tier above the universal one. -/
def persistNomination (ids : CandidateIdentities) (policy : CandidatePolicy)
    (call : EvaluationCall) (decision : EvaluationDecision) (target : CandidateTier)
    (table : Table CandidateEvent.id) :
    Except RepositoryError (Table CandidateEvent.id × Option CandidateEvent) :=
  if target = .tier0Universal then .ok (table, none)
  else do
    let stored ← persistCandidate (candidateValues ids call.collectionEpochId
      call.collectorRunId call.evidence decision policy) table
    return (stored.1, some stored.2)

/-- The projection after a transition. -/
def nextCurrentState (ids : CandidateIdentities) (policy : CandidatePolicy)
    (call : EvaluationCall) (current : Option CandidateCurrentState)
    (candidate : Option CandidateEvent) (transition : CandidateTierEvent)
    (target : CandidateTier) (coverageExpiresAt : Option Int) : CandidateCurrentState where
  collectionEpochId := call.collectionEpochId
  tokenId := call.evidence.tokenId
  tier := target
  latestCandidateId := (candidate.map (·.id)).or (current.bind (·.latestCandidateId))
  latestTierEventId := transition.id
  tierSince := call.now
  coverageExpiresAt := coverageExpiresAt
  nextEvaluationAt := coverageExpiresAt.getD (call.now + seconds 60)
  inputWatermark := call.evidence.watermark
  evidenceSha256 := ids.evidenceSha256 call.evidence
  policySha256 := ids.policySha256 policy
  updatedAt := call.now

def CandidateEvent.taskSource (candidate : CandidateEvent) : TaskSource where
  id := candidate.id
  tokenId := candidate.tokenId
  collectionEpochId := candidate.collectionEpochId
  inputWatermark := candidate.inputWatermark
  evidenceSha256 := candidate.evidenceSha256

/-- The tasks of a tier, created for the candidate event. -/
def createTasks (ids : CandidateIdentities) (call : EvaluationCall)
    (candidate : Option CandidateEvent) (target : CandidateTier) (table : TaskTable) :
    Except RepositoryError TaskTable :=
  match candidate with
  | none => .ok table
  | some candidate => (taskTypesFor target).foldlM (fun table analysisType =>
      createTask ids.task candidate.taskSource target analysisType call.taskMaxAttempts call.now
        table) table

/-- The schedule table after the transition of one of its tokens, if it has a schedule. -/
def rescheduleToken (policy : CandidatePolicy) (call : EvaluationCall) (target : CandidateTier)
    (coverageExpiresAt : Option Int) (tierEventId : Uuid) (table : ScheduleTable) :
    Except RepositoryError ScheduleTable :=
  match table.find? call.evidence.tokenId with
  | none => .ok table
  | some schedule => do
    let schedule' ← rescheduled policy call.now target coverageExpiresAt tierEventId schedule
    return table.write [schedule']

/-- Write a transition to a tier. -/
def writeTransition (ids : CandidateIdentities) (policy : CandidatePolicy)
    (store : CandidateStore) (call : EvaluationCall) (decision : EvaluationDecision)
    (target : CandidateTier) : Except RepositoryError (CandidateStore × CandidateTransitionResult) := do
  let current := currentOf store call
  let previous := previousTier current
  let admitted := coverageAdmitted policy store call target
  let audited := auditedDecision policy decision admitted
  let (candidateEvents, candidate) ←
    persistNomination ids policy call audited target store.candidateEvents
  let (tierEvents, transition) ← persistTierEvent (tierEventValues ids call.collectionEpochId
    call.collectorRunId (candidate.map (·.id)) previous target call.evidence audited policy
    call.now) store.tierEvents
  let coverageExpiresAt :=
    if target ≠ .tier0Universal ∧ admitted then audited.coverageUntil else none
  let state := nextCurrentState ids policy call current candidate transition target
    coverageExpiresAt
  let schedules ← rescheduleToken policy call target coverageExpiresAt transition.id
    store.schedules
  let tasks ← createTasks ids call candidate target store.tasks
  return ({ store with
    currentStates := (store.currentStates.insertNew state).write [state]
    schedules := schedules
    candidateEvents := candidateEvents
    tierEvents := tierEvents
    tasks := tasks },
    { candidateId := candidate.map (·.id)
      previousTier := previous
      currentTier := target
      changed := true
      coverageExpiresAt := coverageExpiresAt })

/-- `_persist_policy`. -/
def persistPolicy (ids : CandidateIdentities) (policy : CandidatePolicy)
    (store : CandidateStore) : CandidateStore :=
  { store with
    policies := store.policies.insertNew ⟨ids.policySha256 policy, candidateVersion, policy⟩ }

/-- `apply_evaluation`. -/
def applyEvaluation (ids : CandidateIdentities) (policy : CandidatePolicy)
    (store : CandidateStore) (call : EvaluationCall) :
    Except RepositoryError (CandidateStore × CandidateTransitionResult) :=
  match plannedTransition ids policy store call with
  | none => .ok (persistPolicy ids policy store, unchangedResult (currentOf store call))
  | some (decision, target) =>
    writeTransition ids policy (persistPolicy ids policy store) call decision target

/-! ### What an evaluation does to the schedules -/

/-- The end of the override that a call gives to its token. -/
def renewedUntil (policy : CandidatePolicy) (store : CandidateStore) (call : EvaluationCall)
    (decision : EvaluationDecision) (target : CandidateTier) : Option Int :=
  if target ≠ .tier0Universal ∧ coverageAdmitted policy store call target then
    decision.coverageUntil
  else none

/-- The schedules a transition may leave behind: without its override, with a renewed one, or
with the override it had. -/
inductive Rescheduled (now : Int) (expires : Option Int) (schedule : PollSchedule) :
    PollSchedule → Prop
  | cleared : Rescheduled now expires schedule { schedule with
      candidateCoverage := none
      coverageNextTransitionAt := some now
      updatedAt := now }
  | renewed (overlay : CandidateCoverage) (until_eq : expires = some overlay.expiresAt) :
      Rescheduled now expires schedule { schedule with
        candidateCoverage := some overlay
        coverageNextTransitionAt :=
          some (earlier schedule.coverageNextTransitionAt overlay.expiresAt)
        nextDueAt := acceleratedDue schedule (now + seconds overlay.intervalSeconds)
        priority := min schedule.priority 1
        targetIntervalSeconds := some
          (min (schedule.targetIntervalSeconds.getD overlay.intervalSeconds)
            overlay.intervalSeconds)
        effectiveIntervalSeconds := some
          (min (schedule.effectiveIntervalSeconds.getD overlay.intervalSeconds)
            overlay.intervalSeconds)
        updatedAt := now }
  | kept : Rescheduled now expires schedule { schedule with updatedAt := now }

theorem expiresAt_newOverlay {policy : CandidatePolicy} {expiresAt : Int} {tierEventId : Uuid}
    {overlay : CandidateCoverage} (h : newOverlay policy expiresAt tierEventId = .ok overlay) :
    overlay.expiresAt = expiresAt := by
  unfold newOverlay at h
  split at h
  · cases h
    rfl
  · cases h

theorem rescheduled_eq_ok {policy : CandidatePolicy} {now : Int} {target : CandidateTier}
    {expires : Option Int} {tierEventId : Uuid} {schedule schedule' : PollSchedule}
    (h : rescheduled policy now target expires tierEventId schedule = .ok schedule') :
    Rescheduled now expires schedule schedule' := by
  unfold rescheduled at h
  split at h
  · cases h
    exact .cleared
  · cases expires with
    | none =>
      dsimp only at h
      split at h
      · cases h
        exact .cleared
      · cases h
        exact .kept
    | some expiresAt =>
      simp only [bind_eq_ok, pure_eq_ok] at h
      obtain ⟨overlay, hoverlay, rfl⟩ := h
      cases expiresAt_newOverlay hoverlay
      exact .renewed overlay rfl

theorem Rescheduled.overlay {now : Int} {expires : Option Int} {schedule schedule' : PollSchedule}
    (h : Rescheduled now expires schedule schedule') :
    schedule'.tokenId = schedule.tokenId ∧
      (schedule'.candidateCoverage = none ∨
        schedule'.candidateCoverage = schedule.candidateCoverage ∨
        ∃ overlay, schedule'.candidateCoverage = some overlay ∧
          expires = some overlay.expiresAt) := by
  cases h with
  | cleared => exact ⟨rfl, .inl rfl⟩
  | renewed overlay until_eq => exact ⟨rfl, .inr (.inr ⟨overlay, rfl, until_eq⟩)⟩
  | kept => exact ⟨rfl, .inr (.inl rfl)⟩

/-- What a successful evaluation did to the schedule table. -/
inductive ScheduleEffect (ids : CandidateIdentities) (policy : CandidatePolicy)
    (store : CandidateStore) (call : EvaluationCall) : ScheduleTable → Prop
  | kept : ScheduleEffect ids policy store call store.schedules
  | rescheduled (decision : EvaluationDecision) (target : CandidateTier) (tierEventId : Uuid)
      (schedule schedule' : PollSchedule)
      (planned : plannedTransition ids policy store call = some (decision, target))
      (found : store.schedules.find? call.evidence.tokenId = some schedule)
      (written : rescheduled policy call.now target
        (renewedUntil policy store call decision target) tierEventId schedule = .ok schedule') :
      ScheduleEffect ids policy store call (store.schedules.write [schedule'])

theorem applyEvaluation_effect {ids : CandidateIdentities} {policy : CandidatePolicy}
    {store store' : CandidateStore} {call : EvaluationCall} {result : CandidateTransitionResult}
    (h : applyEvaluation ids policy store call = .ok (store', result)) :
    ScheduleEffect ids policy store call store'.schedules := by
  unfold applyEvaluation at h
  split at h
  · cases h
    exact .kept
  · next decision target hplan =>
    simp only [writeTransition, bind_eq_ok, pure_eq_ok] at h
    obtain ⟨events, _, tiers, _, schedules, hschedules, tasks, _, hresult⟩ := h
    cases hresult
    unfold rescheduleToken at hschedules
    cases hf : store.schedules.find? call.evidence.tokenId with
    | none =>
      simp only [persistPolicy, hf] at hschedules
      cases hschedules
      exact .kept
    | some schedule =>
      simp only [persistPolicy, hf, bind_eq_ok, pure_eq_ok] at hschedules
      obtain ⟨schedule', hs, rfl⟩ := hschedules
      exact .rescheduled decision target _ schedule schedule' hplan hf hs

end PumpResearch.Candidates
