import PumpResearch.Scheduling.Coverage

/-! Lifecycle changes and epoch starts: the two writers that place schedules outside of polls. -/
namespace PumpResearch.Scheduling
open KeyedOrder KeyedTable RelatedLists Results
variable {policy : AdaptivePollingPolicy}

/-! ### Epoch start -/

structure EpochRequest (policy : AdaptivePollingPolicy) where
  collectionEpochId : Uuid
  epochNumber : Int
  startedAt : Int
  cached : Option (CachedCapacity policy)

/-- The admission fact of a legacy schedule: its earliest NEW event. -/
def legacyAdmission (store : SchedulerStore) (tokenId : Uuid) : Option Int :=
  ((store.lifecycleEvents.filter fun event =>
    event.tokenId = tokenId ∧ event.newState = "NEW").map (·.inputWatermark)).min?

def admissionOf (store : SchedulerStore) (schedule : PollSchedule) : Option Int :=
  (schedule.coverage.map (·.admittedAt)).or (legacyAdmission store schedule.tokenId)

/-- The tokens of legacy schedules without an admission fact, as sorted texts. -/
def unresolvedTokens (digests : SchedulerDigests) (store : SchedulerStore) : List String :=
  sortOn id ((store.schedules.rows.filter fun schedule =>
    (admissionOf store schedule).isNone).map fun schedule => digests.uuidString schedule.tokenId)

def legacyMessage (tokens : List String) : String :=
  "legacy schedules lack an immutable NEW admission event: " ++
    String.intercalate ", " (tokens.take 10)

/-- The first pass over a schedule: mapped to its class, without due time or lease. -/
def mappedRow (digests : SchedulerDigests) (startedAt admittedAt : Int)
    (coverage : CoverageClass) (boundary : Option Int) (schedule : PollSchedule) : PollSchedule :=
  { schedule with
    coverage := some ⟨coverage, admittedAt, startedAt, digests.coverageSha256⟩
    coverageNextTransitionAt := boundary
    priority := priorityForCoverage coverage
    nextDueAt := none
    lease := none
    updatedAt := startedAt }

/-- A schedule before and after the first pass. -/
structure MappedSchedule where
  before : PollSchedule
  row : PollSchedule
  coverage : CoverageClass

def mapSchedule (scheduler : AdaptiveScheduler) (startedAt : Int) (store : SchedulerStore)
    (schedule : PollSchedule) : Except SchedulingError MappedSchedule :=
  match admissionOf store schedule with
  | none => .error (.coverageReconstruction (legacyMessage
      [scheduler.digests.uuidString schedule.tokenId]))
  | some admittedAt => do
    let coverage ← scheduler.policy.coverageClassFor schedule.lifecycleState admittedAt
      schedule.stateDecidedAt startedAt
    let boundary ← scheduler.policy.nextTransitionAt schedule.lifecycleState admittedAt
      schedule.stateDecidedAt startedAt
    return ⟨schedule, mappedRow scheduler.digests startedAt admittedAt coverage boundary schedule,
      coverage⟩

/-- A deterministic phase within the effective interval; retired work is not due. -/
def rebasedDue (scheduler : AdaptiveScheduler) (request : EpochRequest scheduler.policy)
    (capacity : CapacityDecision) (mapped : MappedSchedule) : Option Int :=
  if mapped.coverage = .retiredControl then none
  else
    some (request.startedAt + ((scheduler.digests.epochPhase request.collectionEpochId
      mapped.before.tokenId % (capacity.plan.effectiveIntervalSeconds mapped.coverage * 1000000) :
        Nat) : Int))

def rebasedRow (scheduler : AdaptiveScheduler) (request : EpochRequest scheduler.policy)
    (capacity : CapacityDecision) (mapped : MappedSchedule) : PollSchedule :=
  { mapped.row with
    nextDueAt := rebasedDue scheduler request capacity mapped
    capacityDecisionId := some capacity.id
    targetIntervalSeconds := some (capacity.plan.targetIntervalSeconds mapped.coverage)
    effectiveIntervalSeconds := some (capacity.plan.effectiveIntervalSeconds mapped.coverage)
    configurationSha256 := scheduler.digests.policySha256
    updatedAt := request.startedAt }

def rebaseReason (before : PollSchedule) : String :=
  if before.coverage.isNone then "epoch_start_legacy_reconstruction" else "epoch_start_rebase"

/-- The second pass: evidence of the rebase, then the due time. -/
def rebaseSchedule (scheduler : AdaptiveScheduler) (request : EpochRequest scheduler.policy)
    (capacity : CapacityDecision) (store : SchedulerStore) (mapped : MappedSchedule) :
    Except SchedulingError SchedulerStore := do
  let row := rebasedRow scheduler request capacity mapped
  let recorded ← recordCoverageDecision scheduler.digests
    { collectionEpochId := some request.collectionEpochId
      collectorRunId := none
      schedule := mapped.row
      previousCoverageClass := mapped.before.coverageClass
      decidedAt := request.startedAt
      coverageEffectiveAt := request.startedAt
      reasonCode := rebaseReason mapped.before
      capacityDecisionId := some capacity.id
      targetIntervalSeconds := row.targetIntervalSeconds
      effectiveIntervalSeconds := row.effectiveIntervalSeconds
      nextDueAt := row.nextDueAt
      context := .epoch request.epochNumber }
    store
  match recorded.scheduleDecisions.insert?
      { idempotencyKey := scheduler.digests.epochRebaseKey request.collectionEpochId
          mapped.before.tokenId
        collectionEpochId := some request.collectionEpochId
        tokenId := mapped.before.tokenId
        previousState := some mapped.before.lifecycleState
        newState := mapped.before.lifecycleState
        previousDueAt := mapped.before.nextDueAt
        newDueAt := row.nextDueAt
        decidedAt := request.startedAt
        reasonCode := rebaseReason mapped.before
        capacityDecisionId := some capacity.id
        targetIntervalSeconds := row.targetIntervalSeconds
        effectiveIntervalSeconds := row.effectiveIntervalSeconds
        configurationSha256 := scheduler.digests.policySha256 } with
  | none => throw (.integrity "uq_poll_schedule_decisions_idempotency_key")
  | some decisions => return { recorded with
      scheduleDecisions := decisions
      schedules := recorded.schedules.write [row] }

/-- `initialize_epoch_in_session`. -/
def initializeEpoch (scheduler : AdaptiveScheduler) (request : EpochRequest scheduler.policy)
    (store : SchedulerStore) : Except SchedulingError (SchedulerStore × Nat) := do
  let schedules := sortOn (·.tokenId) store.schedules.rows
  let unresolved := unresolvedTokens scheduler.digests store
  if unresolved ≠ [] then throw (.coverageReconstruction (legacyMessage unresolved))
  let mapped ← schedules.mapM (mapSchedule scheduler request.startedAt store)
  let flushed := { store with schedules := store.schedules.write (mapped.map (·.row)) }
  let decided ← capacityDecision scheduler request.startedAt request.cached flushed
  let rebased ← mapped.foldlM (rebaseSchedule scheduler request decided.2) decided.1
  return (rebased, schedules.length)

/-- A schedule after an epoch start. -/
inductive Rebased (scheduler : AdaptiveScheduler) (request : EpochRequest scheduler.policy)
    (store : SchedulerStore) (schedule : PollSchedule) : PollSchedule → Prop
  | mk (capacity : CapacityDecision) (admittedAt : Int) (coverage : CoverageClass)
      (boundary : Option Int)
      (classified : scheduler.policy.coverageClassFor schedule.lifecycleState admittedAt
        schedule.stateDecidedAt request.startedAt = .ok coverage)
      (bounded : scheduler.policy.nextTransitionAt schedule.lifecycleState admittedAt
        schedule.stateDecidedAt request.startedAt = .ok boundary)
      (admitted : admissionOf store schedule = some admittedAt) :
      Rebased scheduler request store schedule (rebasedRow scheduler request capacity
        ⟨schedule, mappedRow scheduler.digests request.startedAt admittedAt coverage boundary
          schedule, coverage⟩)

/-- What the first pass makes of a schedule. -/
theorem mapSchedule_eq_ok {scheduler : AdaptiveScheduler} {request : EpochRequest scheduler.policy}
    {store : SchedulerStore} {schedule : PollSchedule} {mapped : MappedSchedule}
    (h : mapSchedule scheduler request.startedAt store schedule = .ok mapped) :
    mapped.before = schedule ∧ ∀ capacity,
      Rebased scheduler request store schedule (rebasedRow scheduler request capacity mapped) ∧
        (rebasedRow scheduler request capacity mapped).tokenId = schedule.tokenId := by
  unfold mapSchedule at h
  cases ha : admissionOf store schedule with
  | none =>
    rw [ha] at h
    cases h
  | some admittedAt =>
    rw [ha] at h
    simp only [bind_eq_ok, pure_eq_ok] at h
    obtain ⟨coverage, hcoverage, boundary, hboundary, rfl⟩ := h
    exact ⟨rfl, fun capacity =>
      ⟨.mk capacity admittedAt coverage boundary hcoverage hboundary ha, rfl⟩⟩

theorem rebaseSchedule_eq_ok {scheduler : AdaptiveScheduler}
    {request : EpochRequest scheduler.policy} {capacity : CapacityDecision}
    {store store' : SchedulerStore} {mapped : MappedSchedule}
    (h : rebaseSchedule scheduler request capacity store mapped = .ok store') :
    ∃ evidence decisions, store' = { store with
      schedules := store.schedules.write [rebasedRow scheduler request capacity mapped]
      coverageDecisions := evidence
      scheduleDecisions := decisions } := by
  simp only [rebaseSchedule, bind_eq_ok] at h
  obtain ⟨recorded, hrecorded, h⟩ := h
  obtain ⟨evidence, rfl⟩ := recordCoverageDecision_eq_ok hrecorded
  split at h
  · cases h
  · rw [pure_eq_ok] at h
    exact ⟨evidence, _, h.symm⟩

theorem rebaseSchedules_eq_ok {scheduler : AdaptiveScheduler}
    {request : EpochRequest scheduler.policy} {capacity : CapacityDecision}
    {store store' : SchedulerStore} {mapped : List MappedSchedule}
    (h : mapped.foldlM (rebaseSchedule scheduler request capacity) store = .ok store') :
    ∃ rows evidence decisions,
      (∀ row ∈ rows, ∃ m ∈ mapped, row = rebasedRow scheduler request capacity m) ∧
      (∀ m ∈ mapped, rebasedRow scheduler request capacity m ∈ rows) ∧
      store' = { store with
        schedules := store.schedules.write rows
        coverageDecisions := evidence
        scheduleDecisions := decisions } := by
  refine foldlM_invariant (fun done mid => ∃ rows evidence decisions,
    (∀ row ∈ rows, ∃ m ∈ done, row = rebasedRow scheduler request capacity m) ∧
    (∀ m ∈ done, rebasedRow scheduler request capacity m ∈ rows) ∧
    mid = { store with
      schedules := store.schedules.write rows
      coverageDecisions := evidence
      scheduleDecisions := decisions }) ?_ h
    ⟨[], store.coverageDecisions, store.scheduleDecisions, by simp, by simp,
      by rw [Table.write_nil]⟩
  intro done m s s' hs hstep
  obtain ⟨rows, evidence, decisions, hrows, hall, rfl⟩ := hs
  obtain ⟨evidence', decisions', rfl⟩ := rebaseSchedule_eq_ok hstep
  refine ⟨rebasedRow scheduler request capacity m :: rows, evidence', decisions', ?_, ?_,
    by rw [Table.write_write]; rfl⟩
  · intro row hrow
    cases List.mem_cons.mp hrow with
    | inl heq => exact ⟨m, by simp, heq⟩
    | inr hmem =>
      obtain ⟨old, hold, heq⟩ := hrows row hmem
      exact ⟨old, List.mem_append_left _ hold, heq⟩
  · intro old hold
    cases List.mem_append.mp hold with
    | inl hmem => exact List.mem_cons_of_mem _ (hall old hmem)
    | inr hmem =>
      rw [List.mem_singleton] at hmem
      exact hmem ▸ List.mem_cons_self

/-- An epoch start rebases every schedule and touches no batch. -/
structure EpochStarted (scheduler : AdaptiveScheduler) (request : EpochRequest scheduler.policy)
    (store store' : SchedulerStore) : Prop where
  rebased : Table.Related (Rebased scheduler request store) store.schedules store'.schedules
  frame : store' = { store with
    schedules := store'.schedules
    capacityDecisions := store'.capacityDecisions
    coverageDecisions := store'.coverageDecisions
    scheduleDecisions := store'.scheduleDecisions }

theorem initializeEpoch_eq_ok {scheduler : AdaptiveScheduler}
    {request : EpochRequest scheduler.policy} {store store' : SchedulerStore} {count : Nat}
    (h : initializeEpoch scheduler request store = .ok (store', count)) :
    EpochStarted scheduler request store store' := by
  simp only [initializeEpoch, guard_eq_ok, bind_eq_ok, pure_eq_ok] at h
  obtain ⟨_, mapped, hmapped, ⟨decided, capacity⟩, hcapacity, rebased, hrebased, hresult⟩ := h
  cases hresult
  obtain ⟨⟨table, rfl⟩, _⟩ := capacityDecision_eq_ok hcapacity
  obtain ⟨rows, evidence, decisions, hrows, hall, rfl⟩ := rebaseSchedules_eq_ok hrebased
  have hpairs : List.Forall₂ (fun schedule m => MappedSchedule.before m = schedule ∧
      ∀ capacity,
        Rebased scheduler request store schedule (rebasedRow scheduler request capacity m) ∧
        (rebasedRow scheduler request capacity m).tokenId = schedule.tokenId)
      (sortOn (·.tokenId) store.schedules.rows) mapped :=
    (mapM_eq_ok.mp hmapped).imp fun _ _ hm => mapSchedule_eq_ok hm
  have hsource : ∀ m ∈ mapped, m.before ∈ store.schedules.rows ∧
      Rebased scheduler request store m.before (rebasedRow scheduler request capacity m) ∧
      (rebasedRow scheduler request capacity m).tokenId = m.before.tokenId := by
    intro m hm
    obtain ⟨schedule, hschedule, hrel⟩ := exists_related_left hpairs hm
    obtain ⟨rfl, hrebasedRow⟩ := hrel
    exact ⟨(mem_sortOn _ _ _).mp hschedule, hrebasedRow capacity⟩
  refine ⟨Table.related_write_write ?_ ?_, rfl⟩
  · intro schedule hschedule
    obtain ⟨m, hm, hrel⟩ := exists_related_right hpairs ((mem_sortOn _ _ _).mpr hschedule)
    exact ⟨_, hall m hm, by rw [(hsource m hm).2.2, hrel.1]⟩
  · intro row hrow schedule hschedule hkey
    obtain ⟨m, hm, rfl⟩ := hrows row hrow
    obtain ⟨hbefore, hrebasedRow, htoken⟩ := hsource m hm
    rw [store.schedules.eq_of_key_eq hschedule hbefore (hkey.trans htoken)]
    exact hrebasedRow

/-! ### Lifecycle changes -/

structure LifecycleRequest (policy : AdaptivePollingPolicy) where
  tokenId : Uuid
  state : LifecycleState
  decidedAt : Int
  reasonCode : String
  admittedAt : Option Int
  collectorRunId : Option Uuid
  cached : Option (CachedCapacity policy)

/-- A first schedule, not yet due. -/
def createdRow (scheduler : AdaptiveScheduler) (request : LifecycleRequest scheduler.policy)
    (admission : Int) (coverage : CoverageClass) (boundary : Option Int) : PollSchedule where
  tokenId := request.tokenId
  lifecycleState := request.state
  stateDecidedAt := request.decidedAt
  coverage := some ⟨coverage, admission, request.decidedAt, scheduler.digests.coverageSha256⟩
  coverageNextTransitionAt := boundary
  candidateCoverage := none
  priority := priorityForCoverage coverage
  nextDueAt := none
  lastDueAt := none
  lastStartedAt := none
  lastCompletedAt := none
  attemptCount := 0
  lastControlScanAt := none
  controlScanCount := 0
  lease := none
  capacityDecisionId := none
  targetIntervalSeconds := none
  effectiveIntervalSeconds := none
  configurationSha256 := scheduler.digests.policySha256
  updatedAt := request.decidedAt

/-- A schedule under a new state, with its due time still to be set. -/
def changedRow (scheduler : AdaptiveScheduler) (request : LifecycleRequest scheduler.policy)
    (admission : Int) (coverage : CoverageClass) (boundary : Option Int) (task : PollSchedule) :
    PollSchedule :=
  { task with
    lifecycleState := request.state
    stateDecidedAt := request.decidedAt
    coverage := some ⟨coverage, admission, request.decidedAt, scheduler.digests.coverageSha256⟩
    coverageNextTransitionAt := boundary
    priority := priorityForCoverage coverage
    nextDueAt := if coverage = .retiredControl then none else task.nextDueAt
    configurationSha256 := scheduler.digests.policySha256
    updatedAt := request.decidedAt }

/-- The flushed row of a change, for a first schedule or a stored one. -/
def flushedRow (scheduler : AdaptiveScheduler) (request : LifecycleRequest scheduler.policy)
    (admission : Int) (coverage : CoverageClass) (boundary : Option Int) :
    Option PollSchedule → PollSchedule
  | none => createdRow scheduler request admission coverage boundary
  | some task => changedRow scheduler request admission coverage boundary task

/-- The row after capacity is known. -/
def placedRow (request : LifecycleRequest policy) (capacity : CapacityDecision)
    (coverage : CoverageClass) (row : PollSchedule) : PollSchedule :=
  { row with
    nextDueAt :=
      if coverage = .retiredControl then none
      else some (request.decidedAt + seconds (capacity.plan.effectiveIntervalSeconds coverage))
    capacityDecisionId := some capacity.id
    targetIntervalSeconds := some (capacity.plan.targetIntervalSeconds coverage)
    effectiveIntervalSeconds := some (capacity.plan.effectiveIntervalSeconds coverage) }

/-- Write a first schedule or a changed state. -/
def applyLifecycle (scheduler : AdaptiveScheduler) (request : LifecycleRequest scheduler.policy)
    (admission : Int) (task : Option PollSchedule) (store : SchedulerStore) :
    Except SchedulingError (SchedulerStore × PollSchedule) := do
  let coverage ← scheduler.policy.coverageClassFor request.state admission request.decidedAt
    request.decidedAt
  let boundary ← scheduler.policy.nextTransitionAt request.state admission request.decidedAt
    request.decidedAt
  let row := flushedRow scheduler request admission coverage boundary task
  let flushed := { store with schedules := (store.schedules.insertNew row).write [row] }
  let decided ← capacityDecision scheduler request.decidedAt request.cached flushed
  let placed := placedRow request decided.2 coverage row
  let recorded ← recordCoverageDecision scheduler.digests
    { collectionEpochId := none
      collectorRunId := request.collectorRunId
      schedule := placed
      previousCoverageClass := task.bind (·.coverageClass)
      decidedAt := request.decidedAt
      coverageEffectiveAt := request.decidedAt
      reasonCode := request.reasonCode
      capacityDecisionId := some decided.2.id
      targetIntervalSeconds := placed.targetIntervalSeconds
      effectiveIntervalSeconds := placed.effectiveIntervalSeconds
      nextDueAt := placed.nextDueAt
      context := .lifecycle (task.map (·.lifecycleState)) request.state }
    { decided.1 with schedules := decided.1.schedules.write [placed] }
  let decision : PollScheduleDecision :=
    { idempotencyKey := scheduler.digests.scheduleDecisionKey request.tokenId request.state
        request.decidedAt request.reasonCode
      collectionEpochId := none
      tokenId := request.tokenId
      previousState := task.map (·.lifecycleState)
      newState := request.state
      previousDueAt := task.bind (·.nextDueAt)
      newDueAt := placed.nextDueAt
      decidedAt := request.decidedAt
      reasonCode := request.reasonCode
      capacityDecisionId := some decided.2.id
      targetIntervalSeconds := placed.targetIntervalSeconds
      effectiveIntervalSeconds := placed.effectiveIntervalSeconds
      configurationSha256 := scheduler.digests.policySha256 }
  return ({ recorded with scheduleDecisions := recorded.scheduleDecisions.insertNew decision },
    placed)

/-- The admission time of a first schedule. -/
def firstAdmission (request : LifecycleRequest policy) : Option Int :=
  request.admittedAt.or (if request.state = .new then some request.decidedAt else none)

/-- The state and the policies of a request are those already stored. -/
def SameState (scheduler : AdaptiveScheduler) (request : LifecycleRequest scheduler.policy)
    (projection : CoverageProjection) (task : PollSchedule) : Prop :=
  task.lifecycleState = request.state ∧
    task.configurationSha256 = scheduler.digests.policySha256 ∧
    projection.policySha256 = scheduler.digests.coverageSha256

instance decidableSameState (scheduler : AdaptiveScheduler)
    (request : LifecycleRequest scheduler.policy) (projection : CoverageProjection)
    (task : PollSchedule) : Decidable (SameState scheduler request projection task) :=
  inferInstanceAs (Decidable (_ ∧ _ ∧ _))

/-- `set_lifecycle_state_in_session`. -/
def setLifecycleState (scheduler : AdaptiveScheduler) (request : LifecycleRequest scheduler.policy)
    (store : SchedulerStore) : Except SchedulingError (SchedulerStore × PollSchedule) :=
  match store.tokens.find? request.tokenId with
  | none => .error .noResultFound
  | some _ =>
    match store.schedules.find? request.tokenId with
    | none =>
      match firstAdmission request with
      | none => .error (.coverageReconstruction
          "an initial non-NEW schedule requires an explicit DEX admission time")
      | some admission => applyLifecycle scheduler request admission none store
    | some task =>
      if request.decidedAt < task.stateDecidedAt then .ok (store, task)
      else if request.decidedAt = task.stateDecidedAt ∧ task.lifecycleState ≠ request.state then
        .error (.value "Conflicting lifecycle states cannot share the same decision timestamp")
      else
        match task.coverage with
        | none => .error (.coverageReconstruction
            "legacy coverage must be reconstructed at epoch start before scheduling")
        | some projection =>
          if SameState scheduler request projection task then do
            let refreshed ← refreshOneCoverage scheduler request.decidedAt
              "coverage_time_advanced" request.collectorRunId task store
            return (refreshed, (refreshed.schedules.find? request.tokenId).getD task)
          else applyLifecycle scheduler request projection.admittedAt (some task) store

/-- The row that a lifecycle change leaves, for a first schedule or a stored one. -/
inductive Placed (scheduler : AdaptiveScheduler) (request : LifecycleRequest scheduler.policy)
    (task : Option PollSchedule) : PollSchedule → Prop
  | mk (capacity : CapacityDecision) (admission : Int) (coverage : CoverageClass)
      (boundary : Option Int)
      (bounded : scheduler.policy.nextTransitionAt request.state admission request.decidedAt
        request.decidedAt = .ok boundary)
      (mapped : ∀ stored ∈ task, ∃ projection ∈ stored.coverage,
        projection.admittedAt = admission ∧ ¬ SameState scheduler request projection stored) :
      Placed scheduler request task (placedRow request capacity coverage
        (flushedRow scheduler request admission coverage boundary task))

/-- The effects of a lifecycle change: none, a refresh, or a placed schedule. -/
inductive LifecycleSet (scheduler : AdaptiveScheduler)
    (request : LifecycleRequest scheduler.policy) (store : SchedulerStore) :
    SchedulerStore → Prop
  | kept : LifecycleSet scheduler request store store
  | refreshed (task : PollSchedule) (rows : List PollSchedule)
      (evidence : Table CoverageDecision.id) (stored : task ∈ store.schedules.rows)
      (renewed : ∀ row ∈ rows, Refreshed scheduler request.decidedAt task row)
      (token : ∀ row ∈ rows, row.tokenId = task.tokenId) :
      LifecycleSet scheduler request store { store with
        schedules := store.schedules.write rows
        coverageDecisions := evidence }
  | placed (row flushed : PollSchedule) (capacityDecisions : Table SchedulerCapacityDecision.id)
      (evidence : Table CoverageDecision.id)
      (decisions : Table PollScheduleDecision.idempotencyKey)
      (current : ∀ task ∈ store.schedules.find? request.tokenId,
        task.stateDecidedAt ≤ request.decidedAt)
      (written : Placed scheduler request (store.schedules.find? request.tokenId) row)
      (token : row.tokenId = request.tokenId) (flushedToken : flushed.tokenId = request.tokenId) :
      LifecycleSet scheduler request store { store with
        schedules := (store.schedules.insertNew flushed).write [row]
        capacityDecisions := capacityDecisions
        coverageDecisions := evidence
        scheduleDecisions := decisions }

theorem token_flushedRow (scheduler : AdaptiveScheduler)
    (request : LifecycleRequest scheduler.policy) (admission : Int) (coverage : CoverageClass)
    (boundary : Option Int) {task : Option PollSchedule}
    (htask : ∀ stored ∈ task, stored.tokenId = request.tokenId) :
    (flushedRow scheduler request admission coverage boundary task).tokenId = request.tokenId := by
  cases task with
  | none => rfl
  | some stored => exact htask stored rfl

/-- A change that goes through leaves the placed schedule. -/
theorem applyLifecycle_placed {scheduler : AdaptiveScheduler}
    {request : LifecycleRequest scheduler.policy} {admission : Int} {store store' : SchedulerStore}
    {placed : PollSchedule}
    (hmapped : ∀ stored ∈ store.schedules.find? request.tokenId, ∃ projection ∈ stored.coverage,
      projection.admittedAt = admission ∧ ¬ SameState scheduler request projection stored)
    (h : applyLifecycle scheduler request admission (store.schedules.find? request.tokenId) store =
      .ok (store', placed)) :
    ∃ row flushed capacityDecisions evidence decisions,
      Placed scheduler request (store.schedules.find? request.tokenId) row ∧
      row.tokenId = request.tokenId ∧ flushed.tokenId = request.tokenId ∧
      store' = { store with
        schedules := (store.schedules.insertNew flushed).write [row]
        capacityDecisions := capacityDecisions
        coverageDecisions := evidence
        scheduleDecisions := decisions } := by
  simp only [applyLifecycle, bind_eq_ok, pure_eq_ok] at h
  obtain ⟨coverage, _, boundary, hboundary, ⟨decided, capacity⟩, hcapacity, recorded, hrecorded,
    hresult⟩ := h
  cases hresult
  obtain ⟨⟨table, rfl⟩, _⟩ := capacityDecision_eq_ok hcapacity
  obtain ⟨evidence, rfl⟩ := recordCoverageDecision_eq_ok hrecorded
  have htoken : (flushedRow scheduler request admission coverage boundary
      (store.schedules.find? request.tokenId)).tokenId = request.tokenId :=
    token_flushedRow scheduler request admission coverage boundary
      fun stored hstored => (Table.find?_eq_some_iff.mp hstored).2
  have hwrite (table : ScheduleTable) (flushed row : PollSchedule)
      (hrow : row.tokenId = flushed.tokenId) :
      (table.write [flushed]).write [row] = table.write [row] :=
    Table.write_write_of_covered fun old hold =>
      ⟨row, List.mem_singleton_self row, by rw [List.mem_singleton.mp hold, hrow]⟩
  dsimp only
  rw [hwrite]
  · exact ⟨_, _, table, evidence, _, .mk capacity admission coverage boundary hboundary hmapped,
      htoken, htoken, rfl⟩
  · rfl

theorem applyLifecycle_eq_ok {scheduler : AdaptiveScheduler}
    {request : LifecycleRequest scheduler.policy} {admission : Int} {store store' : SchedulerStore}
    {placed : PollSchedule}
    (hcurrent : ∀ stored ∈ store.schedules.find? request.tokenId,
      stored.stateDecidedAt ≤ request.decidedAt)
    (hmapped : ∀ stored ∈ store.schedules.find? request.tokenId, ∃ projection ∈ stored.coverage,
      projection.admittedAt = admission ∧ ¬ SameState scheduler request projection stored)
    (h : applyLifecycle scheduler request admission (store.schedules.find? request.tokenId) store =
      .ok (store', placed)) :
    LifecycleSet scheduler request store store' := by
  obtain ⟨row, flushed, capacityDecisions, evidence, decisions, hwritten, htoken, hflushed, rfl⟩ :=
    applyLifecycle_placed hmapped h
  exact .placed row flushed capacityDecisions evidence decisions hcurrent hwritten htoken hflushed

theorem setLifecycleState_eq_ok {scheduler : AdaptiveScheduler}
    {request : LifecycleRequest scheduler.policy} {store store' : SchedulerStore}
    {placed : PollSchedule} (h : setLifecycleState scheduler request store = .ok (store', placed)) :
    LifecycleSet scheduler request store store' := by
  unfold setLifecycleState at h
  split at h
  · cases h
  · split at h
    · next hnone =>
      split at h
      · cases h
      · next admission _ =>
        rw [← hnone] at h
        exact applyLifecycle_eq_ok (by simp [hnone]) (by simp [hnone]) h
    · next task hsome =>
      split at h
      · cases h
        exact .kept
      · next hlate =>
        split at h
        · cases h
        · split at h
          · cases h
          · next projection hprojection =>
            split at h
            · simp only [bind_eq_ok, pure_eq_ok] at h
              obtain ⟨refreshed, hrefreshed, hresult⟩ := h
              cases hresult
              obtain ⟨rows, evidence, hrows, htokens, rfl⟩ := refreshOneCoverage_eq_ok hrefreshed
              exact .refreshed task rows evidence (Table.find?_eq_some_iff.mp hsome).1 hrows htokens
            · next hstate =>
              rw [← hsome] at h
              refine applyLifecycle_eq_ok ?_ ?_ h
              · intro stored hstored
                cases hsome.symm.trans hstored
                exact not_lt.mp hlate
              · intro stored hstored
                cases hsome.symm.trans hstored
                exact ⟨projection, hprojection, rfl, hstate⟩

/-- A later change of a mapped schedule to another state, or under another configuration, places
its schedule. -/
theorem setLifecycleState_placed {scheduler : AdaptiveScheduler}
    {request : LifecycleRequest scheduler.policy} {store store' : SchedulerStore}
    {task placed : PollSchedule} {projection : CoverageProjection}
    (hfind : store.schedules.find? request.tokenId = some task)
    (hcurrent : task.stateDecidedAt ≤ request.decidedAt)
    (hprojection : task.coverage = some projection)
    (hstate : ¬ SameState scheduler request projection task)
    (h : setLifecycleState scheduler request store = .ok (store', placed)) :
    ∃ row, Placed scheduler request (some task) row ∧ row ∈ store'.schedules.rows := by
  unfold setLifecycleState at h
  rw [hfind] at h
  split at h
  · cases h
  · dsimp only at h
    rw [if_neg (not_lt.mpr hcurrent)] at h
    split at h
    · cases h
    · rw [hprojection] at h
      dsimp only at h
      rw [if_neg hstate, ← hfind] at h
      obtain ⟨row, flushed, _, _, _, hwritten, htoken, hflushed, rfl⟩ :=
        applyLifecycle_placed (by
          intro stored hstored
          cases hfind.symm.trans hstored
          exact ⟨projection, hprojection, rfl, hstate⟩) h
      rw [hfind] at hwritten
      have hsame : store.schedules.insertNew flushed = store.schedules :=
        Table.insertNew_eq_self (hflushed ▸ hfind)
      obtain ⟨hmem, hkey⟩ := Table.find?_eq_some_iff.mp hfind
      refine ⟨row, hwritten, ?_⟩
      rw [hsame]
      exact Table.mem_write_of_mem (by simp) (List.mem_singleton_self row) hmem
        (hkey.trans htoken.symm)

end PumpResearch.Scheduling
