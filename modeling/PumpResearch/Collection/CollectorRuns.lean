import PumpResearch.Collection.Epochs
import PumpResearch.Library.KeyedOrder

/-! Collector runs: their live boundary, their end, and the two recoveries of a dead process. -/
namespace PumpResearch.Collection
open KeyedOrder KeyedTable Results

/-! ### One run -/

def boundedRun (run : CollectorRun) (collectionStartedAt : Int) : CollectorRun :=
  { run with collectionStartedAt := some collectionStartedAt }

/-- `mark_collection_started`: the stored boundary is never replaced. -/
def markCollectionStarted (runId : Uuid) (collectionStartedAt : Int) (store : CollectionStore) :
    Except CollectionError (CollectionStore × Int) :=
  match store.runs.find? runId with
  | none => .error (.runMissing runId)
  | some run =>
    match run.collectionStartedAt with
    | some boundary => .ok (store, boundary)
    | none =>
      if run.status ≠ .running then .error (.runNotRunning runId run.status)
      else if collectionStartedAt < run.startedAt then .error .collectionStartedTooEarly
      else .ok ({ store with runs := store.runs.write [boundedRun run collectionStartedAt] },
        collectionStartedAt)

structure RunFinish where
  runId : Uuid
  finishedAt : Int
  status : RunStatus
  failureDetail : Option FailureDetail
  eventType : Option RunEventType

def RunFinish.resolvedEventType (request : RunFinish) : RunEventType :=
  request.eventType.getD (if request.status = .failed then .failed else .gracefulStop)

def RunFinish.detail (request : RunFinish) : FailureDetail :=
  request.failureDetail.getD .empty

def RunFinish.reason (request : RunFinish) : String :=
  request.detail.reason.getD request.status.value

def finishedRun (request : RunFinish) (run : CollectorRun) : CollectorRun :=
  { run with
    finishedAt := some request.finishedAt
    status := request.status
    failureDetail := request.failureDetail }

def terminalEvent (request : RunFinish) : CollectorRunEvent where
  collectorRunId := request.runId
  eventType := request.resolvedEventType
  occurredAt := request.finishedAt
  reason := request.reason
  detail := request.detail

/-- The stored end of a run says what a repeated request says. -/
def SameEnd (request : RunFinish) (run : CollectorRun) (existing : Option CollectorRunEvent) :
    Prop :=
  run.status = request.status ∧ run.failureDetail = request.failureDetail ∧
    ∃ event ∈ existing, event.eventType = request.resolvedEventType ∧
      event.reason = request.reason ∧ event.detail = request.detail

instance decidableSameEnd (request : RunFinish) (run : CollectorRun)
    (existing : Option CollectorRunEvent) : Decidable (SameEnd request run existing) :=
  inferInstanceAs (Decidable (_ ∧ _ ∧ ∃ event ∈ existing, _))

/-- `CollectorRunRepository.finish`. -/
def finish (request : RunFinish) (store : CollectionStore) :
    Except CollectionError CollectionStore :=
  if request.status = .running then .error (.terminalStatusInvalid request.status)
  else
    match store.runs.find? request.runId with
    | none => .error (.runMissing request.runId)
    | some run =>
      if run.status ≠ .running then
        if SameEnd request run (store.runEvents.find? request.runId) then .ok store
        else .error (.terminalConflict request.runId run.status request.status)
      else
        match store.runEvents.insert? (terminalEvent request) with
        | none => .error (.integrity "uq_collector_run_events_idempotency")
        | some runEvents => .ok { store with
            runs := store.runs.write [finishedRun request run]
            runEvents := runEvents }

/-- `_heartbeat_loop`: one beat, of any run that exists. -/
def heartbeat (runId : Uuid) (now : Int) (store : CollectionStore) : CollectionStore :=
  match store.runs.find? runId with
  | none => store
  | some run => { store with
      runs := store.runs.write [{ run with lastHeartbeatAt := some now }] }

/-! ### A new process -/

structure CollectorStart where
  epochNumber : Int
  startedAt : Int
  collectorVersion : String
  configurationSha256 : String
  eventId : Uuid
  runId : Uuid
  /-- The injected initializer raises. -/
  initializerRaises : Bool

def startedRun (request : CollectorStart) (epoch : CollectionEpoch) : CollectorRun where
  id := request.runId
  collectionEpochId := epoch.id
  startedAt := request.startedAt
  collectionStartedAt := none
  finishedAt := none
  lastHeartbeatAt := none
  status := .running
  collectorVersion := request.collectorVersion
  configurationSha256 := request.configurationSha256
  failureDetail := none

/-- The end that a new process writes for an abandoned run: its own start. -/
def abandonedFinish (startedAt : Int) (run : CollectorRun) : RunFinish where
  runId := run.id
  finishedAt := startedAt
  status := .failed
  failureDetail := some (.recovered startedAt)
  eventType := none

/-- `CollectorRuntime.start`. -/
def startCollector (request : CollectorStart) (store : CollectionStore) :
    Except CollectionError (CollectionStore × CollectorRun) := do
  let (started, epoch, startedNow) ←
    startEpoch request.epochNumber request.startedAt request.eventId store
  if startedNow ∧ request.initializerRaises then throw .epochInitializer
  let abandoned := started.runs.rows.filter (·.status = .running)
  let recovered ← abandoned.foldlM
    (fun s run => finish (abandonedFinish request.startedAt run) s) started
  match recovered.runs.insert? (startedRun request epoch) with
  | none => throw (.integrity "collector_runs_pkey")
  | some runs => return ({ recovered with runs := runs }, startedRun request epoch)

/-! ### Operator recovery -/

structure Reconciliation where
  epochNumber : Int
  reason : Utf8.Text
  now : Int
  /-- `collector_heartbeat_seconds`, in microseconds. -/
  heartbeatPeriod : Int

structure ReconciliationResult where
  epochNumber : Int
  collectorRunId : Uuid
  previousStatus : RunStatus
  status : RunStatus
  lastHeartbeatAt : Option Int
  reconciledAt : Int
  reason : Utf8.Text ⊕ String
  alreadyReconciled : Bool

def staleFinish (request : Reconciliation) (run : CollectorRun)
    (components : List ComponentHealth) : RunFinish where
  runId := run.id
  finishedAt := request.now
  status := .stopped
  failureDetail := some (.reconciled (PythonText.strip request.reason) request.now
    run.lastHeartbeatAt components)
  eventType := some .staleReconciled

/-- The operator's reason as a document shows it. -/
def operatorReason (event : CollectorRunEvent) : Utf8.Text ⊕ String :=
  match event.detail with
  | .reconciled reason _ _ _ => .inl reason
  | .recovered _ => .inr event.reason
  | .fields entries => .inr (((entries.find? (·.1 = "operator_reason")).map (·.2)).getD event.reason)

def stoppedComponent (request : Reconciliation) (component : ComponentHealth) : ComponentHealth :=
  { component with
    status := "stopped"
    detail := some ("stale_run_reconciled_after_operator_shutdown; previous_status: " ++
      component.status)
    updatedAt := request.now }

/-- The heartbeat of a run is too old for a live process. -/
def HeartbeatStale (request : Reconciliation) (run : CollectorRun) : Prop :=
  max 30000000 (3 * request.heartbeatPeriod) <
    request.now - run.lastHeartbeatAt.getD run.startedAt

instance decidableHeartbeatStale (request : Reconciliation) (run : CollectorRun) :
    Decidable (HeartbeatStale request run) := inferInstanceAs (Decidable (_ < _))

/-- `reconcile_stale_collector_run`, under the process lock. -/
def reconcileStaleRun (request : Reconciliation) (store : CollectionStore) :
    Except CollectionError (CollectionStore × ReconciliationResult) := do
  let reason := PythonText.strip request.reason
  if reason = [] then throw .reasonEmpty
  if 1500 < reason.length then throw .reasonTooLong
  let (epoch, current) ← lockedEpoch request.epochNumber store
  if current.status ≠ .running then throw (.epochNotRunning request.epochNumber)
  match firstMax (·.startedAt) (store.runs.rows.filter (·.collectionEpochId = epoch.id)) with
  | none => throw (.epochHasNoRun request.epochNumber)
  | some run =>
    match (store.runEvents.find? run.id).filter (·.eventType = .staleReconciled), run.status with
    | some event, .stopped => return (store, ⟨request.epochNumber, run.id, .running, run.status,
        run.lastHeartbeatAt, event.occurredAt, operatorReason event, true⟩)
    | _, status =>
      if status ≠ .running then throw (.latestRunNotRunning status)
      else if ¬ HeartbeatStale request run then throw .heartbeatNotStale
      else do
        let components := store.components.filter (·.collectorRunId = run.id)
        let finished ← finish (staleFinish request run components) store
        return ({ finished with components := finished.components.map fun component =>
            if component.collectorRunId = run.id then stoppedComponent request component
            else component },
          ⟨request.epochNumber, run.id, .running, .stopped, run.lastHeartbeatAt, request.now,
            .inl reason, false⟩)

/-! ### What a run goes through -/

section Effects
variable {store store' : CollectionStore}

/-- The tables of epochs are the same. -/
structure SameEpochs (store store' : CollectionStore) : Prop where
  epochs : store'.epochs = store.epochs
  events : store'.events = store.events
  currents : store'.currents = store.currents

/-- A running run is finished, under its one terminal event. -/
structure RunFinished (request : RunFinish) (run : CollectorRun) (store store' : CollectionStore) :
    Prop where
  found : store.runs.find? request.runId = some run
  running : run.status = .running
  terminal : request.status ≠ .running
  unused : store.runEvents.find? request.runId = none
  runs : store'.runs = store.runs.write [finishedRun request run]
  runEvents : store'.runEvents.rows = store.runEvents.rows ++ [terminalEvent request]
  epochs : SameEpochs store store'

theorem finish_eq_ok {request : RunFinish} (h : finish request store = .ok store') :
    ∃ run, (store' = store ∧ store.runs.find? request.runId = some run ∧ run.status ≠ .running ∧
        SameEnd request run (store.runEvents.find? request.runId)) ∨
      RunFinished request run store store' := by
  unfold finish at h
  split at h
  · cases h
  · next hterminal =>
    cases hfind : store.runs.find? request.runId with
    | none =>
      rw [hfind] at h
      cases h
    | some run =>
      rw [hfind] at h
      dsimp only at h
      refine ⟨run, ?_⟩
      split at h
      · next hended =>
        split at h
        · next hsame =>
          cases h
          exact .inl ⟨rfl, rfl, hended, hsame⟩
        · cases h
      · next hrunning =>
        cases hevents : store.runEvents.insert? (terminalEvent request) with
        | none =>
          rw [hevents] at h
          cases h
        | some runEvents =>
          rw [hevents] at h
          cases h
          obtain ⟨hunused, hrows⟩ := Table.insert?_eq_some hevents
          exact .inr ⟨hfind, not_not.mp hrunning, hterminal, hunused, rfl, hrows, rfl, rfl, rfl⟩

/-- A run keeps what identifies it and how it ended. -/
structure RunTouched (run run' : CollectorRun) (store store' : CollectionStore) : Prop where
  found : store.runs.find? run.id = some run
  id : run'.id = run.id
  epoch : run'.collectionEpochId = run.collectionEpochId
  status : run'.status = run.status
  finishedAt : run'.finishedAt = run.finishedAt
  failureDetail : run'.failureDetail = run.failureDetail
  boundary : run.collectionStartedAt.isSome → run'.collectionStartedAt = run.collectionStartedAt
  runs : store'.runs = store.runs.write [run']
  runEvents : store'.runEvents = store.runEvents
  epochs : SameEpochs store store'

theorem markCollectionStarted_eq_ok {runId : Uuid} {collectionStartedAt boundary : Int}
    (h : markCollectionStarted runId collectionStartedAt store = .ok (store', boundary)) :
    ∃ run, (store' = store ∧ store.runs.find? runId = some run ∧
        run.collectionStartedAt = some boundary) ∨
      (store.runs.find? runId = some run ∧ boundary = collectionStartedAt ∧
        run.collectionStartedAt = none ∧ run.status = .running ∧
        RunTouched run (boundedRun run collectionStartedAt) store store') := by
  unfold markCollectionStarted at h
  cases hfind : store.runs.find? runId with
  | none =>
    rw [hfind] at h
    cases h
  | some run =>
    rw [hfind] at h
    dsimp only at h
    refine ⟨run, ?_⟩
    split at h
    · next hstored =>
      cases h
      exact .inl ⟨rfl, rfl, hstored⟩
    · next hnone =>
      split at h
      · cases h
      · next hrunning =>
        split at h
        · cases h
        · cases h
          have hid := (Table.find?_eq_some_iff.mp hfind).2
          refine .inr ⟨rfl, rfl, hnone, not_not.mp hrunning, ?_⟩
          exact ⟨hid ▸ hfind, rfl, rfl, rfl, rfl, rfl, by simp [hnone], rfl, rfl, rfl, rfl, rfl⟩

theorem heartbeat_cases (runId : Uuid) (now : Int) (store : CollectionStore) :
    heartbeat runId now store = store ∨ ∃ run, RunTouched run
      { run with lastHeartbeatAt := some now } store (heartbeat runId now store) := by
  unfold heartbeat
  cases hfind : store.runs.find? runId with
  | none => exact .inl rfl
  | some run =>
    have hid := (Table.find?_eq_some_iff.mp hfind).2
    exact .inr ⟨run, hid ▸ hfind, rfl, rfl, rfl, rfl, rfl, fun _ => rfl, rfl, rfl, rfl, rfl, rfl⟩

/-- A run joins a running epoch, when no other run is running. -/
structure RunInserted (run : CollectorRun) (store store' : CollectionStore) : Prop where
  unused : store.runs.find? run.id = none
  running : run.status = .running
  alone : ∀ other ∈ store.runs.rows, other.status ≠ .running
  epoch : ∃ current, store.currents.find? run.collectionEpochId = some current ∧
    current.status = .running
  runs : store'.runs.rows = store.runs.rows ++ [run]
  runEvents : store'.runEvents = store.runEvents
  epochs : SameEpochs store store'

end Effects

end PumpResearch.Collection
