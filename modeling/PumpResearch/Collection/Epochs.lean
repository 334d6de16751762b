import PumpResearch.Instants
import PumpResearch.Library.KeyedTable
import PumpResearch.Library.PythonText
import PumpResearch.Library.Results

/-! Collection epochs and collector runs as stored, and the transitions of an epoch. -/
namespace PumpResearch.Collection
open KeyedTable Results

/-! ### Rows -/

inductive EpochStatus where
  | planned
  | running
  | completed
  | aborted
  | invalid
deriving DecidableEq, Repr

/-- `_TERMINAL_STATUSES`. -/
def EpochStatus.Terminal (status : EpochStatus) : Prop :=
  status = .completed ∨ status = .aborted ∨ status = .invalid

instance EpochStatus.decidableTerminal : DecidablePred EpochStatus.Terminal := fun _ =>
  inferInstanceAs (Decidable (_ ∨ _ ∨ _))

structure CollectionEpoch where
  id : Uuid
  epochNumber : Int
  name : String
  purpose : String
  dataValid : Bool
  invalidReason : Option String
  configurationSha256 : String
  codeRevision : Option String
  createdAt : Int
deriving DecidableEq

/-- What an idempotency key of an epoch event spells. -/
inductive EpochEventKey where
  | transition (epochNumber : Int) (status : EpochStatus) (occurredAt : Int)
  | lost
deriving DecidableEq

structure CollectionEpochEvent where
  id : Uuid
  collectionEpochId : Uuid
  status : EpochStatus
  occurredAt : Int
  reason : String
  idempotencyKey : EpochEventKey
deriving DecidableEq

structure CollectionEpochCurrent where
  collectionEpochId : Uuid
  status : EpochStatus
  dataValid : Bool
  invalidReason : Option String
  startedAt : Option Int
  endedAt : Option Int
  latestEventId : Uuid
  updatedAt : Int
deriving DecidableEq

inductive RunStatus where
  | running
  | stopped
  | succeeded
  | failed
  | cancelled
deriving DecidableEq, Repr

def RunStatus.value : RunStatus → String
  | .running => "running"
  | .stopped => "stopped"
  | .succeeded => "succeeded"
  | .failed => "failed"
  | .cancelled => "cancelled"

/-- The health of one component of a run, with the detail its document shows. -/
structure ComponentHealth where
  collectorRunId : Uuid
  componentName : String
  status : String
  detail : Option String
  updatedAt : Int
deriving DecidableEq

/-- A failure document: plain fields, or one of the documents that recovery writes. -/
inductive FailureDetail where
  | fields (entries : List (String × String))
  | recovered (recoveredAt : Int)
  | reconciled (operatorReason : Utf8.Text) (reconciledAt : Int) (lastHeartbeatAt : Option Int)
      (previousComponentHealth : List ComponentHealth)
deriving DecidableEq

def FailureDetail.empty : FailureDetail := .fields []

/-- The `reason` of a document. -/
def FailureDetail.reason : FailureDetail → Option String
  | .fields entries => (entries.find? (·.1 = "reason")).map (·.2)
  | .recovered _ => some "process_terminated_without_finalization"
  | .reconciled _ _ _ _ => some "stale_run_reconciled_after_operator_shutdown"

structure CollectorRun where
  id : Uuid
  collectionEpochId : Uuid
  startedAt : Int
  collectionStartedAt : Option Int
  finishedAt : Option Int
  lastHeartbeatAt : Option Int
  status : RunStatus
  collectorVersion : String
  configurationSha256 : String
  failureDetail : Option FailureDetail
deriving DecidableEq

inductive RunEventType where
  | gracefulStop
  | failed
  | staleReconciled
deriving DecidableEq, Repr

/-- The terminal event of a run; its idempotency key spells the run. -/
structure CollectorRunEvent where
  collectorRunId : Uuid
  eventType : RunEventType
  occurredAt : Int
  reason : String
  detail : FailureDetail
deriving DecidableEq

structure CollectionStore where
  epochs : Table CollectionEpoch.id
  events : Table CollectionEpochEvent.idempotencyKey
  currents : Table CollectionEpochCurrent.collectionEpochId
  runs : Table CollectorRun.id
  runEvents : Table CollectorRunEvent.collectorRunId
  components : List ComponentHealth

inductive CollectionError where
  | epochNumberNotPositive
  | epochExists (epochNumber : Int)
  | epochMissing (epochNumber : Int)
  | epochInvalid (epochNumber : Int)
  | epochNotStartable (epochNumber : Int) (status : EpochStatus)
  | anotherEpochRunning
  | closeStatus
  | epochNotRunning (epochNumber : Int)
  | collectorStillRunning
  | runMissing (runId : Uuid)
  | runNotRunning (runId : Uuid) (status : RunStatus)
  | collectionStartedTooEarly
  | terminalStatusInvalid (status : RunStatus)
  | terminalConflict (runId : Uuid) (current refused : RunStatus)
  | reasonEmpty
  | reasonTooLong
  | epochHasNoRun (epochNumber : Int)
  | latestRunNotRunning (status : RunStatus)
  | heartbeatNotStale
  | epochInitializer
  | integrity (constraint : String)
deriving DecidableEq

/-! ### Transitions -/

structure EpochDeclaration where
  epochNumber : Int
  purpose : String
  name : Option String
  now : Int
  configurationSha256 : String
  codeRevision : Option String
  epochId : Uuid
  eventId : Uuid

/-- Append an event under a fresh id and key. -/
def addEpochEvent (event : CollectionEpochEvent) (store : CollectionStore) :
    Except CollectionError CollectionStore :=
  if store.events.rows.any (·.id = event.id) then .error (.integrity "collection_epoch_events_pkey")
  else
    match store.events.insert? event with
    | none => .error (.integrity "uq_collection_epoch_events_idempotency")
    | some events => .ok { store with events := events }

def declaredEpoch (request : EpochDeclaration) : CollectionEpoch where
  id := request.epochId
  epochNumber := request.epochNumber
  name := (request.name.filter (· ≠ "")).getD ("Epoch " ++ toString request.epochNumber)
  purpose := request.purpose
  dataValid := true
  invalidReason := none
  configurationSha256 := request.configurationSha256
  codeRevision := request.codeRevision
  createdAt := request.now

def plannedEvent (request : EpochDeclaration) : CollectionEpochEvent where
  id := request.eventId
  collectionEpochId := request.epochId
  status := .planned
  occurredAt := request.now
  reason := "epoch explicitly declared before collection"
  idempotencyKey := .transition request.epochNumber .planned request.now

def plannedCurrent (request : EpochDeclaration) : CollectionEpochCurrent where
  collectionEpochId := request.epochId
  status := .planned
  dataValid := true
  invalidReason := none
  startedAt := none
  endedAt := none
  latestEventId := request.eventId
  updatedAt := request.now

/-- `create_epoch`. -/
def createEpoch (request : EpochDeclaration) (store : CollectionStore) :
    Except CollectionError CollectionStore := do
  if request.epochNumber ≤ 0 then throw .epochNumberNotPositive
  if store.epochs.rows.any (·.epochNumber = request.epochNumber) then
    throw (.epochExists request.epochNumber)
  match store.epochs.insert? (declaredEpoch request) with
  | none => throw (.integrity "collection_epochs_pkey")
  | some epochs => do
    let planned ← addEpochEvent (plannedEvent request) { store with epochs := epochs }
    match planned.currents.insert? (plannedCurrent request) with
    | none => throw (.integrity "collection_epoch_current_pkey")
    | some currents => return { planned with currents := currents }

/-- `_locked_epoch`. -/
def lockedEpoch (epochNumber : Int) (store : CollectionStore) :
    Except CollectionError (CollectionEpoch × CollectionEpochCurrent) :=
  match store.epochs.rows.find? (·.epochNumber = epochNumber) with
  | none => .error (.epochMissing epochNumber)
  | some epoch =>
    match store.currents.find? epoch.id with
    | none => .error (.epochMissing epochNumber)
    | some current => .ok (epoch, current)

def runningEvent (epoch : CollectionEpoch) (now : Int) (eventId : Uuid) :
    CollectionEpochEvent where
  id := eventId
  collectionEpochId := epoch.id
  status := .running
  occurredAt := now
  reason := "first collector run started"
  idempotencyKey := .transition epoch.epochNumber .running now

def runningCurrent (current : CollectionEpochCurrent) (now : Int) (eventId : Uuid) :
    CollectionEpochCurrent :=
  { current with
    status := .running
    startedAt := some now
    latestEventId := eventId
    updatedAt := now }

/-- `start_epoch_with_result`: the epoch, and whether it started now. -/
def startEpoch (epochNumber now : Int) (eventId : Uuid) (store : CollectionStore) :
    Except CollectionError (CollectionStore × CollectionEpoch × Bool) := do
  let (epoch, current) ← lockedEpoch epochNumber store
  if ¬ current.dataValid then throw (.epochInvalid epochNumber)
  if current.status = .running then return (store, epoch, false)
  else
    if current.status ≠ .planned then throw (.epochNotStartable epochNumber current.status)
    if store.currents.rows.any fun other =>
        other.status = .running ∧ other.collectionEpochId ≠ epoch.id then
      throw .anotherEpochRunning
    let started ← addEpochEvent (runningEvent epoch now eventId) store
    return ({ started with
      currents := started.currents.write [runningCurrent current now eventId] }, epoch, true)

structure EpochClosing where
  epochNumber : Int
  status : EpochStatus
  reason : String
  now : Int
  eventId : Uuid

def closingEvent (request : EpochClosing) (epoch : CollectionEpoch) : CollectionEpochEvent where
  id := request.eventId
  collectionEpochId := epoch.id
  status := request.status
  occurredAt := request.now
  reason := request.reason
  idempotencyKey := .transition epoch.epochNumber request.status request.now

def closedCurrent (request : EpochClosing) (current : CollectionEpochCurrent) :
    CollectionEpochCurrent :=
  { current with
    status := request.status
    dataValid := request.status ≠ .invalid
    invalidReason := if request.status = .invalid then some request.reason else none
    endedAt := some request.now
    latestEventId := request.eventId
    updatedAt := request.now }

/-- `close_epoch`. -/
def closeEpoch (request : EpochClosing) (store : CollectionStore) :
    Except CollectionError CollectionStore := do
  if ¬ request.status.Terminal then throw .closeStatus
  let (epoch, current) ← lockedEpoch request.epochNumber store
  if current.status ≠ .running then throw (.epochNotRunning request.epochNumber)
  if store.runs.rows.any fun run =>
      run.collectionEpochId = epoch.id ∧ run.status = .running then
    throw .collectorStillRunning
  let closed ← addEpochEvent (closingEvent request epoch) store
  return { closed with currents := closed.currents.write [closedCurrent request current] }

/-! ### What the transitions change -/

section Effects
variable {store store' : CollectionStore}

theorem addEpochEvent_eq_ok {event : CollectionEpochEvent}
    (h : addEpochEvent event store = .ok store') :
    ∃ events : Table CollectionEpochEvent.idempotencyKey,
      events.rows = store.events.rows ++ [event] ∧ store' = { store with events := events } := by
  unfold addEpochEvent at h
  split at h
  · cases h
  · cases hevents : store.events.insert? event with
    | none =>
      rw [hevents] at h
      cases h
    | some events =>
      rw [hevents] at h
      cases h
      exact ⟨events, (Table.insert?_eq_some hevents).2, rfl⟩

theorem lockedEpoch_eq_ok {epochNumber : Int} {epoch : CollectionEpoch}
    {current : CollectionEpochCurrent}
    (h : lockedEpoch epochNumber store = .ok (epoch, current)) :
    epoch ∈ store.epochs.rows ∧ store.currents.find? epoch.id = some current := by
  unfold lockedEpoch at h
  split at h
  · cases h
  · next found hfound =>
    cases hcurrent : store.currents.find? found.id with
    | none =>
      rw [hcurrent] at h
      cases h
    | some stored =>
      rw [hcurrent] at h
      cases h
      exact ⟨List.mem_of_find?_eq_some hfound, hcurrent⟩

/-- A declared epoch with its first event and its projection. -/
structure EpochCreated (request : EpochDeclaration) (store store' : CollectionStore) : Prop where
  unused : store.epochs.find? request.epochId = none
  epochs : store'.epochs.rows = store.epochs.rows ++ [declaredEpoch request]
  events : store'.events.rows = store.events.rows ++ [plannedEvent request]
  currents : store'.currents.rows = store.currents.rows ++ [plannedCurrent request]
  runs : store'.runs = store.runs
  runEvents : store'.runEvents = store.runEvents

theorem createEpoch_eq_ok {request : EpochDeclaration}
    (h : createEpoch request store = .ok store') : EpochCreated request store store' := by
  simp only [createEpoch, guard_eq_ok] at h
  obtain ⟨_, _, h⟩ := h
  cases hepochs : store.epochs.insert? (declaredEpoch request) with
  | none =>
    rw [hepochs] at h
    cases h
  | some epochs =>
    rw [hepochs] at h
    dsimp only at h
    rw [bind_eq_ok] at h
    obtain ⟨planned, hplanned, h⟩ := h
    obtain ⟨events, hevents, rfl⟩ := addEpochEvent_eq_ok hplanned
    cases hcurrents : store.currents.insert? (plannedCurrent request) with
    | none =>
      rw [hcurrents] at h
      cases h
    | some currents =>
      rw [hcurrents] at h
      cases h
      obtain ⟨hunused, hrows⟩ := Table.insert?_eq_some hepochs
      exact ⟨hunused, hrows, hevents, (Table.insert?_eq_some hcurrents).2, rfl, rfl⟩

/-- An epoch under a further event, which its projection shows. -/
structure EpochAdvanced (epoch : CollectionEpoch) (before after : CollectionEpochCurrent)
    (event : CollectionEpochEvent) (store store' : CollectionStore) : Prop where
  declared : epoch ∈ store.epochs.rows
  current : store.currents.find? epoch.id = some before
  events : store'.events.rows = store.events.rows ++ [event]
  currents : store'.currents = store.currents.write [after]
  owner : event.collectionEpochId = epoch.id
  key : after.collectionEpochId = before.collectionEpochId
  epochs : store'.epochs = store.epochs
  runs : store'.runs = store.runs
  runEvents : store'.runEvents = store.runEvents

theorem startEpoch_eq_ok {epochNumber now : Int} {eventId : Uuid} {epoch : CollectionEpoch}
    {startedNow : Bool} (h : startEpoch epochNumber now eventId store =
      .ok (store', epoch, startedNow)) :
    ∃ current, (store' = store ∧ epoch ∈ store.epochs.rows ∧
        store.currents.find? epoch.id = some current ∧ current.status = .running) ∨
      (current.status = .planned ∧ current.dataValid ∧
        (∀ other ∈ store.currents.rows, other.status = .running →
          other.collectionEpochId = epoch.id) ∧
        EpochAdvanced epoch current (runningCurrent current now eventId)
          (runningEvent epoch now eventId) store store') := by
  simp only [startEpoch, bind_eq_ok, guard_eq_ok] at h
  obtain ⟨⟨found, current⟩, hlocked, hvalid, h⟩ := h
  obtain ⟨hepoch, hcurrent⟩ := lockedEpoch_eq_ok hlocked
  refine ⟨current, ?_⟩
  split at h
  · next hrunning =>
    cases h
    exact .inl ⟨rfl, hepoch, hcurrent, hrunning⟩
  · rw [guard_eq_ok, guard_eq_ok, bind_eq_ok] at h
    obtain ⟨hplanned, hother, started, hstarted, hresult⟩ := h
    cases hresult
    obtain ⟨events, hevents, rfl⟩ := addEpochEvent_eq_ok hstarted
    refine .inr ⟨not_not.mp hplanned, by simpa using hvalid, ?_, ?_⟩
    · intro other hmem hrunning
      by_contra hne
      exact hother (List.any_eq_true.mpr ⟨other, hmem, by simpa using ⟨hrunning, hne⟩⟩)
    · exact ⟨hepoch, hcurrent, hevents, rfl, rfl, rfl, rfl, rfl, rfl⟩

theorem closeEpoch_eq_ok {request : EpochClosing} (h : closeEpoch request store = .ok store') :
    request.status.Terminal ∧ ∃ epoch current, current.status = .running ∧
      (∀ run ∈ store.runs.rows, run.status = .running → run.collectionEpochId ≠ epoch.id) ∧
      EpochAdvanced epoch current (closedCurrent request current) (closingEvent request epoch)
        store store' := by
  simp only [closeEpoch, guard_eq_ok, bind_eq_ok] at h
  obtain ⟨hterminal, ⟨epoch, current⟩, hlocked, hrunning, hruns, closed, hclosed, hresult⟩ := h
  cases hresult
  obtain ⟨hepoch, hcurrent⟩ := lockedEpoch_eq_ok hlocked
  obtain ⟨events, hevents, rfl⟩ := addEpochEvent_eq_ok hclosed
  refine ⟨not_not.mp hterminal, epoch, current, not_not.mp hrunning, ?_, ?_⟩
  · intro run hmem hstatus hepochId
    exact hruns (List.any_eq_true.mpr ⟨run, hmem, by simpa using ⟨hepochId, hstatus⟩⟩)
  · exact ⟨hepoch, hcurrent, hevents, rfl, rfl, rfl, rfl, rfl, rfl⟩

end Effects

end PumpResearch.Collection
