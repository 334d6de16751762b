import PumpResearch.Collection.Epochs
import PumpResearch.Library.KeyedTable
import PumpResearch.Library.Runs

/-! The supervised process of a collector: a fixed number of component loops, the runtime that
waits for them or for a shutdown, and the end that it writes for its run. -/
namespace PumpResearch.Collection
open KeyedTable Runs

/-! ### Components -/

/-- The exception classes that the loops and the runtime tell apart. -/
inductive ErrorKind where
  | discoverySource
  | dexScreener
  | solanaRpc
  | degraded
  | brokenPipe
  | other
deriving DecidableEq

structure RaisedError where
  kind : ErrorKind
  typeName : String
  message : String

inductive LoopKind where
  /-- `_loop`, with the errors that it expects. -/
  | pipeline (expected : List ErrorKind)
  | heartbeat
  | storageTelemetry

structure LoopSpec where
  component : String
  kind : LoopKind

structure WorkerSettings where
  schedulerMaxInFlightBatches : Nat
  boosts : Bool
  security : Bool
  marketContext : Bool
  selectiveSecurity : Option Nat

/-- The tasks that `CollectorWorker.run` creates. -/
def workerLoops (settings : WorkerSettings) : List LoopSpec :=
  [⟨"discovery", .pipeline [.discoverySource]⟩, ⟨"dex_availability", .pipeline [.degraded]⟩] ++
    List.replicate settings.schedulerMaxInFlightBatches
      ⟨"scheduled_observation", .pipeline [.dexScreener, .degraded]⟩ ++
    [⟨"heartbeat", .heartbeat⟩, ⟨"storage_telemetry", .storageTelemetry⟩] ++
    (if settings.boosts then
      [⟨"boost_latest", .pipeline [.dexScreener]⟩, ⟨"boost_top", .pipeline [.dexScreener]⟩]
    else []) ++
    (if settings.security then [⟨"token_security", .pipeline [.solanaRpc]⟩] else []) ++
    (if settings.marketContext then [⟨"market_context", .pipeline []⟩] else []) ++
    match settings.selectiveSecurity with
    | none => []
    | some workers => List.replicate workers ⟨"selective_security_enrichment", .pipeline []⟩

/-- The components of `mark_stopped`. -/
def stoppedComponents (settings : WorkerSettings) : List String :=
  ["discovery", "dex_availability", "scheduled_observation", "heartbeat", "storage_telemetry"] ++
    (if settings.boosts then ["boost_latest", "boost_top"] else []) ++
    (if settings.security then ["token_security"] else []) ++
    (if settings.marketContext then ["market_context"] else []) ++
    (if settings.selectiveSecurity.isSome then ["selective_security_enrichment"] else [])

/-! ### Health -/

inductive HealthStatus where
  | healthy
  | degraded
  | failed
  | stopped
deriving DecidableEq

structure HealthRow where
  componentName : String
  collectorRunId : Uuid
  status : HealthStatus
  lastAttemptAt : Int
  lastSuccessAt : Option Int
  detail : Option (String × String)
  updatedAt : Int

/-- One call of `_record_component`. -/
structure HealthRecord where
  component : String
  status : HealthStatus
  attemptedAt : Int
  error : Option RaisedError

def errorDetail (error : RaisedError) : String × String :=
  (error.typeName, String.ofList (error.message.toList.take 1000))

/-- The row that a record leaves, after these successes. -/
def HealthRecord.row (record : HealthRecord) (runId : Uuid) (lastSuccessAt : Option Int) :
    HealthRow where
  componentName := record.component
  collectorRunId := runId
  status := record.status
  lastAttemptAt := record.attemptedAt
  lastSuccessAt := lastSuccessAt
  detail := record.error.map errorDetail
  updatedAt := record.attemptedAt

/-- `_record_component`: the row of the component, whoever wrote it before. A success stays. -/
def recordHealth (runId : Uuid) (rows : Table HealthRow.componentName) (record : HealthRecord) :
    Table HealthRow.componentName :=
  let lastSuccessAt := if record.status = .healthy then some record.attemptedAt
    else (rows.find? record.component).bind (·.lastSuccessAt)
  let row := record.row runId lastSuccessAt
  (rows.insertNew row).write [row]

/-! ### The process -/

inductive LoopPhase where
  | ready
  | running (attemptedAt : Int)
  | done
  | failed (error : RaisedError)
  | cancelled

structure WorkerLoop where
  spec : LoopSpec
  phase : LoopPhase

/-- What `pending_error` may be. A group has the errors of the failed loops. -/
inductive PendingError where
  | raised (error : RaisedError)
  | group (errors : List RaisedError)
  | stoppedUnexpectedly
  | cancelled

def PendingError.typeName : PendingError → String
  | .raised error => error.typeName
  | .group _ => "ExceptionGroup"
  | .stoppedUnexpectedly => "RuntimeError"
  | .cancelled => "CancelledError"

/-- `terminal_detail`. -/
structure TerminalDetail where
  reason : String
  errorType : Option String := none
  signal : Option String := none
  forcedCancelAfterGraceTimeout : Bool := false
  suppressedShutdownError : Option String := none

/-- How the wait for the worker stands. A cancellation that comes when the worker has already
ended hides what the worker returned. -/
inductive GraceWait where
  | awaiting
  | expired (late : Bool)
  | interrupted (late : Bool)

def GraceWait.late : GraceWait → Bool
  | .awaiting => false
  | .expired late => late
  | .interrupted late => late

inductive RuntimePhase where
  | starting
  | waiting
  | stopping (wait : GraceWait)
  | gathering
  | marking (now : Int) (remaining : List String)
  | finishing (raised : Option PendingError)
  | ended (raised : Option PendingError)

/-- The end of the run as it is stored. -/
structure RunEnd where
  status : RunStatus
  detail : TerminalDetail

/-- The runtime with its worker, the health of the components and the records that made it. -/
structure Supervision where
  launched : Bool
  loops : List WorkerLoop
  cancelling : Bool
  shutdown : Option String
  phase : RuntimePhase
  status : RunStatus
  detail : TerminalDetail
  health : Table HealthRow.componentName
  records : List HealthRecord
  runEnd : Option RunEnd

def LoopPhase.isEnded : LoopPhase → Bool
  | .ready => false
  | .running _ => false
  | .done => true
  | .failed _ => true
  | .cancelled => true

def LoopPhase.error? : LoopPhase → Option RaisedError
  | .failed error => some error
  | _ => none

namespace Supervision

/-- All tasks of the group have ended, so the worker has. -/
def workerDone (s : Supervision) : Bool := s.launched && s.loops.all (·.phase.isEnded)

/-- The errors of the task group. -/
def errors (s : Supervision) : List RaisedError := s.loops.filterMap (·.phase.error?)

def setLoop (s : Supervision) (i : Nat) (loop : WorkerLoop) (phase : LoopPhase) : Supervision :=
  { s with loops := s.loops.set i { loop with phase } }

/-- An error ends its loop, and the group cancels the others. -/
def failLoop (s : Supervision) (i : Nat) (loop : WorkerLoop) (error : RaisedError) : Supervision :=
  { s.setLoop i loop (.failed error) with cancelling := true }

def record (s : Supervision) (runId : Uuid) (record : HealthRecord) : Supervision :=
  { s with health := recordHealth runId s.health record, records := s.records ++ [record] }

/-- The terminal detail of a failure, and what is raised after the run is finished. -/
def fail (s : Supervision) (detail : TerminalDetail) (raised : PendingError) : Supervision :=
  { s with status := .failed, detail, phase := .finishing (some raised) }

end Supervision

/-- The status that a pass makes its loop record, and the error that ends the loop. -/
def passStatus (kind : LoopKind) : Option RaisedError → Option HealthStatus × Option RaisedError
  | none => (some .healthy, none)
  | some error =>
    match kind with
    | .pipeline expected =>
      if error.kind ∈ expected then (some .degraded, none) else (some .failed, some error)
    | .heartbeat => (none, some error)
    | .storageTelemetry => (some .degraded, none)

/-! ### Steps -/

inductive LoopAction where
  | begin (now : Int)
  /-- The pass ends, and its record commits or raises. -/
  | endPass (raised recordRaises : Option RaisedError)
  /-- The loop sees the shutdown. -/
  | leave
  /-- The loop gets the cancellation of its group. -/
  | cancel

inductive SuperviseAction where
  | loop (i : Nat) (action : LoopAction)
  | requestShutdown (reason : String)
  | markCollectionStarted (raised : Option RaisedError)
  /-- The wait for the worker or the shutdown is over. -/
  | wake
  | graceExpires
  /-- The wait for the worker is over. -/
  | workerEnds (now : Int)
  | gathered (now : Int)
  | markStopped (raised : Option RaisedError)
  | finish (raised : Option RaisedError)
  /-- The runtime itself is cancelled. -/
  | interrupt

section Steps
variable (settings : WorkerSettings) (runId : Uuid)

def loopStep (s : Supervision) (i : Nat) (loop : WorkerLoop) : LoopAction → Supervision
  | .begin now =>
    match loop.phase with
    | .ready =>
      if s.launched ∧ ¬ s.cancelling ∧ s.shutdown = none then s.setLoop i loop (.running now) else s
    | _ => s
  | .endPass raised recordRaises =>
    match loop.phase with
    | .running attemptedAt =>
      match passStatus loop.spec.kind raised with
      | (none, none) => s
      | (none, some error) => s.failLoop i loop error
      | (some status, error) =>
        match recordRaises with
        | some failure => s.failLoop i loop failure
        | none =>
          let s := s.record runId ⟨loop.spec.component, status, attemptedAt, raised⟩
          match error with
          | none => s.setLoop i loop .ready
          | some error => s.failLoop i loop error
    | _ => s
  | .leave =>
    match loop.phase with
    | .ready => if s.launched ∧ s.shutdown.isSome then s.setLoop i loop .done else s
    | _ => s
  | .cancel =>
    if s.cancelling ∧ ¬ loop.phase.isEnded then s.setLoop i loop .cancelled else s

/-- The first wait is over: the worker failed, or somebody asked for the shutdown. -/
def wake (s : Supervision) : Supervision :=
  match s.shutdown with
  | some signal =>
    { s with
      status := .stopped
      detail := { reason := "operator_requested_shutdown", signal := some signal }
      phase := .stopping .awaiting }
  | none =>
    if s.workerDone then
      if s.errors = [] then
        s.fail { reason := "collector_worker_stopped_unexpectedly" } .stoppedUnexpectedly
      else
        s.fail { reason := "collector_worker_failed", errorType := some "ExceptionGroup" }
          (.group s.errors)
    else s

/-- `mark_stopped` begins. -/
def beginMarking (s : Supervision) (now : Int) : Supervision :=
  { s with phase := .marking now (stoppedComponents settings) }

/-- An error of the worker during the shutdown. -/
def failStopping (s : Supervision) (raised : PendingError) : Supervision :=
  s.fail { reason := "collector_worker_failed_during_shutdown", errorType := some raised.typeName,
           signal := s.shutdown } raised

/-- What `wait_for` returns or raises. -/
def workerEnds (now : Int) (wait : GraceWait) (s : Supervision) : Supervision :=
  if wait.late ∨ s.errors = [] then
    match wait with
    | .awaiting => beginMarking settings s now
    | .expired _ =>
      { s with
        detail := { s.detail with forcedCancelAfterGraceTimeout := true }
        phase := .gathering }
    | .interrupted _ => failStopping s .cancelled
  else if s.errors.all (·.kind = .brokenPipe) then
    beginMarking settings
      { s with detail := { s.detail with suppressedShutdownError := some "BrokenPipeError" } } now
  else failStopping s (.group s.errors)

/-- The cancellation of the runtime, wherever it waits. -/
def interrupt (s : Supervision) : Supervision :=
  match s.phase with
  | .waiting =>
    { s with
      detail := { reason := "collector_runtime_supervision_failed",
                  errorType := some "CancelledError" }
      phase := .finishing (some .cancelled) }
  | .stopping wait =>
    { s with cancelling := true, phase := .stopping (.interrupted (wait.late || s.workerDone)) }
  | .gathering =>
    -- the status of the graceful stop is not taken back
    { s with
      detail := { reason := "collector_runtime_supervision_failed",
                  errorType := some "CancelledError" }
      phase := .finishing (some .cancelled) }
  | .marking _ _ =>
    s.fail { reason := "component_stop_persistence_failed", errorType := some "CancelledError",
             signal := s.shutdown } .cancelled
  | _ => s

def superviseStep (s : Supervision) : SuperviseAction → Supervision
  | .loop i action =>
    match s.loops[i]? with
    | none => s
    | some loop => loopStep runId s i loop action
  | .requestShutdown reason => { s with shutdown := some reason }
  | .markCollectionStarted raised =>
    match s.phase with
    | .starting =>
      match raised with
      | none => { s with launched := true, phase := .waiting }
      | some error =>
        s.fail { reason := "collection_start_boundary_persistence_failed",
                 errorType := some error.typeName } (.raised error)
    | _ => s
  | .wake =>
    match s.phase with
    | .waiting => wake s
    | _ => s
  | .graceExpires =>
    match s.phase with
    | .stopping .awaiting =>
      { s with cancelling := true, phase := .stopping (.expired s.workerDone) }
    | _ => s
  | .workerEnds now =>
    match s.phase with
    | .stopping wait => if s.workerDone then workerEnds settings now wait s else s
    | _ => s
  | .gathered now =>
    match s.phase with
    | .gathering => beginMarking settings s now
    | _ => s
  | .markStopped raised =>
    match s.phase with
    | .marking now (component :: rest) =>
      match raised with
      | none =>
        { s.record runId ⟨component, .stopped, now, none⟩ with
          phase := if rest = [] then .finishing none else .marking now rest }
      | some error =>
        s.fail { reason := "component_stop_persistence_failed", errorType := some error.typeName,
                 signal := s.shutdown } (.raised error)
    | _ => s
  | .finish raised =>
    match s.phase with
    | .finishing pending =>
      match raised with
      | none => { s with runEnd := some ⟨s.status, s.detail⟩, phase := .ended pending }
      | some error => { s with phase := .ended (some (.raised error)) }
    | _ => s
  | .interrupt => interrupt s

/-- A process that has inserted its run, over the health that earlier processes left. -/
def startSupervision (before : Table HealthRow.componentName) : Supervision where
  launched := false
  loops := (workerLoops settings).map fun spec => ⟨spec, .ready⟩
  cancelling := false
  shutdown := none
  phase := .starting
  status := .failed
  detail := { reason := "collector_runtime_terminated_during_supervision" }
  health := before
  records := []
  runEnd := none

end Steps
/-! ### What holds -/

/-- The last record of a component, after the row that was there. -/
def projectedHealth (runId : Uuid) (before : Table HealthRow.componentName)
    (records : List HealthRecord) (component : String) : Option HealthRow :=
  match (records.filter (·.component = component)).getLast? with
  | none => before.find? component
  | some record =>
    some (record.row runId
      ((((records.filter fun record => record.component = component ∧
        record.status = .healthy).getLast?).map (·.attemptedAt)).or
          ((before.find? component).bind (·.lastSuccessAt))))

namespace Supervision
variable (s : Supervision)

def AllEnded : Prop := ∀ loop ∈ s.loops, loop.phase.isEnded = true

/-- The loops that failed, failed on a closed pipe. -/
def OnlyBrokenPipes : Prop := ∀ error ∈ s.errors, error.kind = .brokenPipe

/-- A component is shown as stopped by this run. -/
def ShownStopped (runId : Uuid) (component : String) : Prop :=
  ∃ row ∈ s.health.rows, row.componentName = component ∧ row.status = .stopped ∧
    row.collectorRunId = runId

/-- A runtime that returns was asked to, and has stored that its run is stopped: all loops have
ended, their components are shown as stopped, and none of them failed on more than a closed pipe
unless it was cancelled for its delay. -/
structure Returned (runId : Uuid) : Prop where
  requested : s.shutdown.isSome = true
  stopped : ∃ runEnd ∈ s.runEnd, runEnd.status = .stopped ∧
    (runEnd.detail.forcedCancelAfterGraceTimeout = true ∨ s.OnlyBrokenPipes)
  ended : s.AllEnded
  shown : ∀ loop ∈ s.loops, s.ShownStopped runId loop.spec.component

/-- In any order of events: no loop begins before the start of the collection is stored; once the
end of the run is, no loop is active, unless the runtime itself was cancelled; a runtime that
returns has stopped everything; and the health is that of the records, in their order. -/
structure Supervised (runId : Uuid) (before : Table HealthRow.componentName) : Prop where
  unlaunched : s.launched = false → s.records = [] ∧ ∀ loop ∈ s.loops, loop.phase = .ready
  quiet : ∀ runEnd ∈ s.runEnd, s.launched = true →
    runEnd.detail.reason ≠ "collector_runtime_supervision_failed" → s.AllEnded
  requested : ∀ runEnd ∈ s.runEnd, runEnd.status = .stopped → s.shutdown.isSome = true
  explained : ∀ runEnd ∈ s.runEnd,
    runEnd.detail.reason ≠ "collector_worker_stopped_unexpectedly"
  returned : s.phase = .ended none → s.Returned runId
  health : ∀ component, s.health.find? component =
    projectedHealth runId before s.records component

end Supervision

/-! ### Health is that of the records -/

section Health
variable {runId : Uuid} {before rows : Table HealthRow.componentName} {records : List HealthRecord}

theorem recordHealth_find? (rows : Table HealthRow.componentName) (record : HealthRecord)
    (component : String) :
    (recordHealth runId rows record).find? component =
      if record.component = component then
        some (record.row runId (if record.status = .healthy then some record.attemptedAt
          else (rows.find? record.component).bind (·.lastSuccessAt)))
      else rows.find? component := by
  unfold recordHealth
  exact Table.find?_upsert rows _ component

/-- The successes of a component, the latest one first. -/
theorem projectedHealth_success (component : String) :
    (projectedHealth runId before records component).bind (·.lastSuccessAt) =
      (((records.filter fun record => record.component = component ∧
        record.status = .healthy).getLast?).map (·.attemptedAt)).or
          ((before.find? component).bind (·.lastSuccessAt)) := by
  unfold projectedHealth
  split
  · next hnone =>
    have hempty : records.filter (·.component = component) = [] :=
      List.getLast?_eq_none_iff.mp hnone
    have hsuccess : (records.filter fun record => record.component = component ∧
        record.status = .healthy) = [] := by
      rw [List.filter_eq_nil_iff] at hempty ⊢
      intro record hrecord hboth
      have hnamed := hempty record hrecord
      simp only [decide_eq_true_eq] at hboth hnamed
      exact hnamed hboth.1
    rw [hsuccess]
    rfl
  · rfl

/-- One record more. -/
theorem projectedHealth_concat (record : HealthRecord) (component : String)
    (h : ∀ component, rows.find? component = projectedHealth runId before records component) :
    (recordHealth runId rows record).find? component =
      projectedHealth runId before (records ++ [record]) component := by
  rw [recordHealth_find?]
  by_cases hsame : record.component = component
  · subst hsame
    rw [if_pos rfl, h, projectedHealth_success]
    have hlast : ((records ++ [record]).filter (·.component = record.component)).getLast? =
        some record := by
      rw [List.filter_append]
      simp
    rw [projectedHealth, hlast]
    dsimp only
    by_cases hhealthy : record.status = .healthy
    · have hsuccess : ((records ++ [record]).filter fun other =>
          other.component = record.component ∧ other.status = .healthy).getLast? =
          some record := by
        rw [List.filter_append]
        simp [hhealthy]
      rw [if_pos hhealthy, hsuccess]
      rfl
    · have hsuccess : ((records ++ [record]).filter fun other =>
          other.component = record.component ∧ other.status = .healthy) =
          records.filter fun other =>
            other.component = record.component ∧ other.status = .healthy := by
        rw [List.filter_append]
        simp [hhealthy]
      rw [if_neg hhealthy, hsuccess]
  · rw [if_neg hsame, h]
    unfold projectedHealth
    simp [List.filter_append, hsame]

end Health

/-! ### The loops -/

section Loops
variable {settings : WorkerSettings} {runId : Uuid} {s s' : Supervision} {i : Nat}
  {loop : WorkerLoop}

/-- A step of an active loop of a launched worker. Nothing of the runtime changes. -/
structure LoopChanged (runId : Uuid) (i : Nat) (loop : WorkerLoop) (s s' : Supervision) : Prop where
  launched : s.launched = true
  active : loop.phase.isEnded = false
  same : s' = { s with loops := s'.loops, cancelling := s'.cancelling, health := s'.health,
                       records := s'.records }
  loops : ∃ phase, s'.loops = s.loops.set i { loop with phase } ∧
    (phase = .done → s.shutdown.isSome = true) ∧ (phase = .cancelled → s.cancelling = true) ∧
    (s'.cancelling = s.cancelling ∨ s'.cancelling = true ∧ phase.error?.isSome = true)
  records : s'.health = s.health ∧ s'.records = s.records ∨
    ∃ record, s'.health = recordHealth runId s.health record ∧ s'.records = s.records ++ [record]

theorem loopChanged_setLoop (hlaunched : s.launched = true) (hactive : loop.phase.isEnded = false)
    {phase : LoopPhase} (hdone : phase = .done → s.shutdown.isSome = true)
    (hcancelled : phase = .cancelled → s.cancelling = true) :
    LoopChanged runId i loop s (s.setLoop i loop phase) :=
  ⟨hlaunched, hactive, rfl, ⟨phase, rfl, hdone, hcancelled, .inl rfl⟩, .inl ⟨rfl, rfl⟩⟩

theorem loopChanged_failLoop (hlaunched : s.launched = true) (hactive : loop.phase.isEnded = false)
    (error : RaisedError) : LoopChanged runId i loop s (s.failLoop i loop error) :=
  ⟨hlaunched, hactive, rfl, ⟨.failed error, rfl, fun h => (by cases h), fun h => (by cases h),
    .inr ⟨rfl, rfl⟩⟩, .inl ⟨rfl, rfl⟩⟩

theorem LoopChanged.record {record : HealthRecord}
    (h : LoopChanged runId i loop (s.record runId record) s')
    (hrecords : s'.health = (s.record runId record).health ∧
      s'.records = (s.record runId record).records) : LoopChanged runId i loop s s' := by
  refine ⟨h.launched, h.active, ?_, h.loops, .inr ⟨record, hrecords.1, hrecords.2⟩⟩
  have hsame := h.same
  exact hsame

/-- What a loop may do: nothing, or a step as an active loop. A loop that is active has been
launched, as loops that are not launched are ready. -/
theorem loopStep_cases (hready : s.launched = false → loop.phase = .ready ∧ s.cancelling = false)
    (action : LoopAction) :
    loopStep runId s i loop action = s ∨
      LoopChanged runId i loop s (loopStep runId s i loop action) := by
  cases action with
  | begin now =>
    unfold loopStep
    dsimp only
    split
    · next hphase =>
      split
      · next hopen =>
        exact .inr (loopChanged_setLoop hopen.1 (by rw [hphase]; rfl) (fun h => by cases h)
          fun h => by cases h)
      · exact .inl rfl
    · exact .inl rfl
  | endPass raised recordRaises =>
    unfold loopStep
    dsimp only
    split
    · next attemptedAt hphase =>
      have hactive : loop.phase.isEnded = false := by rw [hphase]; rfl
      have hlaunched : s.launched = true := by
        rw [← Bool.not_eq_false]
        intro hfalse
        have hnot := (hready hfalse).1
        rw [hphase] at hnot
        cases hnot
      split
      · exact .inl rfl
      · exact .inr (loopChanged_failLoop hlaunched hactive _)
      · split
        · exact .inr (loopChanged_failLoop hlaunched hactive _)
        · split
          · exact .inr ((loopChanged_setLoop (s := s.record runId _) hlaunched hactive
              (fun h => by cases h) fun h => by cases h).record ⟨rfl, rfl⟩)
          · exact .inr ((loopChanged_failLoop (s := s.record runId _) hlaunched hactive _).record
              ⟨rfl, rfl⟩)
    · exact .inl rfl
  | leave =>
    unfold loopStep
    dsimp only
    split
    · next hphase =>
      split
      · next hopen =>
        exact .inr (loopChanged_setLoop hopen.1 (by rw [hphase]; rfl) (fun _ => hopen.2)
          fun h => by cases h)
      · exact .inl rfl
    · exact .inl rfl
  | cancel =>
    unfold loopStep
    dsimp only
    split
    · next hopen =>
      have hactive : loop.phase.isEnded = false := by
        rw [← Bool.not_eq_true]
        exact hopen.2
      have hlaunched : s.launched = true := by
        rw [← Bool.not_eq_false]
        intro hfalse
        rw [(hready hfalse).2] at hopen
        cases hopen.1
      exact .inr (loopChanged_setLoop hlaunched hactive (fun h => by cases h) fun _ => hopen.1)
    · exact .inl rfl

end Loops

end PumpResearch.Collection
