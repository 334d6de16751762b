import PumpResearch.Library.Runs
import PumpResearch.Lifecycle.Classifier

/-! What one evaluation does to a token: nothing but a stored selection, or one event and the
schedule that follows it. -/
namespace PumpResearch.Lifecycle
open KeyedTable Results Runs
open Scheduling (AdaptiveScheduler LifecycleRequest LifecycleState Placed PollSchedule
  SchedulerStore applyLifecycle applyLifecycle_placed setLifecycleState)

/-! ### Runs of the classifier -/

/-- The two ways into the classifier, with the facts stored at the time of the call. -/
inductive Call (classifier : LifecycleClassifier) where
  | request (facts : ResponseFacts) (apiRequestLogId : Uuid)
      (reads : Uuid → TokenReads classifier)
  | observation (facts : ResponseFacts) (observationId : Uuid) (receivedAt : Int)
      (reads : TokenReads classifier)

def execute (classifier : LifecycleClassifier) (store : ClassifierStore) :
    Call classifier → Except ClassifierError ClassifierStore
  | .request facts apiRequestLogId reads =>
    (evaluateRequest classifier facts apiRequestLogId reads store).map (·.1)
  | .observation facts observationId receivedAt reads =>
    (evaluateObservation classifier facts observationId receivedAt reads store).map (·.1)

/-- One transaction; a call that raises is rolled back. -/
def classifierStep (classifier : LifecycleClassifier) (store : ClassifierStore)
    (call : Call classifier) : ClassifierStore :=
  (execute classifier store call).toOption.getD store

/-- The candidates of a token that a call may look at. -/
def Call.candidates {classifier : LifecycleClassifier} (tokenId : Uuid) :
    Call classifier → List LifecycleEvidenceCandidate
  | .request facts apiRequestLogId _ => candidatesOf facts apiRequestLogId tokenId
  | .observation facts observationId receivedAt _ =>
    (facts.observations.filter fun observation => observation.id = observationId ∧
      observation.receivedAt = receivedAt).flatMap fun observation =>
        candidatesOf facts observation.apiRequestLogId tokenId

/-! ### What the scheduler does with a new state -/

section Scheduler
variable {scheduler : AdaptiveScheduler} {request : LifecycleRequest scheduler.policy}
  {store store' : SchedulerStore} {placed : PollSchedule}

/-- The schedule of a token after a change of its state. -/
def Enters (request : LifecycleRequest scheduler.policy) (store store' : SchedulerStore) : Prop :=
  ∃ row : PollSchedule, row.lifecycleState = request.state ∧
    row.stateDecidedAt = request.decidedAt ∧
    ∀ token, store'.schedules.find? token =
      if request.tokenId = token then some row else store.schedules.find? token

theorem applyLifecycle_enters {admission : Int}
    (hmapped : ∀ stored ∈ store.schedules.find? request.tokenId, ∃ projection ∈ stored.coverage,
      projection.admittedAt = admission ∧
        ¬ Scheduling.SameState scheduler request projection stored)
    (h : applyLifecycle scheduler request admission (store.schedules.find? request.tokenId) store =
      .ok (store', placed)) : Enters request store store' := by
  obtain ⟨row, flushed, _, _, _, hwritten, htoken, hflushed, rfl⟩ := applyLifecycle_placed hmapped h
  have hfind (token : Uuid) :
      ((store.schedules.insertNew flushed).write [row]).find? token =
        if request.tokenId = token then some row else store.schedules.find? token := by
    rw [Table.find?_insertNew_write store.schedules (hflushed.trans htoken.symm), htoken]
  cases hwritten with
  | mk capacity _ coverage boundary bounded mapped =>
    refine ⟨_, ?_, ?_, hfind⟩
    · cases store.schedules.find? request.tokenId <;> rfl
    · cases store.schedules.find? request.tokenId <;> rfl

/-- A decision not behind the stored one that names another state is strictly later. -/
theorem setLifecycleState_enters {task : PollSchedule}
    (hfind : store.schedules.find? request.tokenId = some task)
    (hcurrent : task.stateDecidedAt ≤ request.decidedAt)
    (hstate : task.lifecycleState ≠ request.state)
    (h : setLifecycleState scheduler request store = .ok (store', placed)) :
    task.stateDecidedAt < request.decidedAt ∧ Enters request store store' := by
  unfold setLifecycleState at h
  rw [hfind] at h
  split at h
  · cases h
  · dsimp only at h
    rw [if_neg (not_lt.mpr hcurrent)] at h
    split at h
    · cases h
    · next hconflict =>
      have hne : request.decidedAt ≠ task.stateDecidedAt := fun heq => hconflict ⟨heq, hstate⟩
      refine ⟨lt_of_le_of_ne hcurrent hne.symm, ?_⟩
      cases hprojection : task.coverage with
      | none =>
        rw [hprojection] at h
        cases h
      | some projection =>
        have hother : ¬ Scheduling.SameState scheduler request projection task :=
          fun same => hstate same.1
        rw [hprojection] at h
        dsimp only at h
        rw [if_neg hother, ← hfind] at h
        refine applyLifecycle_enters ?_ h
        intro stored hstored
        cases hfind.symm.trans hstored
        exact ⟨projection, hprojection, rfl, hother⟩

/-- A first state. -/
theorem setLifecycleState_first (hfind : store.schedules.find? request.tokenId = none)
    (h : setLifecycleState scheduler request store = .ok (store', placed)) :
    Enters request store store' := by
  unfold setLifecycleState at h
  rw [hfind] at h
  split at h
  · cases h
  · dsimp only at h
    split at h
    · cases h
    · rw [← hfind] at h
      exact applyLifecycle_enters (by simp [hfind]) h

end Scheduler

/-! ### What an evaluation does to a token -/

section Effects
variable {classifier : LifecycleClassifier} {store store' : ClassifierStore} {tokenId : Uuid}

/-- An event of a token that took a rule, and the schedule behind it. -/
structure Moved (classifier : LifecycleClassifier) (tokenId : Uuid)
    (candidates : List LifecycleEvidenceCandidate) (store store' : ClassifierStore)
    (schedule : PollSchedule) (rule : LifecycleTransitionRule) (event : LifecycleEvent) :
    Prop where
  stored : store.scheduler.schedules.find? tokenId = some schedule
  source : schedule.lifecycleState = rule.source
  fresh : ∃ candidate ∈ candidates, schedule.stateDecidedAt ≤ candidate.observationReceivedAt
  later : schedule.stateDecidedAt < event.decidedAt
  token : event.tokenId = tokenId
  key : ∃ evaluationId, event.idempotencyKey =
    classifier.digests.transitionKey tokenId evaluationId rule classifier.policySha256
  previous : event.previousState = some rule.source.value
  next : event.newState = rule.target.value
  derived : event.lifecycleEvidenceEvaluationId.isSome
  recorded : (∃ old, store.events.find? event.idempotencyKey = some old ∧
      store'.events = store.events) ∨
    (store.events.find? event.idempotencyKey = none ∧
      store'.events = store.events.insertNew event)
  schedules : ∃ row : PollSchedule, row.lifecycleState = rule.target ∧
    row.stateDecidedAt = event.decidedAt ∧ ∀ token, store'.scheduler.schedules.find? token =
      if tokenId = token then some row else store.scheduler.schedules.find? token

/-- An evaluation of a token writes nothing but the selection, or it moves the token. -/
inductive TokenEffect (classifier : LifecycleClassifier) (tokenId : Uuid)
    (candidates : List LifecycleEvidenceCandidate) (store store' : ClassifierStore) : Prop
  | kept (events : store'.events = store.events)
      (schedules : store'.scheduler.schedules = store.scheduler.schedules)
  | moved (schedule : PollSchedule) (rule : LifecycleTransitionRule) (event : LifecycleEvent)
      (change : Moved classifier tokenId candidates store store' schedule rule event)

theorem recordEvent_eq_ok {event stored : LifecycleEvent}
    (h : recordEvent event store = .ok (store', stored)) :
    ((∃ old, store.events.find? event.idempotencyKey = some old ∧ store'.events = store.events) ∨
      (store.events.find? event.idempotencyKey = none ∧
        store'.events = store.events.insertNew event)) ∧
      store'.scheduler.schedules = store.scheduler.schedules := by
  unfold recordEvent at h
  cases hfind : store.events.find? event.idempotencyKey with
  | some old =>
    rw [hfind] at h
    cases h
    exact ⟨.inl ⟨_, rfl, rfl⟩, rfl⟩
  | none =>
    rw [hfind] at h
    dsimp only at h
    split at h
    · cases h
    · cases h
      exact ⟨.inr ⟨rfl, rfl⟩, rfl⟩

theorem applyTransition_moved {reads : TokenReads classifier} {collectorRunId : Option Uuid}
    {apiRequestLogId : Uuid} {selected : LifecycleEvidenceCandidate}
    {candidates : List LifecycleEvidenceCandidate} {evaluated : LifecycleEvidenceEvaluation}
    {evaluation : TransitionEvaluation} {outcome : TokenEvaluation} {schedule : PollSchedule}
    (hfind : store.scheduler.schedules.find? tokenId = some schedule)
    (hselected : selected ∈ candidates)
    (hcurrent : schedule.stateDecidedAt ≤ selected.observationReceivedAt)
    (hrule : classifier.policy.evaluate schedule.lifecycleState
      (evidenceOf apiRequestLogId selected) = some evaluation)
    (h : applyTransition classifier reads tokenId collectorRunId
      (evidenceOf apiRequestLogId selected) evaluated evaluation store = .ok (store', outcome)) :
    ∃ event, Moved classifier tokenId candidates store store' schedule evaluation.rule event := by
  obtain ⟨hprevious, hsource, htarget⟩ := LifecyclePolicy.evaluate_eq_some hrule
  simp only [applyTransition, guard_eq_ok, bind_eq_ok, pure_eq_ok] at h
  obtain ⟨hclock, ⟨recorded, stored⟩, hrecorded, ⟨scheduled, placed⟩, hscheduled, hresult⟩ := h
  have hnow : selected.observationReceivedAt ≤ reads.now := not_lt.mp hclock
  cases hresult
  obtain ⟨hevents, hschedules⟩ := recordEvent_eq_ok hrecorded
  have hchange : schedule.lifecycleState ≠ evaluation.newState := by
    rw [htarget, ← hsource]
    cases evaluation.rule <;> decide
  rw [mapError_eq_ok] at hscheduled
  obtain ⟨hlater, row, hstate, hdecided, hrows⟩ := setLifecycleState_enters
    (hschedules ▸ hfind) (hcurrent.trans hnow) hchange hscheduled
  exact ⟨_, {
    stored := hfind
    source := hsource.symm
    fresh := ⟨selected, hselected, hcurrent⟩
    later := hlater
    token := rfl
    key := ⟨evaluated.id, rfl⟩
    previous := by simp only [transitionEvent, hprevious, hsource]
    next := by simp only [transitionEvent, htarget]
    derived := rfl
    recorded := hevents
    schedules := ⟨row, hstate.trans htarget, hdecided, by simpa only [hschedules] using hrows⟩ }⟩

theorem evaluateTokenRequest_effect {facts : ResponseFacts} {apiRequestLogId : Uuid}
    {reads : TokenReads classifier} {outcome : TokenEvaluation}
    (h : evaluateTokenRequest classifier facts tokenId apiRequestLogId reads store =
      .ok (store', outcome)) :
    TokenEffect classifier tokenId (candidatesOf facts apiRequestLogId tokenId) store store' := by
  simp only [evaluateTokenRequest] at h
  split at h
  · cases h
  · rw [bind_eq_ok] at h
    obtain ⟨⟨evaluations, evaluated⟩, _, h⟩ := h
    split at h
    · cases h
      exact .kept rfl rfl
    · next selected hselected =>
      split at h
      · cases h
        exact .kept rfl rfl
      · next schedule hschedule =>
        split at h
        · cases h
          exact .kept rfl rfl
        · next hfresh =>
          split at h
          · cases h
            exact .kept rfl rfl
          · next evaluation hrule =>
            have hfind : (ClassifierStore.mk store.scheduler evaluations store.events
                store.conflicts).scheduler.schedules.find? tokenId = some schedule := hschedule
            obtain ⟨event, hmoved⟩ := applyTransition_moved hfind
              (mem_of_selectEvidence hselected) (not_lt.mp hfresh) hrule h
            exact .moved schedule evaluation.rule event { hmoved with }
  · cases h

end Effects

end PumpResearch.Lifecycle
