import PumpResearch.Candidates.CoverageCap
import PumpResearch.Library.Runs
import PumpResearch.Scheduling.Completion
import PumpResearch.Scheduling.Epochs

/-! The scheduler as a system. A call reads the clock when it starts and commits later, in any
order; a transaction that raises is rolled back. -/
namespace PumpResearch.Scheduling
open Candidates KeyedTable Results

/-- One deployment: the scheduler and the candidate rules that share its schedules. -/
structure Deployment where
  scheduler : AdaptiveScheduler
  identities : CandidateIdentities
  candidatePolicy : CandidatePolicy

/-- The transactions that write poll schedules, with what each brings along. -/
inductive Call (d : Deployment) where
  | claimNextBatch (collectorRunId : Option Uuid)
      (cached : Option (CachedCapacity d.scheduler.policy)) (locked : List Uuid) (batchId : Uuid)
  | completeBatch (batchId : Uuid) (outcome : PollOutcome) (apiRequestLogId : Option Uuid)
      (failureDetail : Option String)
  | initializeEpoch (request : EpochRequest d.scheduler.policy)
  | setLifecycleState (request : LifecycleRequest d.scheduler.policy)
  | applyEvaluation (call : EvaluationCall)

/-- The stored tables, the clock, and the calls in progress, each with the clock it read. The
schedules of the candidate tables are those of the store. -/
structure SchedulerSystem (d : Deployment) where
  clock : Int
  waiting : List (Int × Call d)
  store : SchedulerStore
  candidates : CandidateStore

inductive SystemAction (d : Deployment) where
  | tick (elapsed : Nat)
  | start (call : Call d)
  /-- The call at a position gets its locks, runs, and commits or is rolled back. -/
  | commit (position : Nat)

variable {d : Deployment}

/-- The request of a claim that read the clock at an instant. -/
def claimRequest (now : Int) (collectorRunId : Option Uuid)
    (cached : Option (CachedCapacity d.scheduler.policy)) (locked : List Uuid) (batchId : Uuid) :
    PollClaimRequest d.scheduler.policy :=
  ⟨now, collectorRunId, cached, locked, batchId⟩

/-- The candidate tables over the schedules of a store. -/
def candidatesOver (candidates : CandidateStore) (store : SchedulerStore) : CandidateStore :=
  { candidates with schedules := store.schedules }

/-- The store and the candidate tables after a call. -/
def execute (now : Int) (call : Call d) (store : SchedulerStore) (candidates : CandidateStore) :
    SchedulerStore × CandidateStore :=
  match call with
  | .claimNextBatch collectorRunId cached locked batchId =>
    match claimNextBatch d.scheduler (claimRequest now collectorRunId cached locked batchId)
        store with
    | .ok (store', _) => (store', candidates)
    | .error _ => (store, candidates)
  | .completeBatch batchId outcome apiRequestLogId failureDetail =>
    match completeBatch d.scheduler ⟨now, batchId, outcome, apiRequestLogId, failureDetail⟩
        store with
    | .ok (store', _) => (store', candidates)
    | .error _ => (store, candidates)
  | .initializeEpoch request =>
    match initializeEpoch d.scheduler request store with
    | .ok (store', _) => (store', candidates)
    | .error _ => (store, candidates)
  | .setLifecycleState request =>
    match setLifecycleState d.scheduler request store with
    | .ok (store', _) => (store', candidates)
    | .error _ => (store, candidates)
  | .applyEvaluation call =>
    match applyEvaluation d.identities d.candidatePolicy (candidatesOver candidates store) call with
    | .ok (candidates', _) => ({ store with schedules := candidates'.schedules }, candidates')
    | .error _ => (store, candidates)

def systemStep (s : SchedulerSystem d) : SystemAction d → SchedulerSystem d
  | .tick elapsed => { s with clock := s.clock + elapsed }
  | .start call => { s with waiting := s.waiting ++ [(s.clock, call)] }
  | .commit position =>
    match s.waiting[position]? with
    | none => s
    | some (now, call) =>
      { s with
        waiting := s.waiting.eraseIdx position
        store := (execute now call s.store s.candidates).1
        candidates := (execute now call s.store s.candidates).2 }

/-- What a committed call did to the store. -/
inductive Effect (candidates : CandidateStore) (store : SchedulerStore) (now : Int) :
    Call d → SchedulerStore → Prop
  | kept (call : Call d) : Effect candidates store now call store
  | prepared (collectorRunId : Option Uuid) (cached : Option (CachedCapacity d.scheduler.policy))
      (locked : List Uuid) (batchId : Uuid) (mid : SchedulerStore)
      (prepare : Prepared d.scheduler now store mid) :
      Effect candidates store now (.claimNextBatch collectorRunId cached locked batchId) mid
  | granted (collectorRunId : Option Uuid) (cached : Option (CachedCapacity d.scheduler.policy))
      (locked : List Uuid) (batchId : Uuid) (mid store' : SchedulerStore) (batch : PollBatch)
      (capacity : CapacityDecision) (members : List GrantedMember)
      (prepare : Prepared d.scheduler now store mid)
      (room : HasBatchCapacity d.scheduler.policy (scheduledRequests d.scheduler.policy) mid now)
      (grant : Granted d.scheduler (claimRequest now collectorRunId cached locked batchId) mid
        store' batch capacity members) :
      Effect candidates store now (.claimNextBatch collectorRunId cached locked batchId) store'
  | completed (batchId : Uuid) (outcome : PollOutcome) (apiRequestLogId : Option Uuid)
      (failureDetail : Option String) (store' : SchedulerStore) (batch : PollBatch)
      (row : PollBatchOutcome) (rows : List PollSchedule)
      (complete : Completed d.scheduler ⟨now, batchId, outcome, apiRequestLogId, failureDetail⟩
        store store' batch row rows) :
      Effect candidates store now (.completeBatch batchId outcome apiRequestLogId failureDetail)
        store'
  | epochStarted (request : EpochRequest d.scheduler.policy) (store' : SchedulerStore)
      (started : EpochStarted d.scheduler request store store') :
      Effect candidates store now (.initializeEpoch request) store'
  | lifecycleSet (request : LifecycleRequest d.scheduler.policy) (store' : SchedulerStore)
      (set : LifecycleSet d.scheduler request store store') :
      Effect candidates store now (.setLifecycleState request) store'
  | evaluated (call : EvaluationCall) (table : ScheduleTable)
      (effect : ScheduleEffect d.identities d.candidatePolicy (candidatesOver candidates store)
        call table) :
      Effect candidates store now (.applyEvaluation call) { store with schedules := table }

theorem execute_effect (now : Int) (call : Call d) (store : SchedulerStore)
    (candidates : CandidateStore) :
    Effect candidates store now call (execute now call store candidates).1 := by
  cases call with
  | claimNextBatch collectorRunId cached locked batchId =>
    simp only [execute]
    split
    · next store' _ h =>
      obtain ⟨mid, hprepared, _, hcases⟩ := claimNextBatch_eq_ok h
      cases hcases with
      | inl hsame =>
        subst hsame
        exact .prepared collectorRunId cached locked batchId _ hprepared
      | inr hgranted =>
        obtain ⟨batch, capacity, members, hroom, hgrant⟩ := hgranted
        exact .granted collectorRunId cached locked batchId mid _ batch capacity members hprepared
          hroom hgrant
    · exact .kept _
  | completeBatch batchId outcome apiRequestLogId failureDetail =>
    simp only [execute]
    split
    · next store' _ h =>
      cases completeBatch_eq_ok h with
      | inl hrepeat =>
        obtain ⟨_, _, hsame, _⟩ := hrepeat
        subst hsame
        exact .kept _
      | inr hfirst =>
        obtain ⟨batch, row, rows, hcomplete⟩ := hfirst
        exact .completed batchId outcome apiRequestLogId failureDetail _ batch row rows hcomplete
    · exact .kept _
  | initializeEpoch request =>
    simp only [execute]
    split
    · next h => exact .epochStarted request _ (initializeEpoch_eq_ok h)
    · exact .kept _
  | setLifecycleState request =>
    simp only [execute]
    split
    · next h => exact .lifecycleSet request _ (setLifecycleState_eq_ok h)
    · exact .kept _
  | applyEvaluation call =>
    simp only [execute]
    split
    · next h => exact .evaluated call _ (applyEvaluation_effect h)
    · exact .kept _

/-- A step leaves the store alone or commits one of the waiting calls. -/
theorem systemStep_store (s : SchedulerSystem d) (action : SystemAction d) :
    (systemStep s action).store = s.store ∨ ∃ position now call, action = .commit position ∧
      s.waiting[position]? = some (now, call) ∧
      Effect s.candidates s.store now call (systemStep s action).store := by
  cases action with
  | tick elapsed => exact .inl rfl
  | start call => exact .inl rfl
  | commit position =>
    cases hw : s.waiting[position]? with
    | none => exact .inl (by simp only [systemStep, hw])
    | some entry =>
      obtain ⟨now, call⟩ := entry
      refine .inr ⟨position, now, call, rfl, hw, ?_⟩
      simp only [systemStep, hw]
      exact execute_effect now call s.store s.candidates

/-- A property of the store that every effect keeps holds along every run. -/
theorem store_invariant {P : SchedulerStore → Prop}
    (hP : ∀ (candidates : CandidateStore) (store store' : SchedulerStore) (now : Int)
      (call : Call d), P store → Effect candidates store now call store' → P store')
    (s : SchedulerSystem d) (action : SystemAction d) (h : P s.store) :
    P (systemStep s action).store := by
  cases systemStep_store s action with
  | inl hsame => rwa [hsame]
  | inr hcommit =>
    obtain ⟨_, now, call, _, _, heffect⟩ := hcommit
    exact hP s.candidates s.store _ now call h heffect

/-- Tables of batches: unchanged, or with one granted batch, or with one outcome. -/
inductive BatchEffect (scheduler : AdaptiveScheduler) (store store' : SchedulerStore) : Prop
  | kept (batches : store'.batches = store.batches) (members : store'.members = store.members)
      (outcomes : store'.outcomes = store.outcomes)
  | granted (request : PollClaimRequest scheduler.policy) (mid : SchedulerStore)
      (batch : PollBatch) (capacity : CapacityDecision) (members : List GrantedMember)
      (prepare : Prepared scheduler request.now store mid)
      (room : HasBatchCapacity scheduler.policy (scheduledRequests scheduler.policy) mid
        request.now)
      (grant : Granted scheduler request mid store' batch capacity members)
  | completed (request : PollCompletionRequest) (batch : PollBatch) (row : PollBatchOutcome)
      (rows : List PollSchedule)
      (complete : Completed scheduler request store store' batch row rows)

theorem Effect.batchEffect {candidates : CandidateStore} {store store' : SchedulerStore} {now : Int}
    {call : Call d} (h : Effect candidates store now call store') :
    BatchEffect d.scheduler store store' := by
  cases h with
  | kept => exact .kept rfl rfl rfl
  | prepared collectorRunId cached locked batchId mid prepare =>
    rw [prepare.frame]
    exact .kept rfl rfl rfl
  | granted collectorRunId cached locked batchId mid _ batch capacity members prepare room grant =>
    exact .granted _ mid batch capacity members prepare room grant
  | completed batchId outcome apiRequestLogId failureDetail _ batch row rows complete =>
    exact .completed _ batch row rows complete
  | epochStarted request _ started =>
    rw [started.frame]
    exact .kept rfl rfl rfl
  | lifecycleSet request _ set =>
    cases set with
    | kept => exact .kept rfl rfl rfl
    | refreshed task rows evidence stored renewed token => exact .kept rfl rfl rfl
    | placed row flushed capacityDecisions evidence decisions current written token flushedToken =>
      exact .kept rfl rfl rfl
  | evaluated call table effect => exact .kept rfl rfl rfl

/-- The tables of batches of a prepared store are those of the store. -/
theorem Prepared.batches_eq {scheduler : AdaptiveScheduler} {now : Int}
    {store mid : SchedulerStore} (h : Prepared scheduler now store mid) :
    mid.batches = store.batches ∧ mid.members = store.members ∧ mid.outcomes = store.outcomes := by
  rw [h.frame]
  exact ⟨rfl, rfl, rfl⟩

theorem Granted.outcomes_eq {scheduler : AdaptiveScheduler}
    {request : PollClaimRequest scheduler.policy} {store store' : SchedulerStore}
    {batch : PollBatch} {capacity : CapacityDecision} {members : List GrantedMember}
    (h : Granted scheduler request store store' batch capacity members) :
    store'.outcomes = store.outcomes := by
  rw [h.frame]

theorem Completed.batches_eq {scheduler : AdaptiveScheduler} {request : PollCompletionRequest}
    {store store' : SchedulerStore} {batch : PollBatch} {row : PollBatchOutcome}
    {rows : List PollSchedule} (h : Completed scheduler request store store' batch row rows) :
    store'.batches = store.batches ∧ store'.members = store.members := by
  rw [h.frame]
  exact ⟨rfl, rfl⟩

/-! ### Properties of single schedules -/

/-- The rewrites that keep a property of a schedule, whatever the call. -/
structure RowRules (d : Deployment) (P : PollSchedule → Prop) : Prop where
  refreshed : ∀ (now : Int) (schedule row : PollSchedule),
    Refreshed d.scheduler now schedule row → P schedule → P row
  leased : ∀ (batch : PollBatch) (capacity : CapacityDecision) (member : GrantedMember),
    P member.schedule → P (leasedRow batch capacity member)
  polled : ∀ (completedAt : Int) (task row : PollSchedule),
    Polled d.scheduler completedAt task row → P task → P row
  rescheduled : ∀ (now : Int) (target : CandidateTier) (expires : Option Int) (tierEventId : Uuid)
    (schedule row : PollSchedule),
    Candidates.rescheduled d.candidatePolicy now target expires tierEventId schedule = .ok row →
      P schedule → P row

/-- Refreshes keep the property, however many a claim makes. -/
theorem RowRules.prepared {P : PollSchedule → Prop} (rules : RowRules d P) {now : Int}
    {store mid : SchedulerStore} (hprepared : Prepared d.scheduler now store mid)
    (h : ∀ schedule ∈ store.schedules.rows, P schedule) :
    ∀ schedule ∈ mid.schedules.rows, P schedule := by
  refine hprepared.refreshed.forall (fun schedule row hrow hschedule => ?_) h
  induction hrow with
  | refl => exact hschedule
  | tail _ hstep ih => exact rules.refreshed now _ _ hstep ih

/-- A property that rewrites keep holds of all schedules after a call, if epoch starts and placed
schedules have it too. -/
theorem Effect.forall_rows {P : PollSchedule → Prop} (rules : RowRules d P)
    {candidates : CandidateStore} {store store' : SchedulerStore} {now : Int} {call : Call d}
    (heffect : Effect candidates store now call store')
    (hepoch : ∀ request, call = .initializeEpoch request → ∀ schedule ∈ store.schedules.rows,
      ∀ row, Rebased d.scheduler request store schedule row → P row)
    (hplaced : ∀ request, call = .setLifecycleState request →
      (∀ task ∈ store.schedules.find? request.tokenId, task.stateDecidedAt ≤ request.decidedAt) →
      ∀ row, Placed d.scheduler request (store.schedules.find? request.tokenId) row → P row)
    (h : ∀ schedule ∈ store.schedules.rows, P schedule) :
    ∀ schedule ∈ store'.schedules.rows, P schedule := by
  cases heffect with
  | kept => exact h
  | prepared collectorRunId cached locked batchId mid prepare => exact rules.prepared prepare h
  | granted collectorRunId cached locked batchId mid _ batch capacity members prepare room grant =>
    rw [grant.frame]
    refine Table.forall_write ?_ (rules.prepared prepare h)
    intro row hrow
    obtain ⟨member, hmember, rfl⟩ := List.mem_map.mp hrow
    exact rules.leased batch capacity member (rules.prepared prepare h _ (grant.selected member hmember))
  | completed batchId outcome apiRequestLogId failureDetail _ batch row rows complete =>
    rw [complete.frame]
    refine Table.forall_write ?_ h
    intro new hnew
    obtain ⟨task, htask, _, hpolled⟩ := complete.polled new hnew
    exact rules.polled now task new hpolled (h task htask)
  | epochStarted request _ started =>
    intro row hrow
    obtain ⟨schedule, hschedule, _, hrebased⟩ := started.rebased.exists_before hrow
    exact hepoch request rfl schedule hschedule row hrebased
  | lifecycleSet request _ set =>
    cases set with
    | kept => exact h
    | refreshed task rows evidence stored renewed token =>
      exact Table.forall_write
        (fun row hrow => rules.refreshed _ task row (renewed row hrow) (h task stored)) h
    | placed row flushed capacityDecisions evidence decisions current written token flushedToken =>
      have hrow : P row := hplaced request rfl current row written
      intro schedule hschedule
      cases Table.mem_write hschedule with
      | inl hnew => exact List.mem_singleton.mp hnew ▸ hrow
      | inr hold =>
        have hne : flushed.tokenId ≠ schedule.tokenId := by
          rw [flushedToken, ← token]
          exact hold.2 row (List.mem_singleton_self row)
        exact h schedule (Table.mem_of_mem_insertNew hold.1 hne)
  | evaluated call table effect =>
    cases effect with
    | kept => exact h
    | rescheduled decision target tierEventId schedule schedule' planned found written =>
      refine Table.forall_write ?_ h
      intro row hrow
      rw [List.mem_singleton.mp hrow]
      exact rules.rescheduled _ target _ tierEventId schedule schedule' written
        (h schedule (Table.find?_eq_some_iff.mp found).1)

/-! ### A deployment with one request per minute -/

/-- One request a minute for scheduled work, and a minute between polls of every class. -/
def oneRequestSettings : PollingSettings where
  intervalSeconds _ := 60
  newInitialDuration := seconds 120
  earlyUntil := seconds 600
  matureUntil := seconds 3600
  cooledUntil := seconds 21600
  longTailDayUntil := seconds 86400
  retireAfter := seconds 604800
  fadingFastDuration := seconds 1800
  fadingTotalDuration := seconds 21600
  batchSize := 30
  leaseDuration := seconds 120
  maxInFlightBatches := 4
  requestBudgetPerMinute := 2
  requestAttemptsPerBatch := 3
  reservedRequestsPerMinute := 1
  controlScanTokensPerMinute := 2
  capacityHeadroomRatio := 0
  capacityRefresh := seconds 300

def oneRequest : AdaptivePollingPolicy where
  toPollingSettings := oneRequestSettings
  boundaries_increase := by decide
  fading_shorter := by decide
  reserve_below := by decide +kernel

theorem oneRequest_inRange : oneRequest.InRange where
  interval _ := Nat.le_of_ble_eq_true rfl
  budget := by decide
  reserved := by decide
  batch := by decide
  control := by decide
  headroom := by norm_num [oneRequest, oneRequestSettings]
  inFlight := by decide
  attempts := by decide
  lease := by decide
  refresh := by decide

/-- Evaluates the model: documents are told apart by tokens, instants and counts. -/
def sampleDigests : SchedulerDigests where
  policySha256 := "policy"
  coverageSha256 := "coverage"
  capacityKey bucket plan := String.ofList
    (List.replicate (bucket / 1000000 + plan.tokenCounts .protectedActive).toNat 'c')
  coverageDecisionKey identity := String.ofList
    (List.replicate (identity.tokenId + 10 * (identity.decidedAt / 1000000).toNat) 'd')
  scheduleDecisionKey token _ decidedAt _ := String.ofList
    (List.replicate (token + 10 * (decidedAt / 1000000).toNat) 's')
  epochRebaseKey epoch token := String.ofList (List.replicate (10 * epoch + token) 'e')
  epochPhase _ _ := 0
  coveragePhase _ _ := 0
  uuid5 := String.length
  uuidString token := String.ofList (List.replicate token 'u')

def sampleScheduler : AdaptiveScheduler where
  policy := oneRequest
  digests := sampleDigests
  wholeMilliseconds difference := difference / 1000
  divide := (· / ·)

/-- Two tokens on two chains, without schedules. -/
def twoTokens : SchedulerStore where
  tokens := ⟨[⟨1, "solana", "A"⟩, ⟨2, "base", "B"⟩], by decide⟩
  schedules := Table.empty
  batches := Table.empty
  members := Table.empty
  outcomes := Table.empty
  capacityDecisions := Table.empty
  coverageDecisions := Table.empty
  scheduleDecisions := Table.empty
  lifecycleEvents := []
  collectorRuns := Table.empty

def noCandidates : CandidateStore where
  policies := Table.empty
  currentStates := Table.empty
  schedules := Table.empty
  candidateEvents := Table.empty
  tierEvents := Table.empty
  tasks := Table.empty

def sampleDeployment : Deployment := ⟨sampleScheduler, secondIdentities, oneOverride⟩

def sampleSystem : SchedulerSystem sampleDeployment := ⟨0, [], twoTokens, noCandidates⟩

/-- Start a call and commit it, with no other call in progress. -/
def promptly (call : Call sampleDeployment) : List (SystemAction sampleDeployment) :=
  [.start call, .commit 0]

/-- Token under a lifecycle state from an instant on, admitted at the start. -/
def stateCall (token : Uuid) (state : LifecycleState) (decidedAt : Int) : Call sampleDeployment :=
  .setLifecycleState ⟨token, state, decidedAt, "state", some 0, none, none⟩

def claimCall (batchId : Uuid) : Call sampleDeployment := .claimNextBatch none none [] batchId

/-- Two active tokens, due a minute later. -/
def activateTwo : List (SystemAction sampleDeployment) :=
  promptly (stateCall 1 .active 0) ++ promptly (stateCall 2 .active 0)

end PumpResearch.Scheduling
