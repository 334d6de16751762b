import PumpResearch.Scheduling.Claims

/-! Completion of a poll batch: the checks that the batch still owns its schedules, the outcome
with its lateness summary, and the next poll of each member. -/
namespace PumpResearch.Scheduling
open KeyedOrder KeyedTable Results

structure PollCompletion where
  batchId : Uuid
  outcome : PollOutcome
  completedAt : Int
  memberCount : Nat
  observationLatenessMinMs : Nat
  observationLatenessMaxMs : Nat
  observationLatenessMeanMs : ℚ
deriving DecidableEq

/-- The arguments of `complete_batch`, with the clock it reads. -/
structure PollCompletionRequest where
  completedAt : Int
  batchId : Uuid
  outcome : PollOutcome
  apiRequestLogId : Option Uuid
  failureDetail : Option String

/-- `_completion_from_model`. -/
def completionFromModel (row : PollBatchOutcome) : PollCompletion where
  batchId := row.batchId
  outcome := row.outcome
  completedAt := row.completedAt
  memberCount := row.memberCount
  observationLatenessMinMs := row.observationLatenessMinMs
  observationLatenessMaxMs := row.observationLatenessMaxMs
  observationLatenessMeanMs := row.observationLatenessMeanMs

/-- What a `NUMERIC(20, 3)` column keeps of a value that is not negative. -/
def roundedToThousandths (value : ℚ) : ℚ := ⌊value * 1000 + 1 / 2⌋ / 1000

def coverageValue : CoverageClass → String
  | .protectedActive => "PROTECTED_ACTIVE"
  | .protectedResurrected => "PROTECTED_RESURRECTED"
  | .protectedWatch => "PROTECTED_WATCH"
  | .initial => "INITIAL"
  | .early => "EARLY"
  | .mature => "MATURE"
  | .fadingTail => "FADING_TAIL"
  | .fadingCool => "FADING_COOL"
  | .cooled => "COOLED"
  | .longTailDay => "LONG_TAIL_DAY"
  | .longTailWeek => "LONG_TAIL_WEEK"
  | .retiredControl => "RETIRED_CONTROL"

/-- Intervals of a stored decision, each of which must be positive. -/
def checkedIntervals (suffix : String) (intervals : CoverageClass → Nat) :
    Except SchedulingError (CoverageClass → Nat) :=
  match CoverageClass.all.find? fun tier => intervals tier = 0 with
  | some tier =>
    .error (.value ("capacity decision has an invalid " ++ coverageValue tier ++ suffix))
  | none => .ok intervals

/-- `_decision_intervals`. -/
def decisionIntervals (decision : SchedulerCapacityDecision) :
    Except SchedulingError (CoverageClass → Nat) :=
  checkedIntervals " interval" decision.plan.effectiveIntervalSeconds

/-- `_decision_target_intervals`. -/
def decisionTargetIntervals (decision : SchedulerCapacityDecision) :
    Except SchedulingError (CoverageClass → Nat) :=
  checkedIntervals " target interval" decision.plan.targetIntervalSeconds

/-- The intervals of the decision that a batch names, if it is stored. -/
def batchIntervals
    (read : SchedulerCapacityDecision → Except SchedulingError (CoverageClass → Nat))
    (batch : PollBatch) (store : SchedulerStore) :
    Except SchedulingError (Option (CoverageClass → Nat)) :=
  match batch.capacityDecisionId.bind store.capacityDecisions.find? with
  | none => .ok none
  | some decision => (read decision).map some

/-- The members of a batch, by priority and token. -/
def batchMembers (batch : PollBatch) (store : SchedulerStore) : List PollBatchMember :=
  sortOn (fun member => toLex (member.priority, member.tokenId))
    (store.members.rows.filter fun member =>
      member.batchId = batch.id ∧ member.claimedAt = batch.claimedAt)

/-- `_lock_completion_schedules`: in the order of the tokens. -/
def completionSchedules (tokenIds : List Uuid) (table : ScheduleTable) : List PollSchedule :=
  sortOn (·.tokenId) (table.rows.filter fun schedule => schedule.tokenId ∈ tokenIds)

/-- The batch no longer owns its schedules. -/
def LostLease (completedAt : Int) (batch : PollBatch) (members : List PollBatchMember)
    (schedules : List PollSchedule) : Prop :=
  batch.leaseExpiresAt ≤ completedAt ∨ schedules.length ≠ members.length ∨
    ∃ member ∈ members, (schedules.find? (·.tokenId = member.tokenId)).bind leaseIdOf ≠
      some batch.id

instance decidableLostLease (completedAt : Int) (batch : PollBatch)
    (members : List PollBatchMember) (schedules : List PollSchedule) :
    Decidable (LostLease completedAt batch members schedules) :=
  inferInstanceAs (Decidable (_ ∨ _ ∨ ∃ member ∈ members, _))

def lostLeaseMessage : String := "Poll batch lease expired or was reclaimed by another worker"

/-- The outcome of a batch; without members its mean lateness is undefined. -/
def outcomeRow (scheduler : AdaptiveScheduler) (request : PollCompletionRequest)
    (members : List PollBatchMember) : Except SchedulingError PollBatchOutcome :=
  let values := members.map fun member => lateness scheduler request.completedAt member.dueAt
  match values.min?, values.max? with
  | some least, some most =>
    .ok { batchId := request.batchId
          apiRequestLogId := request.apiRequestLogId
          outcome := request.outcome
          completedAt := request.completedAt
          memberCount := members.length
          observationLatenessMinMs := least
          observationLatenessMaxMs := most
          observationLatenessMeanMs := scheduler.divide values.sum values.length
          failureDetail := request.failureDetail
          configurationSha256 := scheduler.digests.policySha256 }
  | _, _ => .error (.value "[<class 'decimal.DivisionUndefined'>]")

/-- The intervals that a completion applies, before an override. -/
structure CompletionIntervals where
  target : Option (CoverageClass → Nat)
  effective : Option (CoverageClass → Nat)

def CompletionIntervals.targetFor (intervals : CompletionIntervals)
    (policy : AdaptivePollingPolicy) (coverage : CoverageClass) : Nat :=
  intervals.target.elim (policy.capacityTargetIntervalSeconds coverage 1) fun target =>
    target coverage

def CompletionIntervals.effectiveFor (intervals : CompletionIntervals)
    (policy : AdaptivePollingPolicy) (coverage : CoverageClass) : Nat :=
  intervals.effective.elim (intervals.targetFor policy coverage) fun effective =>
    effective coverage

/-- The schedule of a member after its poll, given its class and the class's own boundary. -/
def polledRow (scheduler : AdaptiveScheduler) (completedAt : Int) (batch : PollBatch)
    (intervals : CompletionIntervals) (member : PollBatchMember) (coverage : CoverageClass)
    (boundary : Option Int) (projection : CoverageProjection) (task : PollSchedule) :
    PollSchedule :=
  let overlay := liveOverlay completedAt task
  let effective := limited overlay (intervals.effectiveFor scheduler.policy coverage)
  let scanned := member.coverageClass = some .retiredControl
  { task with
    candidateCoverage := overlay
    lastDueAt := some member.dueAt
    lastCompletedAt := some completedAt
    attemptCount := task.attemptCount + 1
    lastControlScanAt := if scanned then some completedAt else task.lastControlScanAt
    controlScanCount := if scanned then task.controlScanCount + 1 else task.controlScanCount
    coverage := some { projection with
      coverageClass := coverage
      decidedAt := completedAt
      policySha256 := scheduler.digests.coverageSha256 }
    coverageNextTransitionAt := earliest boundary (overlay.map (·.expiresAt))
    nextDueAt :=
      if coverage = .retiredControl then none else some (completedAt + seconds effective)
    priority := raisedPriority overlay coverage
    lease := none
    capacityDecisionId := batch.capacityDecisionId
    targetIntervalSeconds := some
      (limited overlay (intervals.targetFor scheduler.policy coverage))
    effectiveIntervalSeconds := some effective
    configurationSha256 := scheduler.digests.policySha256
    updatedAt := completedAt }

/-- Write the schedule of one member back, with evidence if its class changed. -/
def completeMember (scheduler : AdaptiveScheduler) (completedAt : Int) (batch : PollBatch)
    (intervals : CompletionIntervals) (store : SchedulerStore)
    (pair : PollSchedule × PollBatchMember) : Except SchedulingError SchedulerStore :=
  let task := pair.1
  match task.coverage with
  | none =>
    .error (.coverageReconstruction "an unmapped legacy schedule cannot complete V2 work")
  | some projection => do
    let coverage ← scheduler.policy.coverageClassFor task.lifecycleState projection.admittedAt
      task.stateDecidedAt completedAt
    let boundary ← scheduler.policy.nextTransitionAt task.lifecycleState projection.admittedAt
      task.stateDecidedAt completedAt
    let row := polledRow scheduler completedAt batch intervals pair.2 coverage boundary
      projection task
    let written := { store with schedules := store.schedules.write [row] }
    if projection.coverageClass = coverage then return written
    else
      recordCoverageDecision scheduler.digests
        { collectionEpochId := none
          collectorRunId := batch.collectorRunId
          schedule := row
          previousCoverageClass := some projection.coverageClass
          decidedAt := completedAt
          coverageEffectiveAt := completedAt
          reasonCode := "coverage_boundary_observed_at_completion"
          capacityDecisionId := batch.capacityDecisionId
          targetIntervalSeconds := row.targetIntervalSeconds
          effectiveIntervalSeconds := row.effectiveIntervalSeconds
          nextDueAt := row.nextDueAt
          context := .batch batch.id }
        written

/-- Locked schedules with the memberships of their tokens. -/
def memberPairs (members : List PollBatchMember) (schedules : List PollSchedule) :
    List (PollSchedule × PollBatchMember) :=
  schedules.filterMap fun schedule =>
    (members.find? (·.tokenId = schedule.tokenId)).map fun member => (schedule, member)

/-- The part of `complete_batch_in_session` after the batch is known to have no outcome. -/
def completeOwnedBatch (scheduler : AdaptiveScheduler) (request : PollCompletionRequest)
    (batch : PollBatch) (store : SchedulerStore) :
    Except SchedulingError (SchedulerStore × PollCompletion) := do
  let effective ← batchIntervals decisionIntervals batch store
  let target ← batchIntervals decisionTargetIntervals batch store
  let members := batchMembers batch store
  let schedules := completionSchedules (members.map (·.tokenId)) store.schedules
  if LostLease request.completedAt batch members schedules then
    throw (.lostPollLease lostLeaseMessage)
  let row ← outcomeRow scheduler request members
  let stored := { row with
    observationLatenessMeanMs := roundedToThousandths row.observationLatenessMeanMs }
  let recorded := { store with outcomes := store.outcomes.insertNew stored }
  let store' ← (memberPairs members schedules).foldlM
    (completeMember scheduler request.completedAt batch ⟨target, effective⟩) recorded
  return (store', completionFromModel row)

/-- `complete_batch_in_session`. -/
def completeBatch (scheduler : AdaptiveScheduler) (request : PollCompletionRequest)
    (store : SchedulerStore) : Except SchedulingError (SchedulerStore × PollCompletion) :=
  match store.batches.find? request.batchId with
  | none => .error .noResultFound
  | some batch =>
    match store.outcomes.find? request.batchId with
    | some existing => .ok (store, completionFromModel existing)
    | none => completeOwnedBatch scheduler request batch store

/-! ### What a completion can do -/

/-- The schedule of a member after its poll. -/
inductive Polled (scheduler : AdaptiveScheduler) (completedAt : Int) (task : PollSchedule) :
    PollSchedule → Prop
  | mk (batch : PollBatch) (intervals : CompletionIntervals) (member : PollBatchMember)
      (coverage : CoverageClass) (boundary : Option Int) (projection : CoverageProjection)
      (mapped : task.coverage = some projection)
      (classified : scheduler.policy.coverageClassFor task.lifecycleState projection.admittedAt
        task.stateDecidedAt completedAt = .ok coverage)
      (bounded : scheduler.policy.nextTransitionAt task.lifecycleState projection.admittedAt
        task.stateDecidedAt completedAt = .ok boundary) :
      Polled scheduler completedAt task
        (polledRow scheduler completedAt batch intervals member coverage boundary projection task)

theorem completeMember_eq_ok {scheduler : AdaptiveScheduler} {completedAt : Int}
    {batch : PollBatch} {intervals : CompletionIntervals} {store store' : SchedulerStore}
    {pair : PollSchedule × PollBatchMember}
    (h : completeMember scheduler completedAt batch intervals store pair = .ok store') :
    ∃ row evidence, Polled scheduler completedAt pair.1 row ∧ row.tokenId = pair.1.tokenId ∧
      store' = { store with
        schedules := store.schedules.write [row]
        coverageDecisions := evidence } := by
  unfold completeMember at h
  dsimp only at h
  cases hm : pair.1.coverage with
  | none =>
    rw [hm] at h
    cases h
  | some projection =>
    rw [hm] at h
    simp only [bind_eq_ok] at h
    obtain ⟨coverage, hcoverage, boundary, hboundary, h⟩ := h
    have hpolled := Polled.mk batch intervals pair.2 coverage boundary projection hm hcoverage
      hboundary
    split at h
    · rw [pure_eq_ok] at h
      exact ⟨_, store.coverageDecisions, hpolled, rfl, h.symm⟩
    · obtain ⟨table, rfl⟩ := recordCoverageDecision_eq_ok h
      exact ⟨_, table, hpolled, rfl, rfl⟩

/-- A first completion: the batch owned all its schedules, and each of them was polled. -/
structure Completed (scheduler : AdaptiveScheduler) (request : PollCompletionRequest)
    (store store' : SchedulerStore) (batch : PollBatch) (outcome : PollBatchOutcome)
    (rows : List PollSchedule) : Prop where
  found : store.batches.find? request.batchId = some batch
  fresh : store.outcomes.find? request.batchId = none
  unexpired : request.completedAt < batch.leaseExpiresAt
  owned : ∀ member ∈ batchMembers batch store,
    ∃ schedule ∈ store.schedules.rows, schedule.tokenId = member.tokenId ∧
      leaseIdOf schedule = some batch.id
  outcome_batch : outcome.batchId = request.batchId
  outcomes : store'.outcomes.rows = store.outcomes.rows ++ [outcome]
  polled : ∀ row ∈ rows, ∃ task ∈ store.schedules.rows, row.tokenId = task.tokenId ∧
    Polled scheduler request.completedAt task row
  members : ∀ schedule ∈ store.schedules.rows, (∃ row ∈ rows, row.tokenId = schedule.tokenId) ↔
    ∃ member ∈ batchMembers batch store, member.tokenId = schedule.tokenId
  frame : store' = { store with
    outcomes := store'.outcomes
    schedules := store.schedules.write rows
    coverageDecisions := store'.coverageDecisions }

theorem mem_completionSchedules {tokenIds : List Uuid} {table : ScheduleTable}
    {schedule : PollSchedule} : schedule ∈ completionSchedules tokenIds table ↔
      schedule ∈ table.rows ∧ schedule.tokenId ∈ tokenIds := by
  rw [completionSchedules, mem_sortOn, List.mem_filter, decide_eq_true_eq]

theorem exists_memberPair {members : List PollBatchMember} {schedules : List PollSchedule}
    {schedule : PollSchedule} (hs : schedule ∈ schedules) {member : PollBatchMember}
    (hm : member ∈ members) (hk : member.tokenId = schedule.tokenId) :
    ∃ pair ∈ memberPairs members schedules, pair.1 = schedule := by
  have hsome : (members.find? (·.tokenId = schedule.tokenId)).isSome := by
    rw [List.find?_isSome]
    exact ⟨member, hm, decide_eq_true hk⟩
  obtain ⟨found, hfound⟩ := Option.isSome_iff_exists.mp hsome
  exact ⟨(schedule, found), List.mem_filterMap.mpr ⟨schedule, hs, by rw [hfound]; rfl⟩, rfl⟩

theorem mem_memberPairs {members : List PollBatchMember} {schedules : List PollSchedule}
    {pair : PollSchedule × PollBatchMember} (h : pair ∈ memberPairs members schedules) :
    pair.1 ∈ schedules ∧ pair.2 ∈ members ∧ pair.2.tokenId = pair.1.tokenId := by
  obtain ⟨schedule, hs, hpair⟩ := List.mem_filterMap.mp h
  obtain ⟨member, hfound, rfl⟩ := Option.map_eq_some_iff.mp hpair
  exact ⟨hs, List.mem_of_find?_eq_some hfound,
    of_decide_eq_true (List.find?_some (p := fun m : PollBatchMember =>
      m.tokenId = schedule.tokenId) hfound)⟩

/-- The loop over the members writes a row for every locked schedule, with what holds of one. -/
theorem completeMembers_rows {scheduler : AdaptiveScheduler} {completedAt : Int}
    {batch : PollBatch} {intervals : CompletionIntervals} {store store' : SchedulerStore}
    {R : PollSchedule × PollBatchMember → PollSchedule → Prop}
    (hone : ∀ {pair mid mid'},
      completeMember scheduler completedAt batch intervals mid pair = .ok mid' →
        ∃ row evidence, R pair row ∧ row.tokenId = pair.1.tokenId ∧
          mid' = { mid with
            schedules := mid.schedules.write [row]
            coverageDecisions := evidence })
    {pairs : List (PollSchedule × PollBatchMember)}
    (h : pairs.foldlM (completeMember scheduler completedAt batch intervals) store = .ok store') :
    ∃ rows evidence,
      (∀ row ∈ rows, ∃ pair ∈ pairs, row.tokenId = pair.1.tokenId ∧ R pair row) ∧
      (∀ pair ∈ pairs, ∃ row ∈ rows, row.tokenId = pair.1.tokenId) ∧
      store' = { store with
        schedules := store.schedules.write rows
        coverageDecisions := evidence } := by
  refine foldlM_invariant (fun done mid => ∃ rows evidence,
    (∀ row ∈ rows, ∃ pair ∈ done, row.tokenId = pair.1.tokenId ∧ R pair row) ∧
    (∀ pair ∈ done, ∃ row ∈ rows, row.tokenId = pair.1.tokenId) ∧
    mid = { store with
      schedules := store.schedules.write rows
      coverageDecisions := evidence }) ?_ h
    ⟨[], store.coverageDecisions, by simp, by simp, by rw [Table.write_nil]⟩
  intro done pair s s' hs hstep
  obtain ⟨rows, evidence, hrows, hall, rfl⟩ := hs
  obtain ⟨row, evidence', hrow, htoken, rfl⟩ := hone hstep
  refine ⟨row :: rows, evidence', ?_, ?_, by rw [Table.write_write]; rfl⟩
  · intro new hnew
    cases List.mem_cons.mp hnew with
    | inl heq =>
      subst heq
      exact ⟨pair, by simp, htoken, hrow⟩
    | inr hmem =>
      obtain ⟨old, hold, hrest⟩ := hrows new hmem
      exact ⟨old, List.mem_append_left _ hold, hrest⟩
  · intro old hold
    cases List.mem_append.mp hold with
    | inl hmem =>
      obtain ⟨new, hnew, hrest⟩ := hall old hmem
      exact ⟨new, List.mem_cons_of_mem _ hnew, hrest⟩
    | inr hmem =>
      rw [List.mem_singleton] at hmem
      subst hmem
      exact ⟨row, List.mem_cons_self, htoken⟩

/-- The loop over the members polls every locked schedule once. -/
theorem completeMembers_eq_ok {scheduler : AdaptiveScheduler} {completedAt : Int}
    {batch : PollBatch} {intervals : CompletionIntervals} {store store' : SchedulerStore}
    {pairs : List (PollSchedule × PollBatchMember)}
    (h : pairs.foldlM (completeMember scheduler completedAt batch intervals) store = .ok store') :
    ∃ rows evidence,
      (∀ row ∈ rows, ∃ pair ∈ pairs, row.tokenId = pair.1.tokenId ∧
        Polled scheduler completedAt pair.1 row) ∧
      (∀ pair ∈ pairs, ∃ row ∈ rows, row.tokenId = pair.1.tokenId) ∧
      store' = { store with
        schedules := store.schedules.write rows
        coverageDecisions := evidence } :=
  completeMembers_rows completeMember_eq_ok h

theorem outcomeRow_batchId {scheduler : AdaptiveScheduler} {request : PollCompletionRequest}
    {members : List PollBatchMember} {row : PollBatchOutcome}
    (h : outcomeRow scheduler request members = .ok row) : row.batchId = request.batchId := by
  unfold outcomeRow at h
  dsimp only at h
  split at h
  · cases h
    rfl
  · cases h

theorem owned_of_not_lostLease {completedAt : Int} {batch : PollBatch} {store : SchedulerStore}
    {members : List PollBatchMember}
    (h : ¬ LostLease completedAt batch members
      (completionSchedules (members.map (·.tokenId)) store.schedules)) :
    completedAt < batch.leaseExpiresAt ∧ ∀ member ∈ members,
      ∃ schedule ∈ store.schedules.rows, schedule.tokenId = member.tokenId ∧
        leaseIdOf schedule = some batch.id := by
  simp only [LostLease, not_or, not_exists, not_and, not_not, not_le] at h
  refine ⟨h.1, fun member hmember => ?_⟩
  obtain ⟨schedule, hfound, hlease⟩ := Option.bind_eq_some_iff.mp (h.2.2 member hmember)
  exact ⟨schedule, (mem_completionSchedules.mp (List.mem_of_find?_eq_some hfound)).1,
    of_decide_eq_true (List.find?_some (p := fun s : PollSchedule =>
      s.tokenId = member.tokenId) hfound), hlease⟩

/-- A completion returns the stored outcome and changes nothing, or is the first one. -/
theorem completeBatch_eq_ok {scheduler : AdaptiveScheduler} {request : PollCompletionRequest}
    {store store' : SchedulerStore} {completion : PollCompletion}
    (h : completeBatch scheduler request store = .ok (store', completion)) :
    (∃ existing, store.outcomes.find? request.batchId = some existing ∧ store' = store ∧
      completion = completionFromModel existing) ∨
    ∃ batch outcome rows, Completed scheduler request store store' batch outcome rows := by
  unfold completeBatch at h
  cases hb : store.batches.find? request.batchId with
  | none =>
    rw [hb] at h
    cases h
  | some batch =>
    rw [hb] at h
    cases ho : store.outcomes.find? request.batchId with
    | some existing =>
      rw [ho] at h
      cases h
      exact .inl ⟨existing, rfl, rfl, rfl⟩
    | none =>
      rw [ho] at h
      simp only [completeOwnedBatch, guard_eq_ok, bind_eq_ok, pure_eq_ok] at h
      obtain ⟨effective, _, target, _, hlease, row, hrow, mid, hmid, hresult⟩ := h
      cases hresult
      obtain ⟨hunexpired, howned⟩ := owned_of_not_lostLease hlease
      obtain ⟨rows, evidence, hpolled, hall, rfl⟩ := completeMembers_eq_ok hmid
      have hbatch : row.batchId = request.batchId := outcomeRow_batchId hrow
      refine .inr ⟨batch, { row with
        observationLatenessMeanMs := roundedToThousandths row.observationLatenessMeanMs }, rows,
        hb, ho, hunexpired, howned, hbatch, ?_, ?_, ?_, rfl⟩
      · exact Table.rows_insertNew_of_find?_eq_none (hbatch ▸ ho)
      · intro new hnew
        obtain ⟨pair, hpair, htoken, hrest⟩ := hpolled new hnew
        have hin := (mem_completionSchedules.mp (mem_memberPairs hpair).1).1
        exact ⟨pair.1, hin, htoken, hrest⟩
      · intro schedule hschedule
        constructor
        · intro hex
          obtain ⟨new, hnew, hk⟩ := hex
          obtain ⟨pair, hpair, htoken, _⟩ := hpolled new hnew
          obtain ⟨_, hmem, hpk⟩ := mem_memberPairs hpair
          exact ⟨pair.2, hmem, hpk.trans (htoken.symm.trans hk)⟩
        · intro hex
          obtain ⟨member, hmember, hk⟩ := hex
          have hlocked : schedule ∈ completionSchedules
              ((batchMembers batch store).map (·.tokenId)) store.schedules :=
            mem_completionSchedules.mpr ⟨hschedule, hk ▸ List.mem_map_of_mem hmember⟩
          obtain ⟨pair, hpair, rfl⟩ := exists_memberPair hlocked hmember hk
          exact hall pair hpair

end PumpResearch.Scheduling
