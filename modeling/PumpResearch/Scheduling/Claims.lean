import PumpResearch.Scheduling.Coverage

/-! Claims of poll batches: the request and in-flight limits, the selection of an ordinary or a
control batch, and the leases a granted batch takes. -/
namespace PumpResearch.Scheduling
open KeyedOrder KeyedTable RelatedLists Results

structure PollMemberClaim where
  tokenId : Uuid
  address : String
  lifecycleState : LifecycleState
  coverageClass : CoverageClass
  dueAt : Int
  claimLatenessMs : Nat
  previousBatchId : Option Uuid
  capacityDecisionId : Uuid
  targetIntervalSeconds : Nat
  effectiveIntervalSeconds : Nat
deriving DecidableEq

structure PollBatchClaim where
  batchId : Uuid
  chain : String
  claimedAt : Int
  leaseExpiresAt : Int
  capacityDecisionId : Uuid
  kind : BatchKind
  members : List PollMemberClaim
deriving DecidableEq

/-- What a claim call brings to its transaction: the clock it read, the plan its process
remembers, the rows that other transactions hold locked, and the identifier drawn for a batch. -/
structure PollClaimRequest (policy : AdaptivePollingPolicy) where
  now : Int
  collectorRunId : Option Uuid
  cached : Option (CachedCapacity policy)
  locked : List Uuid
  batchId : Uuid

/-! ### Limits -/

/-- A batch without an outcome whose lease outlives an instant. -/
def InFlight (store : SchedulerStore) (now : Int) (batch : PollBatch) : Prop :=
  store.outcomes.find? batch.id = none ∧ now < batch.leaseExpiresAt

instance decidableInFlight (store : SchedulerStore) (now : Int) :
    DecidablePred (InFlight store now) :=
  fun _ => inferInstanceAs (Decidable (_ ∧ _))

/-- Request capacity reserved by the batches of the last minute. -/
def reservedRequests (store : SchedulerStore) (now : Int) : Nat :=
  ((store.batches.rows.filter fun batch =>
    batch.provider = dexScreenerProvider ∧ now - seconds 60 < batch.claimedAt ∧
      batch.claimedAt ≤ now).map (·.reservedRequestCapacity)).sum

/-- `_has_batch_capacity`. -/
def HasBatchCapacity (policy : AdaptivePollingPolicy) (budget : Int) (store : SchedulerStore)
    (now : Int) : Prop :=
  store.batches.rows.countP (InFlight store now ·) < policy.maxInFlightBatches ∧
    (reservedRequests store now : Int) + 1 ≤ budget

instance decidableHasBatchCapacity (policy : AdaptivePollingPolicy) (budget : Int)
    (store : SchedulerStore) (now : Int) : Decidable (HasBatchCapacity policy budget store now) :=
  inferInstanceAs (Decidable (_ ∧ _))

/-! ### Selection -/

/-- No lease holds the schedule at an instant. -/
def LeaseFree (now : Int) (schedule : PollSchedule) : Prop :=
  ∀ lease ∈ schedule.lease, lease.expiresAt ≤ now

instance decidableLeaseFree (now : Int) : DecidablePred (LeaseFree now) :=
  fun schedule => inferInstanceAs (Decidable (∀ lease ∈ schedule.lease, lease.expiresAt ≤ now))

def OrdinaryEligible (now : Int) (schedule : PollSchedule) : Prop :=
  (∃ due ∈ schedule.nextDueAt, due ≤ now) ∧
    (∃ coverage ∈ schedule.coverageClass, coverage ≠ .retiredControl) ∧ LeaseFree now schedule

instance decidableOrdinaryEligible (now : Int) : DecidablePred (OrdinaryEligible now) :=
  fun schedule => inferInstanceAs (Decidable ((∃ due ∈ schedule.nextDueAt, due ≤ now) ∧
    (∃ coverage ∈ schedule.coverageClass, coverage ≠ .retiredControl) ∧ LeaseFree now schedule))

def ControlEligible (now : Int) (schedule : PollSchedule) : Prop :=
  schedule.coverageClass = some .retiredControl ∧ LeaseFree now schedule

instance decidableControlEligible (now : Int) : DecidablePred (ControlEligible now) :=
  fun _ => inferInstanceAs (Decidable (_ ∧ _))

/-- Priority, then due time, then token. -/
def ordinaryOrder (schedule : PollSchedule) : Nat ×ₗ Int ×ₗ Nat :=
  toLex (schedule.priority, toLex (schedule.nextDueAt.getD 0, schedule.tokenId))

/-- The scan that is longest ago, never scanned first; then admission time, then token. -/
def controlOrder (schedule : PollSchedule) : Nat ×ₗ Int ×ₗ Int ×ₗ Nat :=
  toLex (if schedule.lastControlScanAt.isNone then 0 else 1,
    toLex (schedule.lastControlScanAt.getD 0,
      toLex ((schedule.coverage.map (·.admittedAt)).getD 0, schedule.tokenId)))

/-- Schedules joined with their tokens. -/
def scheduledTokens (store : SchedulerStore) : List (PollSchedule × Token) :=
  store.schedules.rows.filterMap fun schedule =>
    (store.tokens.find? schedule.tokenId).map fun token => (schedule, token)

/-- Joined rows under a condition and an order, less the rows locked elsewhere. -/
def orderedRows {κ : Type} [LinearOrder κ] (order : PollSchedule → κ) (locked : List Uuid)
    (rows : List (PollSchedule × Token)) : List (PollSchedule × Token) :=
  (sortOn (fun row => order row.1) rows).filter fun row => row.1.tokenId ∉ locked

/-- The chain of the first eligible schedule, and the batch of eligible schedules on it. -/
def selectRows {κ : Type} [LinearOrder κ] (eligible : PollSchedule → Bool)
    (order : PollSchedule → κ) (limit : Nat) (locked : List Uuid) (store : SchedulerStore) :
    Option (String × List (PollSchedule × Token)) :=
  let rows := (scheduledTokens store).filter fun row => eligible row.1
  match orderedRows order locked rows with
  | [] => none
  | head :: _ =>
    let chain := head.2.chain
    some (chain, (orderedRows order locked (rows.filter fun row => row.2.chain = chain)).take limit)

theorem mem_selectRows {κ : Type} [LinearOrder κ] {eligible : PollSchedule → Bool}
    {order : PollSchedule → κ} {limit : Nat} {locked : List Uuid} {store : SchedulerStore}
    {chain : String} {rows : List (PollSchedule × Token)}
    (h : selectRows eligible order limit locked store = some (chain, rows))
    {row : PollSchedule × Token} (hrow : row ∈ rows) :
    row.1 ∈ store.schedules.rows ∧ eligible row.1 = true ∧ row.2.id = row.1.tokenId := by
  unfold selectRows at h
  dsimp only at h
  split at h
  · cases h
  · cases h
    have hordered := List.mem_of_mem_take hrow
    have hfilter := (mem_sortOn _ _ _).mp (List.mem_filter.mp hordered).1
    have heligible := List.mem_filter.mp (List.mem_filter.mp hfilter).1
    obtain ⟨schedule, hschedule, hjoin⟩ := List.mem_filterMap.mp heligible.1
    obtain ⟨token, htoken, hpair⟩ := Option.map_eq_some_iff.mp hjoin
    subst hpair
    exact ⟨hschedule, heligible.2, (Table.find?_eq_some_iff.mp htoken).2⟩

theorem scheduledTokens_nodup (store : SchedulerStore) :
    ((scheduledTokens store).map fun row => row.1.tokenId).Nodup :=
  nodup_joined store.schedules.nodup fun schedule => store.tokens.find? schedule.tokenId

theorem selectRows_nodup {κ : Type} [LinearOrder κ] {eligible : PollSchedule → Bool}
    {order : PollSchedule → κ} {limit : Nat} {locked : List Uuid} {store : SchedulerStore}
    {chain : String} {rows : List (PollSchedule × Token)}
    (h : selectRows eligible order limit locked store = some (chain, rows)) :
    (rows.map fun row => row.1.tokenId).Nodup := by
  unfold selectRows at h
  dsimp only at h
  split at h
  · cases h
  · cases h
    refine List.Nodup.sublist (((List.take_sublist _ _).trans List.filter_sublist).map _) ?_
    refine ((sortOn_perm _ _).map _).nodup_iff.mpr ?_
    exact (scheduledTokens_nodup store).sublist
      ((List.filter_sublist.trans List.filter_sublist).map _)

/-! ### Granting a batch -/

def lateness (scheduler : AdaptiveScheduler) (observedAt dueAt : Int) : Nat :=
  (max 0 (scheduler.wholeMilliseconds (observedAt - dueAt))).toNat

/-- What a batch records of one of its schedules. -/
structure GrantedMember where
  schedule : PollSchedule
  address : String
  coverage : CoverageClass
  dueAt : Int
  claimLatenessMs : Nat
  /-- The priority that the claim leaves on the schedule. -/
  priority : Nat

def leaseIdOf (schedule : PollSchedule) : Option Uuid := schedule.lease.map (·.leaseId)

/-- The schedule with the lease of a batch. -/
def leasedRow (batch : PollBatch) (capacity : CapacityDecision) (member : GrantedMember) :
    PollSchedule :=
  { member.schedule with
    lease := some ⟨batch.id, batch.leaseExpiresAt⟩
    lastStartedAt := some batch.claimedAt
    priority := member.priority
    capacityDecisionId := some capacity.id
    targetIntervalSeconds := some (capacity.plan.targetIntervalSeconds member.coverage)
    effectiveIntervalSeconds := some (capacity.plan.effectiveIntervalSeconds member.coverage)
    updatedAt := batch.claimedAt }

def memberRow (batch : PollBatch) (capacity : CapacityDecision) (member : GrantedMember) :
    PollBatchMember where
  claimedAt := batch.claimedAt
  batchId := batch.id
  tokenId := member.schedule.tokenId
  dueAt := member.dueAt
  lifecycleState := member.schedule.lifecycleState
  coverageClass := some member.coverage
  priority := priorityForCoverage member.coverage
  claimLatenessMs := member.claimLatenessMs
  previousBatchId := leaseIdOf member.schedule
  capacityDecisionId := some capacity.id
  targetIntervalSeconds := some (capacity.plan.targetIntervalSeconds member.coverage)
  effectiveIntervalSeconds := some (capacity.plan.effectiveIntervalSeconds member.coverage)

def memberClaim (capacity : CapacityDecision) (member : GrantedMember) : PollMemberClaim where
  tokenId := member.schedule.tokenId
  address := member.address
  lifecycleState := member.schedule.lifecycleState
  coverageClass := member.coverage
  dueAt := member.dueAt
  claimLatenessMs := member.claimLatenessMs
  previousBatchId := leaseIdOf member.schedule
  capacityDecisionId := capacity.id
  targetIntervalSeconds := capacity.plan.targetIntervalSeconds member.coverage
  effectiveIntervalSeconds := capacity.plan.effectiveIntervalSeconds member.coverage

def newBatch (scheduler : AdaptiveScheduler) (request : PollClaimRequest scheduler.policy)
    (capacity : CapacityDecision) (chain : String) (kind : BatchKind) : PollBatch where
  id := request.batchId
  collectorRunId := request.collectorRunId
  provider := dexScreenerProvider
  chain := chain
  claimedAt := request.now
  leaseExpiresAt := request.now + scheduler.policy.leaseDuration
  reservedRequestCapacity := 1
  kind := kind
  capacityDecisionId := some capacity.id
  configurationSha256 := scheduler.digests.policySha256

/-- Insert a batch and its members and lease their schedules. -/
def grantBatch (batch : PollBatch) (capacity : CapacityDecision) (members : List GrantedMember)
    (store : SchedulerStore) : Except SchedulingError (SchedulerStore × PollBatchClaim) :=
  match store.batches.insert? batch,
      store.members.insertAll? (members.map (memberRow batch capacity)) with
  | some batches, some memberTable =>
    .ok ({ store with
      batches := batches
      members := memberTable
      schedules := store.schedules.write (members.map (leasedRow batch capacity)) },
      { batchId := batch.id
        chain := batch.chain
        claimedAt := batch.claimedAt
        leaseExpiresAt := batch.leaseExpiresAt
        capacityDecisionId := capacity.id
        kind := batch.kind
        members := members.map (memberClaim capacity) })
  | none, _ => .error (.integrity "poll_batches_pkey")
  | some _, none => .error (.integrity "pk_poll_batch_members")

/-! ### Control batches -/

/-- A control scan is due when it is claimed, and leaves the priority as it is. -/
def controlMember (now : Int) (row : PollSchedule × Token) : GrantedMember where
  schedule := row.1
  address := row.2.address
  coverage := .retiredControl
  dueAt := now
  claimLatenessMs := 0
  priority := row.1.priority

def controlWindow (now : Int) : Int := timeBucket now (seconds 60)

def controlClaimed (store : SchedulerStore) (window : Int) : Bool :=
  store.batches.rows.any fun batch => batch.kind.controlWindowStart = some window

/-- `_claim_control_batch`: at most one batch in a window. -/
def claimControlBatch (scheduler : AdaptiveScheduler)
    (request : PollClaimRequest scheduler.policy) (capacity : CapacityDecision)
    (store : SchedulerStore) : Except SchedulingError (SchedulerStore × Option PollBatchClaim) :=
  if controlClaimed store (controlWindow request.now) then .ok (store, none)
  else
    match selectRows (ControlEligible request.now ·) controlOrder
        scheduler.policy.controlScanTokensPerMinute request.locked store with
    | none => .ok (store, none)
    | some (_, []) => .ok (store, none)
    | some (chain, row :: rest) => do
      let granted ← grantBatch (newBatch scheduler request capacity chain
        (.retiredControl (controlWindow request.now))) capacity
        ((row :: rest).map (controlMember request.now)) store
      return (granted.1, some granted.2)

/-! ### Ordinary batches -/

def ordinaryMember (scheduler : AdaptiveScheduler) (now : Int) (row : PollSchedule × Token) :
    Except SchedulingError GrantedMember :=
  match row.1.nextDueAt, row.1.coverageClass with
  | none, _ => .error (.coverageReconstruction
      "an ordinary schedule reached claim selection without a due time")
  | some _, none => .error (.coverageReconstruction
      "an unmapped legacy schedule reached ordinary claim selection")
  | some due, some coverage =>
    .ok ⟨row.1, row.2.address, coverage, due, lateness scheduler now due,
      priorityForCoverage coverage⟩

/-- The ordinary part of `claim_next_batch`; without ordinary work a control batch is tried. -/
def claimOrdinaryBatch (scheduler : AdaptiveScheduler)
    (request : PollClaimRequest scheduler.policy) (capacity : CapacityDecision)
    (store : SchedulerStore) : Except SchedulingError (SchedulerStore × Option PollBatchClaim) :=
  match selectRows (OrdinaryEligible request.now ·) ordinaryOrder scheduler.policy.batchSize
      request.locked store with
  | none => claimControlBatch scheduler request capacity store
  | some (_, []) => .ok (store, none)
  | some (chain, row :: rest) => do
    let members ← (row :: rest).mapM (ordinaryMember scheduler request.now)
    let granted ← grantBatch (newBatch scheduler request capacity chain .ordinary) capacity
      members store
    return (granted.1, some granted.2)

/-- The control batch comes first from half a minute into its window. -/
def claimWithinCapacity (scheduler : AdaptiveScheduler)
    (request : PollClaimRequest scheduler.policy) (capacity : CapacityDecision)
    (store : SchedulerStore) : Except SchedulingError (SchedulerStore × Option PollBatchClaim) :=
  if controlWindow request.now + seconds 30 ≤ request.now then do
    let control ← claimControlBatch scheduler request capacity store
    if control.2.isSome then return control
    else claimOrdinaryBatch scheduler request capacity store
  else claimOrdinaryBatch scheduler request capacity store

/-- `claim_next_batch`. A plan remembered from before an advance is dropped. -/
def claimNextBatch (scheduler : AdaptiveScheduler) (request : PollClaimRequest scheduler.policy)
    (store : SchedulerStore) : Except SchedulingError (SchedulerStore × Option PollBatchClaim) := do
  let advanced ← advanceCoverageTransitions scheduler request.now request.collectorRunId
    request.locked store
  let decided ← capacityDecision scheduler request.now
    (if advanced.2 = 0 then request.cached else none) advanced.1
  if HasBatchCapacity scheduler.policy decided.2.plan.availableRequestsPerMinute decided.1
      request.now then
    claimWithinCapacity scheduler request decided.2 decided.1
  else return (decided.1, none)

/-! ### What a claim can do -/

/-- A granted batch: new, and on schedules that no live lease holds. -/
structure Granted (scheduler : AdaptiveScheduler) (request : PollClaimRequest scheduler.policy)
    (store store' : SchedulerStore) (batch : PollBatch) (capacity : CapacityDecision)
    (members : List GrantedMember) : Prop where
  batch_eq : ∃ chain kind, batch = newBatch scheduler request capacity chain kind
  fresh : store.batches.find? request.batchId = none
  batches : store'.batches.rows = store.batches.rows ++ [batch]
  selected : ∀ member ∈ members, member.schedule ∈ store.schedules.rows
  leaseFree : ∀ member ∈ members, LeaseFree request.now member.schedule
  distinct : (members.map fun member => member.schedule.tokenId).Nodup
  memberRows : store'.members.rows = store.members.rows ++ members.map (memberRow batch capacity)
  frame : store' = { store with
    batches := store'.batches
    members := store'.members
    schedules := store.schedules.write (members.map (leasedRow batch capacity)) }

theorem grantBatch_granted {scheduler : AdaptiveScheduler}
    {request : PollClaimRequest scheduler.policy} {store store' : SchedulerStore}
    {capacity : CapacityDecision} {chain : String} {kind : BatchKind}
    {members : List GrantedMember} {claim : PollBatchClaim}
    (hselected : ∀ member ∈ members, member.schedule ∈ store.schedules.rows)
    (hfree : ∀ member ∈ members, LeaseFree request.now member.schedule)
    (hdistinct : (members.map fun member => member.schedule.tokenId).Nodup)
    (h : grantBatch (newBatch scheduler request capacity chain kind) capacity members store =
      .ok (store', claim)) :
    ∃ batch, Granted scheduler request store store' batch capacity members := by
  unfold grantBatch at h
  split at h
  · next batches memberTable hbatches hmembers =>
    cases h
    obtain ⟨hfresh, hrows⟩ := Table.insert?_eq_some hbatches
    exact ⟨_, ⟨chain, kind, rfl⟩, hfresh, hrows, hselected, hfree, hdistinct,
      Table.rows_insertAll? hmembers, rfl⟩
  · cases h
  · cases h

theorem claimControlBatch_eq_ok {scheduler : AdaptiveScheduler}
    {request : PollClaimRequest scheduler.policy} {capacity : CapacityDecision}
    {store store' : SchedulerStore} {claim : Option PollBatchClaim}
    (h : claimControlBatch scheduler request capacity store = .ok (store', claim)) :
    store' = store ∨
      ∃ batch members, Granted scheduler request store store' batch capacity members := by
  unfold claimControlBatch at h
  split at h
  · cases h
    exact .inl rfl
  · split at h
    · cases h
      exact .inl rfl
    · cases h
      exact .inl rfl
    · next chain row rest hselect =>
      simp only [bind_eq_ok, pure_eq_ok] at h
      obtain ⟨granted, hgranted, hresult⟩ := h
      cases hresult
      have hmem : ∀ member ∈ (row :: rest).map (controlMember request.now),
          member.schedule ∈ store.schedules.rows ∧ LeaseFree request.now member.schedule := by
        intro member hmember
        obtain ⟨selected, hselected, rfl⟩ := List.mem_map.mp hmember
        have hrow := mem_selectRows hselect hselected
        exact ⟨hrow.1, (of_decide_eq_true hrow.2.1).2⟩
      have hdistinct : (((row :: rest).map (controlMember request.now)).map
          fun member => member.schedule.tokenId).Nodup := by
        rw [List.map_map]
        exact selectRows_nodup hselect
      obtain ⟨batch, hbatch⟩ := grantBatch_granted (fun m hm => (hmem m hm).1)
        (fun m hm => (hmem m hm).2) hdistinct hgranted
      exact .inr ⟨batch, _, hbatch⟩

theorem ordinaryMember_schedule {scheduler : AdaptiveScheduler} {now : Int}
    {row : PollSchedule × Token} {member : GrantedMember}
    (h : ordinaryMember scheduler now row = .ok member) : member.schedule = row.1 := by
  unfold ordinaryMember at h
  split at h
  · cases h
  · cases h
  · cases h
    rfl

theorem map_schedule_of_ordinaryMembers {scheduler : AdaptiveScheduler} {now : Int}
    {rows : List (PollSchedule × Token)} {members : List GrantedMember}
    (h : rows.mapM (ordinaryMember scheduler now) = .ok members) :
    members.map (·.schedule) = rows.map (·.1) :=
  (map_eq_of_forall₂ (mapM_eq_ok.mp h) fun _ _ hm => (ordinaryMember_schedule hm).symm).symm

theorem claimOrdinaryBatch_eq_ok {scheduler : AdaptiveScheduler}
    {request : PollClaimRequest scheduler.policy} {capacity : CapacityDecision}
    {store store' : SchedulerStore} {claim : Option PollBatchClaim}
    (h : claimOrdinaryBatch scheduler request capacity store = .ok (store', claim)) :
    store' = store ∨
      ∃ batch members, Granted scheduler request store store' batch capacity members := by
  unfold claimOrdinaryBatch at h
  split at h
  · exact claimControlBatch_eq_ok h
  · cases h
    exact .inl rfl
  · next chain row rest hselect =>
    simp only [bind_eq_ok, pure_eq_ok] at h
    obtain ⟨members, hmembers, granted, hgranted, hresult⟩ := h
    cases hresult
    have hmap := map_schedule_of_ordinaryMembers hmembers
    have hmem : ∀ member ∈ members,
        member.schedule ∈ store.schedules.rows ∧ LeaseFree request.now member.schedule := by
      intro member hmember
      have hin : member.schedule ∈ (row :: rest).map (·.1) := by
        rw [← hmap]
        exact List.mem_map_of_mem hmember
      obtain ⟨selected, hselected, heq⟩ := List.mem_map.mp hin
      have hrow := mem_selectRows hselect hselected
      rw [← heq]
      exact ⟨hrow.1, (of_decide_eq_true hrow.2.1).2.2⟩
    have hdistinct : (members.map fun member => member.schedule.tokenId).Nodup := by
      have hnodup := selectRows_nodup hselect
      have htokens := congrArg (List.map PollSchedule.tokenId) hmap
      rw [List.map_map, List.map_map] at htokens
      exact htokens ▸ hnodup
    obtain ⟨batch, hbatch⟩ := grantBatch_granted (fun m hm => (hmem m hm).1)
      (fun m hm => (hmem m hm).2) hdistinct hgranted
    exact .inr ⟨batch, _, hbatch⟩

/-- The store of a claim before it selects: coverage advanced and capacity decided. -/
structure Prepared (scheduler : AdaptiveScheduler) (now : Int) (store mid : SchedulerStore) :
    Prop where
  refreshed : Table.Related (Relation.ReflTransGen (Refreshed scheduler now)) store.schedules
    mid.schedules
  frame : mid = { store with
    schedules := mid.schedules
    coverageDecisions := mid.coverageDecisions
    capacityDecisions := mid.capacityDecisions }

/-- The two results of a claim: the prepared store, or that store with one granted batch, which
the limits had room for. -/
theorem claimNextBatch_eq_ok {scheduler : AdaptiveScheduler}
    {request : PollClaimRequest scheduler.policy} {store store' : SchedulerStore}
    {claim : Option PollBatchClaim}
    (h : claimNextBatch scheduler request store = .ok (store', claim)) :
    ∃ mid, Prepared scheduler request.now store mid ∧
      (∀ schedule ∈ mid.schedules.rows, schedule.tokenId ∉ request.locked →
        ¬ TransitionDue request.now schedule) ∧
      (store' = mid ∨ ∃ batch capacity members,
        HasBatchCapacity scheduler.policy (scheduledRequests scheduler.policy) mid request.now ∧
        Granted scheduler request mid store' batch capacity members) := by
  simp only [claimNextBatch, bind_eq_ok] at h
  obtain ⟨⟨advancedStore, count⟩, hadvance, ⟨mid, capacity⟩, hcapacity, h⟩ := h
  have hadvanced : AdvancedStore scheduler request.now store advancedStore :=
    advancePages_store hadvance
  have hdone := advanceCoverageTransitions_done hadvance
  obtain ⟨⟨table, rfl⟩, counts, hplan⟩ := capacityDecision_eq_ok hcapacity
  have hprepared : Prepared scheduler request.now store
      { advancedStore with capacityDecisions := table } :=
    ⟨hadvanced.refreshed, by rw [hadvanced.frame]⟩
  refine ⟨_, hprepared, hdone, ?_⟩
  dsimp only at h
  split at h
  · next hroom =>
    rw [availableRequests_of_planCapacity hplan] at hroom
    have hcases : store' = { advancedStore with capacityDecisions := table } ∨
        ∃ batch members, Granted scheduler request
          { advancedStore with capacityDecisions := table } store' batch capacity members := by
      unfold claimWithinCapacity at h
      split at h
      · simp only [bind_eq_ok] at h
        obtain ⟨⟨controlStore, control⟩, hcontrol, h⟩ := h
        cases control with
        | some granted =>
          cases h
          exact claimControlBatch_eq_ok hcontrol
        | none => exact claimOrdinaryBatch_eq_ok h
      · exact claimOrdinaryBatch_eq_ok h
    cases hcases with
    | inl hsame => exact .inl hsame
    | inr hgranted =>
      obtain ⟨batch, members, hbatch⟩ := hgranted
      exact .inr ⟨batch, capacity, members, hroom, hbatch⟩
  · cases h
    exact .inl rfl

end PumpResearch.Scheduling
