import PumpResearch.Collection.DexAvailability
import PumpResearch.Library.Runs

/-! Runs of the DEX availability workflow: admissions, claims and checks by any number of workers,
in any order. The committed checks are kept as a history beside the database. -/
namespace PumpResearch.Collection
open Discovery KeyedOrder KeyedTable RelatedLists Results Runs Utf8

/-! ### Histories -/

/-- A check of one token whose transaction has committed. -/
structure CommittedCheck where
  tokenId : Uuid
  promoted : Bool
deriving DecidableEq

def CommittedCheck.newState (check : CommittedCheck) : AvailabilityState :=
  if check.promoted then .new else .pendingDex

/-- The database, the claims that each lease was drawn for, and the history of checks. -/
structure AvailabilitySystem where
  store : AvailabilityStore
  claimed : Uuid → List DexAvailabilityClaim
  checks : List CommittedCheck

def emptySystem : AvailabilitySystem := ⟨emptyAvailability, fun _ => [], []⟩

def eventsOf (store : AvailabilityStore) (tokenId : Uuid) : List AvailabilityEvent :=
  store.events.rows.filter (·.tokenId = tokenId)

def checksOf (s : AvailabilitySystem) (tokenId : Uuid) : List CommittedCheck :=
  s.checks.filter (·.tokenId = tokenId)

def AvailabilityEvent.transition (event : AvailabilityEvent) :
    Option AvailabilityState × AvailabilityState := (event.previousState, event.newState)

def CommittedCheck.transition (check : CommittedCheck) :
    Option AvailabilityState × AvailabilityState := (some .pendingDex, check.newState)

/-! ### Steps -/

/-- What the checks of a batch do, when they commit. -/
def batchChecks (check : BatchCheck) (claims : List DexAvailabilityClaim)
    (fetched : Except FetchError TokenPairsResult) : List CommittedCheck :=
  match matchedAnswer check claims fetched with
  | .error _ => claims.map fun claim => ⟨claim.tokenId, false⟩
  | .ok batch =>
    (absentClaims check claims batch).map (fun claim => ⟨claim.tokenId, false⟩) ++
      (presentClaims check claims batch).map fun claim => ⟨claim.tokenId, true⟩

/-- The claims of a lease on the chain of a check. -/
def batchClaims (s : AvailabilitySystem) (check : BatchCheck) : List DexAvailabilityClaim :=
  (s.claimed check.leaseId).filter (·.chain = check.chain)

/-- A transaction that commits, or one that is lost with its worker. A worker that stops leaves
its claims, and a check may come at any time after its claim, however often. -/
inductive AvailabilityAction where
  | admission (drawn : Uuid) (event : DiscoveredToken) (runId : Option Uuid)
  | claim (leaseId : Uuid) (now : Int) (limit : Nat) (leaseDuration : Int) (locked : List Uuid)
  | check (check : BatchCheck) (fetched : Except FetchError TokenPairsResult)
  | lost

/-- Identifiers and leases are drawn once. -/
def availabilityStep (s : AvailabilitySystem) : AvailabilityAction → AvailabilitySystem
  | .admission drawn event runId =>
    if s.store.tokens.rows.any (·.id = drawn) then s
    else { s with store := admitDiscoveryInSession drawn event runId s.store }
  | .claim leaseId now limit leaseDuration locked =>
    if s.claimed leaseId ≠ [] then s
    else
      match claimDue now limit leaseDuration leaseId locked s.store with
      | .error _ => s
      | .ok (store, claims) =>
        { s with store, claimed := Function.update s.claimed leaseId claims }
  | .check check fetched =>
    let claims := batchClaims s check
    if claims = [] then s
    else
      match checkClaimBatch check claims fetched s.store with
      | .error _ => s
      | .ok store => { s with store, checks := s.checks ++ batchChecks check claims fetched }
  | .lost => s

/-! ### Completions -/

section Complete
variable {tokenIds : List Uuid} {leaseId : Uuid} {checkedAt nextCheckAt : Int}
  {nextState : AvailabilityState} {store store' : AvailabilityStore}

/-- A task of the batch, or another one. -/
theorem completeTasks_eq_ok
    (h : completeTasks tokenIds leaseId checkedAt nextState nextCheckAt store = .ok store') :
    (∀ tokenId ∈ tokenIds, ∃ task ∈ store.tasks.rows, task.tokenId = tokenId ∧
      task.leaseId = some leaseId ∧ task.state = .pendingDex) ∧
    store'.tokens = store.tokens ∧ store'.events = store.events ∧
    store'.tasks.rows = store.tasks.rows.map fun task =>
      if task.tokenId ∈ tokenIds then completedTask checkedAt nextState nextCheckAt task
      else task := by
  unfold completeTasks at h
  split at h
  · next hempty =>
    cases h
    simp [hempty]
  · dsimp only at h
    split at h
    · cases h
    · next hlength =>
      rw [not_not] at hlength
      have hsel : ∀ task ∈ store.tasks.rows.filter (OwnedBy tokenIds leaseId ·),
          task ∈ store.tasks.rows := fun task htask => (List.mem_filter.mp htask).1
      have hnodup : ((store.tasks.rows.filter (OwnedBy tokenIds leaseId ·)).map
          DexAvailabilityTask.tokenId).Nodup :=
        (List.filter_sublist.map _).nodup store.tasks.nodup
      have hsubset : (store.tasks.rows.filter (OwnedBy tokenIds leaseId ·)).map
          DexAvailabilityTask.tokenId ⊆ tokenIds := by
        intro tokenId htoken
        obtain ⟨task, htask, rfl⟩ := List.mem_map.mp htoken
        exact (of_decide_eq_true (List.mem_filter.mp htask).2).1
      have hperm : ((store.tasks.rows.filter (OwnedBy tokenIds leaseId ·)).map
          DexAvailabilityTask.tokenId).Perm tokenIds :=
        (List.subperm_of_subset hnodup hsubset).perm_of_length_le
          (by rw [List.length_map]; omega)
      have howned : ∀ tokenId ∈ tokenIds, ∃ task ∈ store.tasks.rows, task.tokenId = tokenId ∧
          task.leaseId = some leaseId ∧ task.state = .pendingDex := by
        intro tokenId htoken
        obtain ⟨task, htask, rfl⟩ := List.mem_map.mp (hperm.mem_iff.mpr htoken)
        have hfilter := List.mem_filter.mp htask
        exact ⟨task, hfilter.1, rfl, (of_decide_eq_true hfilter.2).2⟩
      cases h
      refine ⟨howned, rfl, rfl, ?_⟩
      rw [Table.rows_write]
      apply List.map_congr_left
      intro task htask
      have hkey : ∀ task, (completedTask checkedAt nextState nextCheckAt task).tokenId =
          task.tokenId := fun _ => rfl
      rw [Table.written_map hkey store.tasks hsel hnodup htask]
      by_cases hmem : task.tokenId ∈ tokenIds
      · obtain ⟨owned, howned', heq, hrest⟩ := howned task.tokenId hmem
        have hsame : owned = task := store.tasks.eq_of_key_eq howned' htask heq
        subst hsame
        have hin : owned ∈ store.tasks.rows.filter (OwnedBy tokenIds leaseId ·) :=
          List.mem_filter.mpr ⟨htask, decide_eq_true ⟨hmem, hrest⟩⟩
        rw [if_pos hin, if_pos hmem]
      · have hout : task ∉ store.tasks.rows.filter (OwnedBy tokenIds leaseId ·) := fun hin =>
          hmem (of_decide_eq_true (List.mem_filter.mp hin).2).1
        rw [if_neg hout, if_neg hmem]

/-- One task that the lease does not hold any more, and nothing is completed. -/
theorem completeTasks_of_lost {tokenId : Uuid} (htoken : tokenId ∈ tokenIds)
    (hlost : ∀ task ∈ store.tasks.rows, task.tokenId = tokenId → task.leaseId ≠ some leaseId) :
    ∀ store', completeTasks tokenIds leaseId checkedAt nextState nextCheckAt store ≠ .ok store' := by
  intro store' h
  obtain ⟨task, htask, heq, hlease, _⟩ := (completeTasks_eq_ok h).1 tokenId htoken
  exact hlost task htask heq hlease

end Complete

/-! ### Committed checks -/

def AvailabilityEventKey.request? : AvailabilityEventKey → Option RequestKey
  | .initialPending _ => none
  | .retry request _ | .new request _ | .failed request _ => some request

def AvailabilityEventKey.tokenId : AvailabilityEventKey → Uuid
  | .initialPending tokenId | .retry _ tokenId | .new _ tokenId | .failed _ tokenId => tokenId

/-- A task after the checks: untouched, or completed by the one of its token. -/
def Checked (checks : List CommittedCheck) (task task' : DexAvailabilityTask) : Prop :=
  (task' = task ∧ ∀ check ∈ checks, check.tokenId ≠ task.tokenId) ∨
    ∃ check ∈ checks, check.tokenId = task.tokenId ∧ ∃ checkedAt nextCheckAt,
      task' = completedTask checkedAt check.newState nextCheckAt task

/-- An event that a check of the lease records for its token. -/
def RecordedFor (leaseId : Uuid) (check : CommittedCheck) (event : AvailabilityEvent) : Prop :=
  event.tokenId = check.tokenId ∧ event.transition = check.transition ∧
    event.idempotencyKey.tokenId = event.tokenId ∧
    ∃ request, event.idempotencyKey.request? = some request ∧ request.leaseId = leaseId

/-- What a transaction that commits checks under a lease does. -/
structure ChecksCommitted (leaseId : Uuid) (checks : List CommittedCheck)
    (store store' : AvailabilityStore) : Prop where
  tokens : store'.tokens = store.tokens
  owned : ∀ check ∈ checks, ∃ task ∈ store.tasks.rows, task.tokenId = check.tokenId ∧
    task.leaseId = some leaseId ∧ task.state = .pendingDex
  tasks : Table.Related (Checked checks) store.tasks store'.tasks
  events : ∃ events, store'.events.rows = store.events.rows ++ events ∧
    List.Forall₂ (RecordedFor leaseId) checks events

/-- A lease under which an event of a token was recorded no longer holds its task. -/
structure EventsSound (store : AvailabilityStore) : Prop where
  keyed : ∀ event ∈ store.events.rows, event.idempotencyKey.tokenId = event.tokenId
  spent : ∀ event ∈ store.events.rows, ∀ request,
    event.idempotencyKey.request? = some request → ∀ task ∈ store.tasks.rows,
      task.tokenId = event.tokenId → task.leaseId ≠ some request.leaseId

section Committed
variable {leaseId : Uuid} {store mid store' : AvailabilityStore}

/-- Events of new keys are appended. -/
theorem rows_recordLifecycle (events : List AvailabilityEvent) :
    ∀ store : AvailabilityStore, (events.map (·.idempotencyKey)).Nodup →
      (∀ event ∈ events, ∀ stored ∈ store.events.rows,
        stored.idempotencyKey ≠ event.idempotencyKey) →
      (recordLifecycle events store).events.rows = store.events.rows ++ events := by
  induction events with
  | nil =>
    intro store _ _
    simp [recordLifecycle]
  | cons event events ih =>
    intro store hnodup hnew
    rw [List.map_cons, List.nodup_cons] at hnodup
    have hfree : store.events.find? event.idempotencyKey = none :=
      Table.find?_eq_none_iff.mpr (hnew event (by simp))
    have hrows := Table.rows_insertNew_of_find?_eq_none hfree
    have hrest := ih { store with events := store.events.insertNew event } hnodup.2 (by
      intro other hother stored hstored
      rw [hrows] at hstored
      obtain hstored | hstored := List.mem_append.mp hstored
      · exact hnew other (by simp [hother]) stored hstored
      · rw [List.mem_singleton.mp hstored]
        exact fun heq => hnodup.1 (List.mem_map.mpr ⟨other, hother, heq.symm⟩))
    have hunfold : recordLifecycle (event :: events) store =
        recordLifecycle events { store with events := store.events.insertNew event } := rfl
    rw [hunfold, hrest]
    simp [hrows]

/-- One completion and its events. -/
theorem checksCommitted_complete {claims : List DexAvailabilityClaim}
    {checkedAt nextCheckAt : Int} {nextState : AvailabilityState}
    {event : DexAvailabilityClaim → AvailabilityEvent} (promoted : Bool)
    (hstate : nextState = (CommittedCheck.mk 0 promoted).newState)
    (hevent : ∀ claim, RecordedFor leaseId ⟨claim.tokenId, promoted⟩ (event claim))
    (hnodup : (claims.map (·.tokenId)).Nodup)
    (hsound : EventsSound store)
    (h : completeTasks (claims.map (·.tokenId)) leaseId checkedAt nextState nextCheckAt store =
      .ok mid) :
    ChecksCommitted leaseId (claims.map fun claim => ⟨claim.tokenId, promoted⟩) store
      (recordLifecycle (claims.map event) mid) := by
  obtain ⟨howned, htokens, hevents, hrows⟩ := completeTasks_eq_ok h
  refine ⟨htokens, ?_, ?_, claims.map event, ?_, ?_⟩
  · intro check hcheck
    obtain ⟨claim, hclaim, rfl⟩ := List.mem_map.mp hcheck
    exact howned claim.tokenId (List.mem_map.mpr ⟨claim, hclaim, rfl⟩)
  · show List.Forall₂ _ store.tasks.rows mid.tasks.rows
    rw [hrows, List.forall₂_map_right_iff, List.forall₂_same]
    intro task _
    by_cases hmem : task.tokenId ∈ claims.map (·.tokenId)
    · obtain ⟨claim, hclaim, heq⟩ := List.mem_map.mp hmem
      rw [if_pos hmem]
      refine ⟨rfl, .inr ⟨⟨claim.tokenId, promoted⟩, List.mem_map.mpr ⟨claim, hclaim, rfl⟩, heq,
        checkedAt, nextCheckAt, ?_⟩⟩
      rw [hstate]
      rfl
    · rw [if_neg hmem]
      refine ⟨rfl, .inl ⟨rfl, fun check hcheck heq => ?_⟩⟩
      obtain ⟨claim, hclaim, rfl⟩ := List.mem_map.mp hcheck
      exact hmem (List.mem_map.mpr ⟨claim, hclaim, heq⟩)
  · rw [← hevents]
    apply rows_recordLifecycle
    · rw [List.map_map]
      refine List.Nodup.of_map AvailabilityEventKey.tokenId ?_
      rw [List.map_map]
      have hkeys : (AvailabilityEventKey.tokenId ∘ ((·.idempotencyKey) ∘ event)) =
          DexAvailabilityClaim.tokenId := by
        funext claim
        obtain ⟨htoken, _, hkey, _⟩ := hevent claim
        exact hkey.trans htoken
      rw [hkeys]
      exact hnodup
    · intro recorded hrecorded stored hstored heq
      obtain ⟨claim, hclaim, rfl⟩ := List.mem_map.mp hrecorded
      obtain ⟨htoken, _, hkey, request, hrequest, hlease⟩ := hevent claim
      rw [hevents] at hstored
      have hstoredKey := hsound.keyed stored hstored
      rw [heq, hkey, htoken] at hstoredKey
      obtain ⟨task, htask, htaskKey, htaskLease, _⟩ := howned claim.tokenId
        (List.mem_map.mpr ⟨claim, hclaim, rfl⟩)
      exact hsound.spent stored hstored request (heq ▸ hrequest) task htask
        (htaskKey.trans hstoredKey) (hlease ▸ htaskLease)
  · rw [List.forall₂_map_left_iff, List.forall₂_map_right_iff, List.forall₂_same]
    exact fun claim _ => hevent claim

/-- Two completions of different tokens in one transaction. -/
theorem ChecksCommitted.append {checks checks' : List CommittedCheck}
    (h : ChecksCommitted leaseId checks store mid)
    (h' : ChecksCommitted leaseId checks' mid store')
    (hdisjoint : ∀ check ∈ checks, ∀ check' ∈ checks', check.tokenId ≠ check'.tokenId) :
    ChecksCommitted leaseId (checks ++ checks') store store' where
  tokens := h'.tokens.trans h.tokens
  owned check hcheck := by
    obtain hcheck | hcheck := List.mem_append.mp hcheck
    · exact h.owned check hcheck
    · obtain ⟨task', htask', heq, hlease, hstate⟩ := h'.owned check hcheck
      obtain ⟨task, htask, hkey, hchecked⟩ := h.tasks.exists_before htask'
      obtain ⟨hsame, _⟩ | ⟨first, hfirst, hother, _⟩ := hchecked
      · rw [hsame] at heq hlease hstate
        exact ⟨task, htask, heq, hlease, hstate⟩
      · exact absurd (hother.trans (hkey.trans heq)) (hdisjoint first hfirst check hcheck)
  tasks := by
    have hboth : Table.Related (fun task task' => ∃ between, task.tokenId = between.tokenId ∧
        Checked checks task between ∧ Checked checks' between task') store.tasks store'.tasks := by
      have hfirst := h.tasks
      have hsecond := h'.tasks
      unfold Table.Related at hfirst hsecond ⊢
      generalize store.tasks.rows = as at hfirst
      generalize mid.tasks.rows = bs at hfirst hsecond
      generalize store'.tasks.rows = cs at hsecond
      induction hfirst generalizing cs with
      | nil =>
        cases hsecond
        exact .nil
      | cons hab _ ih =>
        cases hsecond with
        | cons hbc hrest =>
          exact .cons ⟨hab.1.trans hbc.1, _, hab.1, hab.2, hbc.2⟩ (ih _ hrest)
    refine hboth.mono fun task task' hrelated => ?_
    obtain ⟨between, hkey, hfirst, hsecond⟩ := hrelated
    obtain ⟨hsame, hnone⟩ | ⟨check, hcheck, heq, at₁, next₁, hdone⟩ := hfirst
    · subst hsame
      obtain ⟨hsame', hnone'⟩ | ⟨check, hcheck, heq, hdone⟩ := hsecond
      · refine .inl ⟨hsame', fun check hcheck => ?_⟩
        obtain hcheck | hcheck := List.mem_append.mp hcheck
        · exact hnone check hcheck
        · exact hnone' check hcheck
      · exact .inr ⟨check, List.mem_append_right _ hcheck, heq, hdone⟩
    · obtain ⟨hsame', _⟩ | ⟨check', hcheck', heq', _⟩ := hsecond
      · exact .inr ⟨check, List.mem_append_left _ hcheck, heq, at₁, next₁, hsame'.trans hdone⟩
      · exact absurd (heq.trans (hkey.trans heq'.symm)) (hdisjoint check hcheck check' hcheck')
  events := by
    obtain ⟨events, hrows, hevents⟩ := h.events
    obtain ⟨events', hrows', hevents'⟩ := h'.events
    exact ⟨events ++ events', by rw [hrows', hrows, List.append_assoc],
      List.rel_append hevents hevents'⟩

theorem ChecksCommitted.eventsSound {checks : List CommittedCheck}
    (h : ChecksCommitted leaseId checks store mid) (hsound : EventsSound store) :
    EventsSound mid := by
  obtain ⟨events, hrows, hevents⟩ := h.events
  constructor
  · intro event hevent
    rw [hrows] at hevent
    obtain hevent | hevent := List.mem_append.mp hevent
    · exact hsound.keyed event hevent
    · obtain ⟨check, _, _, _, hkey, _⟩ := exists_related_left hevents hevent
      exact hkey
  · intro event hevent request hrequest task' htask' heq
    obtain ⟨task, htask, hkey, hchecked⟩ := h.tasks.exists_before htask'
    obtain ⟨hsame, hnone⟩ | ⟨_, _, _, _, _, hdone⟩ := hchecked
    · rw [hrows] at hevent
      obtain hevent | hevent := List.mem_append.mp hevent
      · rw [hsame]
        exact hsound.spent event hevent request hrequest task htask (hkey.trans heq)
      · obtain ⟨check, hcheck, htoken, _⟩ := exists_related_left hevents hevent
        exact absurd (htoken.symm.trans (heq.symm.trans hkey.symm)) (hnone check hcheck)
    · rw [hdone]
      exact fun hlease => by cases hlease

/-- A recorded request leaves the other tables as they are. -/
theorem recordRequest_eq_ok {request : CheckRequest}
    (h : recordRequest request store = .ok store') :
    ∃ requests, store' = { store with requests } := by
  unfold recordRequest at h
  split at h
  · cases h
  · cases h
    exact ⟨_, rfl⟩

theorem ChecksCommitted.of_requests {checks : List CommittedCheck}
    {requests : Table CheckRequest.idempotencyKey}
    (h : ChecksCommitted leaseId checks { store with requests } store') :
    ChecksCommitted leaseId checks store store' := ⟨h.tokens, h.owned, h.tasks, h.events⟩

section Batch
variable {check : BatchCheck} {claims : List DexAvailabilityClaim}

theorem recordedFor_failed (claim : DexAvailabilityClaim) :
    RecordedFor check.leaseId ⟨claim.tokenId, false⟩ (failedEvent check claim) :=
  ⟨rfl, rfl, rfl, check.requestKey true, rfl, rfl⟩

theorem recordedFor_retry (batch : DexBatchResult) (claim : DexAvailabilityClaim) :
    RecordedFor check.leaseId ⟨claim.tokenId, false⟩ (retryEvent check batch claim) :=
  ⟨rfl, rfl, rfl, check.requestKey false, rfl, rfl⟩

theorem recordedFor_new (batch : DexBatchResult) (claim : DexAvailabilityClaim) :
    RecordedFor check.leaseId ⟨claim.tokenId, true⟩ (newEvent check batch claim) :=
  ⟨rfl, rfl, rfl, check.requestKey false, rfl, rfl⟩

theorem mem_claims_of_absent {batch : DexBatchResult} {claim : DexAvailabilityClaim}
    (h : claim ∈ absentClaims check claims batch) : claim ∈ claims := (List.mem_filter.mp h).1

theorem mem_claims_of_present {batch : DexBatchResult} {claim : DexAvailabilityClaim}
    (h : claim ∈ presentClaims check claims batch) : claim ∈ claims := (List.mem_filter.mp h).1

/-- No token of a batch is both absent and present. -/
theorem absent_ne_present {batch : DexBatchResult} (hnodup : (claims.map (·.tokenId)).Nodup)
    {absent present : DexAvailabilityClaim} (habsent : absent ∈ absentClaims check claims batch)
    (hpresent : present ∈ presentClaims check claims batch) : absent.tokenId ≠ present.tokenId := by
  intro heq
  have hsame := List.inj_on_of_nodup_map hnodup (mem_claims_of_absent habsent)
    (mem_claims_of_present hpresent) heq
  subst hsame
  have hnot := of_decide_eq_true (List.mem_filter.mp habsent).2
  exact hnot (of_decide_eq_true (List.mem_filter.mp hpresent).2)

/-- A batch that commits checks every one of its claims. -/
theorem checkClaimBatch_committed {fetched : Except FetchError TokenPairsResult}
    (hnodup : (claims.map (·.tokenId)).Nodup)
    (hsound : EventsSound store)
    (h : checkClaimBatch check claims fetched store = .ok store') :
    ChecksCommitted check.leaseId (batchChecks check claims fetched) store store' := by
  unfold checkClaimBatch at h
  unfold batchChecks
  cases hmatched : matchedAnswer check claims fetched with
  | error error =>
    simp only [hmatched, recordFailedBatch, bind_eq_ok, pure_eq_ok] at h
    obtain ⟨requested, hrequested, completed, hcompleted, rfl⟩ := h
    obtain ⟨requests, rfl⟩ := recordRequest_eq_ok hrequested
    have hsame : EventsSound { store with requests } := ⟨hsound.keyed, hsound.spent⟩
    exact (checksCommitted_complete false rfl recordedFor_failed hnodup hsame
      hcompleted).of_requests
  | ok batch =>
    simp only [hmatched, recordAnsweredBatch, bind_eq_ok, pure_eq_ok] at h
    obtain ⟨requested, hrequested, retried, hretried, promoted, hpromoted, rfl⟩ := h
    obtain ⟨requests, rfl⟩ := recordRequest_eq_ok hrequested
    have hsame : EventsSound { store with requests } := ⟨hsound.keyed, hsound.spent⟩
    have hfirst := (checksCommitted_complete false rfl (recordedFor_retry batch)
      ((List.filter_sublist.map _).nodup hnodup) hsame hretried).of_requests
    have hother : ∀ first ∈ (absentClaims check claims batch).map
        (fun claim => CommittedCheck.mk claim.tokenId false),
        first.tokenId ∉ (presentClaims check claims batch).map (·.tokenId) := by
      intro first hfirst hmem
      obtain ⟨absent, habsent, rfl⟩ := List.mem_map.mp hfirst
      obtain ⟨present, hpresent, heq⟩ := List.mem_map.mp hmem
      exact absent_ne_present hnodup habsent hpresent heq.symm
    have hsecond := checksCommitted_complete true rfl (recordedFor_new batch)
      ((List.filter_sublist.map _).nodup hnodup) (hfirst.eventsSound hsound) hpromoted
    refine hfirst.append hsecond fun first hmem second hmem' heq => ?_
    obtain ⟨present, hpresent, rfl⟩ := List.mem_map.mp hmem'
    exact hother first hmem (List.mem_map.mpr ⟨present, hpresent, heq.symm⟩)

/-- The checks of a batch are those of its claims, one each. -/
theorem batchChecks_perm (check : BatchCheck) (claims : List DexAvailabilityClaim)
    (fetched : Except FetchError TokenPairsResult) :
    ((batchChecks check claims fetched).map (·.tokenId)).Perm (claims.map (·.tokenId)) := by
  unfold batchChecks
  split
  · simp [Function.comp_def]
  · next batch _ =>
    rw [List.map_append, List.map_map, List.map_map]
    have hsplit : (absentClaims check claims batch ++ presentClaims check claims batch).Perm
        claims := by
      have hpartition := List.filter_append_perm (fun claim => decide (Present check batch claim))
        claims
      refine (List.perm_append_comm.trans ?_)
      simpa [absentClaims, presentClaims] using hpartition
    have hids := hsplit.map DexAvailabilityClaim.tokenId
    rw [List.map_append] at hids
    exact hids

end Batch

end Committed

/-! ### Claims -/

section Claims
variable {now : Int} {limit : Nat} {locked : List Uuid} {store : AvailabilityStore}

theorem mem_dueRows {row : DexAvailabilityTask × DiscoveredAddress}
    (h : row ∈ dueRows now limit locked store) :
    row.1 ∈ store.tasks.rows ∧ ClaimableAt now row.1 ∧ row.2.id = row.1.tokenId := by
  have hsorted := (mem_sortOn _ _ _).mp (List.mem_filter.mp (List.mem_of_mem_take h)).1
  have hfilter := List.mem_filter.mp hsorted
  obtain ⟨task, htask, hjoin⟩ := List.mem_filterMap.mp hfilter.1
  obtain ⟨token, htoken, hrow⟩ := Option.map_eq_some_iff.mp hjoin
  subst hrow
  have hid := List.find?_some htoken
  exact ⟨htask, of_decide_eq_true hfilter.2, of_decide_eq_true hid⟩

theorem dueRows_nodup (now : Int) (limit : Nat) (locked : List Uuid) (store : AvailabilityStore) :
    ((dueRows now limit locked store).map fun row => row.1.tokenId).Nodup := by
  refine List.Nodup.sublist (((List.take_sublist _ _).trans List.filter_sublist).map _) ?_
  refine ((sortOn_perm _ _).map _).nodup_iff.mpr ?_
  have hjoined : ((tasksWithTokens store).map fun row => row.1.tokenId).Nodup :=
    nodup_joined store.tasks.nodup _
  exact hjoined.sublist (List.filter_sublist.map _)

/-- A task after a claim: untouched, or leased with its token among the claims. -/
def Leased (leaseId : Uuid) (claims : List DexAvailabilityClaim)
    (task task' : DexAvailabilityTask) : Prop :=
  task' = task ∨ (task.state = .pendingDex ∧ (∃ claim ∈ claims, claim.tokenId = task.tokenId) ∧
    ∃ expiresAt at', task' = leasedTask leaseId expiresAt at' task)

theorem claimDue_eq_ok {leaseDuration : Int} {leaseId : Uuid} {store' : AvailabilityStore}
    {claims : List DexAvailabilityClaim}
    (h : claimDue now limit leaseDuration leaseId locked store = .ok (store', claims)) :
    store'.tokens = store.tokens ∧ store'.events = store.events ∧
      Table.Related (Leased leaseId claims) store.tasks store'.tasks ∧
      (claims.map (·.tokenId)).Nodup := by
  unfold claimDue at h
  split at h
  · cases h
  · split at h
    · cases h
    · cases h
      refine ⟨rfl, rfl, ?_, ?_⟩
      · refine Table.related_write (fun _ _ => .inl rfl) fun leased hleased task htask hkey => ?_
        obtain ⟨row, hrow, rfl⟩ := List.mem_map.mp hleased
        obtain ⟨hstored, hclaimable, _⟩ := mem_dueRows hrow
        have hsame : task = row.1 := store.tasks.eq_of_key_eq htask hstored hkey
        subst hsame
        exact .inr ⟨hclaimable.1, ⟨_, List.mem_map.mpr ⟨row, hrow, rfl⟩, rfl⟩, _, _, rfl⟩
      · rw [List.map_map]
        exact dueRows_nodup now limit locked store

end Claims

/-! ### The invariant -/

/-- The history of one task: its events and its checks, in the order in which they committed. -/
structure TaskHistory (task : DexAvailabilityTask) (events : List AvailabilityEvent)
    (checks : List CommittedCheck) : Prop where
  attempts : task.attemptCount = checks.length
  events : events.map (·.transition) = (none, .pendingDex) :: checks.map (·.transition)
  last : ∀ check ∈ checks.dropLast, check.promoted = false
  state : task.state = .new ↔ ∃ check ∈ checks, check.promoted = true
  leased : task.leaseId.isSome → task.leaseExpiresAt.isSome

structure AvailabilityInvariant (s : AvailabilitySystem) : Prop where
  tokens : (s.store.tokens.rows.map (·.id)).Nodup
  tasks : ∀ token ∈ s.store.tokens.rows, ∃ task ∈ s.store.tasks.rows, task.tokenId = token.id
  known : ∀ task ∈ s.store.tasks.rows, ∃ token ∈ s.store.tokens.rows, token.id = task.tokenId
  history : ∀ task ∈ s.store.tasks.rows,
    TaskHistory task (eventsOf s.store task.tokenId) (checksOf s task.tokenId)
  strangers : ∀ tokenId, (∀ task ∈ s.store.tasks.rows, task.tokenId ≠ tokenId) →
    eventsOf s.store tokenId = [] ∧ checksOf s tokenId = []
  claimed : ∀ leaseId, ((s.claimed leaseId).map (·.tokenId)).Nodup
  issued : ∀ task ∈ s.store.tasks.rows, ∀ leaseId, task.leaseId = some leaseId →
    s.claimed leaseId ≠ []
  drawn : ∀ event ∈ s.store.events.rows, ∀ request,
    event.idempotencyKey.request? = some request → s.claimed request.leaseId ≠ []
  sound : EventsSound s.store

theorem availabilityInvariant_empty : AvailabilityInvariant emptySystem where
  tokens := List.nodup_nil
  tasks _ h := by cases h
  known _ h := by cases h
  history _ h := by cases h
  strangers _ _ := ⟨rfl, rfl⟩
  claimed _ := List.nodup_nil
  issued _ h := by cases h
  drawn _ h := by cases h
  sound := {
    keyed := fun _ h => by cases h
    spent := fun _ h => by cases h }

section Steps
variable {s : AvailabilitySystem}

/-- A token that is admitted again changes nothing; a new one gets its task and its event. -/
theorem admitDiscovery_cases (h : AvailabilityInvariant s) {drawn : Uuid}
    (hdrawn : ∀ token ∈ s.store.tokens.rows, token.id ≠ drawn) (event : DiscoveredToken)
    (runId : Option Uuid) :
    admitDiscoveryInSession drawn event runId s.store = s.store ∨
      ∃ created, created.id = drawn ∧
        (admitDiscoveryInSession drawn event runId s.store).tokens.rows =
          s.store.tokens.rows ++ [created] ∧
        (admitDiscoveryInSession drawn event runId s.store).tasks.rows =
          s.store.tasks.rows ++ [pendingTask drawn event.receivedAt] ∧
        (admitDiscoveryInSession drawn event runId s.store).events.rows =
          s.store.events.rows ++ [initialEvent drawn event runId] := by
  set created : DiscoveredAddress :=
    ⟨drawn, event.chain, event.address, event.sourceEventAt⟩ with hcreated
  cases hfound : s.store.tokens.find? created.identity with
  | some token =>
    left
    obtain ⟨htoken, _⟩ := Table.find?_eq_some_iff.mp hfound
    obtain ⟨task, htask, heq⟩ := h.tasks token htoken
    have hstored : s.store.tasks.find? token.id = some task := heq ▸ Table.find?_key htask
    have htokens : s.store.tokens.insertNew created = s.store.tokens :=
      Table.insertNew_eq_self hfound
    have htasks : s.store.tasks.insertNew (pendingTask token.id event.receivedAt) =
        s.store.tasks := Table.insertNew_eq_self hstored
    simp [admitDiscoveryInSession, ← hcreated, hfound, htokens, htasks, hstored]
  | none =>
    right
    have hfree : s.store.tasks.find? drawn = none := by
      apply Table.find?_eq_none_iff.mpr
      intro task htask heq
      obtain ⟨token, htoken, hid⟩ := h.known task htask
      exact hdrawn token htoken (hid.trans heq)
    have hevents : s.store.events.find? (.initialPending drawn) = none := by
      apply Table.find?_eq_none_iff.mpr
      intro stored hstored heq
      have hkey := h.sound.keyed stored hstored
      rw [heq] at hkey
      have hnone := (h.strangers drawn (Table.find?_eq_none_iff.mp hfree)).1
      exact absurd (decide_eq_true hkey.symm) (List.filter_eq_nil_iff.mp hnone stored hstored)
    refine ⟨created, rfl, Table.rows_insertNew_of_find?_eq_none hfound, ?_, ?_⟩
    · simp only [admitDiscoveryInSession, ← hcreated, hfound, Option.getD_none]
      exact Table.rows_insertNew_of_find?_eq_none hfree
    · simp only [admitDiscoveryInSession, ← hcreated, hfound, Option.getD_none]
      have hnotask : (s.store.tasks.find? created.id).isSome = false := by
        rw [show created.id = drawn from rfl, hfree]
        rfl
      rw [hnotask]
      exact Table.rows_insertNew_of_find?_eq_none hevents

/-- A new token with its pending task and its first event. -/
theorem AvailabilityInvariant.admitted (h : AvailabilityInvariant s) {drawn : Uuid}
    (hdrawn : ∀ token ∈ s.store.tokens.rows, token.id ≠ drawn) (event : DiscoveredToken)
    (runId : Option Uuid) :
    AvailabilityInvariant { s with store := admitDiscoveryInSession drawn event runId s.store } := by
  obtain hsame | ⟨created, hid, htokens, htasks, hevents⟩ :=
    admitDiscovery_cases h hdrawn event runId
  · rw [hsame]
    exact h
  · generalize admitDiscoveryInSession drawn event runId s.store = store at htokens htasks hevents
    have hnew : ∀ task ∈ s.store.tasks.rows, task.tokenId ≠ drawn := by
      intro task htask heq
      obtain ⟨token, htoken, hknown⟩ := h.known task htask
      exact hdrawn token htoken (hknown.trans heq)
    have heventsOf (tokenId : Uuid) : eventsOf store tokenId =
        eventsOf s.store tokenId ++ if drawn = tokenId then [initialEvent drawn event runId]
          else [] := by
      rw [eventsOf, hevents, List.filter_append]
      by_cases heq : drawn = tokenId
      · simp [eventsOf, heq, initialEvent]
      · simp [eventsOf, heq, initialEvent]
    have htask {P : DexAvailabilityTask → Prop} (hold : ∀ task ∈ s.store.tasks.rows, P task)
        (hpending : P (pendingTask drawn event.receivedAt)) : ∀ task ∈ store.tasks.rows, P task := by
      rw [htasks]
      exact List.forall_mem_append.mpr ⟨hold, List.forall_mem_singleton.mpr hpending⟩
    constructor
    · show (store.tokens.rows.map (·.id)).Nodup
      rw [htokens, List.map_append, List.map_singleton, hid, List.nodup_append]
      refine ⟨h.tokens, List.nodup_singleton _, ?_⟩
      intro id hmem other hother heq
      obtain ⟨token, htoken, rfl⟩ := List.mem_map.mp hmem
      exact hdrawn token htoken (heq.trans (List.mem_singleton.mp hother))
    · show ∀ token ∈ store.tokens.rows, ∃ task ∈ store.tasks.rows, task.tokenId = token.id
      rw [htokens, htasks]
      intro token htoken
      obtain htoken | htoken := List.mem_append.mp htoken
      · obtain ⟨task, htask, heq⟩ := h.tasks token htoken
        exact ⟨task, List.mem_append_left _ htask, heq⟩
      · refine ⟨pendingTask drawn event.receivedAt, by simp, ?_⟩
        rw [List.mem_singleton.mp htoken, hid]
        rfl
    · refine htask (fun task hold => ?_) ⟨created, by simp [htokens], hid⟩
      obtain ⟨token, htoken, heq⟩ := h.known task hold
      exact ⟨token, by simp [htokens, htoken], heq⟩
    · refine htask (fun task hold => ?_) ?_
      · have hother := heventsOf task.tokenId
        rw [if_neg (hnew task hold).symm, List.append_nil] at hother
        show TaskHistory task (eventsOf store task.tokenId) (checksOf s task.tokenId)
        rw [hother]
        exact h.history task hold
      · obtain ⟨hnoEvents, hnoChecks⟩ := h.strangers drawn hnew
        have hfirst := heventsOf drawn
        rw [if_pos rfl, hnoEvents, List.nil_append] at hfirst
        show TaskHistory _ (eventsOf store drawn) (checksOf s drawn)
        rw [hfirst, hnoChecks]
        exact ⟨rfl, rfl, by simp, by simp [pendingTask], by simp [pendingTask]⟩
    · intro tokenId hnone
      have hall : ∀ task ∈ s.store.tasks.rows, task.tokenId ≠ tokenId := fun task hold =>
        hnone task (by simp [htasks, hold])
      have hne : drawn ≠ tokenId := hnone (pendingTask drawn event.receivedAt) (by simp [htasks])
      refine ⟨?_, (h.strangers tokenId hall).2⟩
      show eventsOf store tokenId = []
      rw [heventsOf, if_neg hne, List.append_nil]
      exact (h.strangers tokenId hall).1
    · exact h.claimed
    · exact htask h.issued fun leaseId hlease => by cases hlease
    · intro recorded hrecorded request hrequest
      simp only [hevents] at hrecorded
      obtain hrecorded | hrecorded := List.mem_append.mp hrecorded
      · exact h.drawn recorded hrecorded request hrequest
      · rw [List.mem_singleton.mp hrecorded] at hrequest
        cases hrequest
    · constructor
      · show ∀ recorded ∈ store.events.rows, _
        rw [hevents]
        exact List.forall_mem_append.mpr ⟨h.sound.keyed, List.forall_mem_singleton.mpr rfl⟩
      · intro recorded hrecorded request hrequest
        simp only [hevents] at hrecorded
        obtain hrecorded | hrecorded := List.mem_append.mp hrecorded
        · exact htask (h.sound.spent recorded hrecorded request hrequest)
            fun _ hlease => by cases hlease
        · rw [List.mem_singleton.mp hrecorded] at hrequest
          cases hrequest

/-- Due tasks under a lease that was not drawn before. -/
theorem AvailabilityInvariant.leased (h : AvailabilityInvariant s) {leaseId : Uuid}
    {claims : List DexAvailabilityClaim} {store : AvailabilityStore}
    (hfresh : s.claimed leaseId = []) (htokens : store.tokens = s.store.tokens)
    (hevents : store.events = s.store.events)
    (htasks : Table.Related (Leased leaseId claims) s.store.tasks store.tasks)
    (hclaims : (claims.map (·.tokenId)).Nodup) :
    AvailabilityInvariant
      { s with store, claimed := Function.update s.claimed leaseId claims } := by
  have hold : ∀ other, s.claimed other ≠ [] →
      Function.update s.claimed leaseId claims other ≠ [] := by
    intro other hother
    have hne : other ≠ leaseId := fun heq => hother (heq ▸ hfresh)
    rwa [Function.update_of_ne hne]
  constructor
  · show (store.tokens.rows.map (·.id)).Nodup
    rw [htokens]
    exact h.tokens
  · show ∀ token ∈ store.tokens.rows, ∃ task ∈ store.tasks.rows, task.tokenId = token.id
    rw [htokens]
    intro token htoken
    obtain ⟨task, htask, heq⟩ := h.tasks token htoken
    obtain ⟨task', htask', hkey, _⟩ := htasks.exists_after htask
    exact ⟨task', htask', hkey.symm.trans heq⟩
  · intro task' htask'
    obtain ⟨task, htask, hkey, _⟩ := htasks.exists_before htask'
    obtain ⟨token, htoken, heq⟩ := h.known task htask
    exact ⟨token, htokens ▸ htoken, heq.trans hkey⟩
  · intro task' htask'
    obtain ⟨task, htask, hkey, hleased⟩ := htasks.exists_before htask'
    have hhistory := h.history task htask
    show TaskHistory task' (store.events.rows.filter (·.tokenId = task'.tokenId))
      (checksOf s task'.tokenId)
    rw [hevents, ← hkey]
    obtain hsame | ⟨_, _, expiresAt, at', hdone⟩ := hleased
    · rw [hsame]
      exact hhistory
    · rw [hdone]
      exact ⟨hhistory.attempts, hhistory.events, hhistory.last, hhistory.state, fun _ => rfl⟩
  · intro tokenId hnone
    have hall : ∀ task ∈ s.store.tasks.rows, task.tokenId ≠ tokenId := by
      intro task htask heq
      obtain ⟨task', htask', hkey, _⟩ := htasks.exists_after htask
      exact hnone task' htask' (hkey.symm.trans heq)
    refine ⟨?_, (h.strangers tokenId hall).2⟩
    show store.events.rows.filter _ = []
    rw [hevents]
    exact (h.strangers tokenId hall).1
  · intro other
    show ((Function.update s.claimed leaseId claims other).map _).Nodup
    by_cases heq : other = leaseId
    · rw [heq, Function.update_self]
      exact hclaims
    · rw [Function.update_of_ne heq]
      exact h.claimed other
  · intro task' htask' other hlease
    obtain ⟨task, htask, _, hleased⟩ := htasks.exists_before htask'
    obtain hsame | ⟨_, ⟨claim, hclaim, _⟩, expiresAt, at', hdone⟩ := hleased
    · exact hold other (h.issued task htask other (hsame ▸ hlease))
    · rw [hdone] at hlease
      have heq : leaseId = other := Option.some.inj hlease
      show Function.update s.claimed leaseId claims other ≠ []
      rw [← heq, Function.update_self]
      exact List.ne_nil_of_mem hclaim
  · intro event hevent request hrequest
    simp only [hevents] at hevent
    exact hold request.leaseId (h.drawn event hevent request hrequest)
  · constructor
    · intro event hevent
      simp only [hevents] at hevent
      exact h.sound.keyed event hevent
    · intro event hevent request hrequest task' htask' heq
      simp only [hevents] at hevent
      obtain ⟨task, htask, hkey, hleased⟩ := htasks.exists_before htask'
      obtain hsame | ⟨_, _, expiresAt, at', hdone⟩ := hleased
      · rw [hsame]
        exact h.sound.spent event hevent request hrequest task htask (hkey.trans heq)
      · rw [hdone]
        intro hlease
        have hdrawn := h.drawn event hevent request hrequest
        rw [← Option.some.inj hlease] at hdrawn
        exact hdrawn hfresh

/-- One more check of a pending task. -/
theorem TaskHistory.checked {task : DexAvailabilityTask} {events : List AvailabilityEvent}
    {checks : List CommittedCheck} (h : TaskHistory task events checks)
    (hpending : task.state = .pendingDex) {event : AvailabilityEvent} {check : CommittedCheck}
    (htransition : event.transition = check.transition) (checkedAt nextCheckAt : Int) :
    TaskHistory (completedTask checkedAt check.newState nextCheckAt task) (events ++ [event])
      (checks ++ [check]) := by
  have hnone : ∀ earlier ∈ checks, earlier.promoted = false := by
    intro earlier hearlier
    by_contra hpromoted
    have hnew := h.state.mpr ⟨earlier, hearlier, by simpa using hpromoted⟩
    rw [hpending] at hnew
    cases hnew
  constructor
  · simp [completedTask, h.attempts]
  · simp [h.events, htransition]
  · simpa using hnone
  · show check.newState = .new ↔ _
    cases hpromoted : check.promoted with
    | true => simp [CommittedCheck.newState, hpromoted]
    | false => simpa [CommittedCheck.newState, hpromoted] using hnone
  · intro hlease
    cases hlease

/-- The events of a token among those that its checks recorded. -/
theorem recordedFor_token {leaseId : Uuid} {checks : List CommittedCheck}
    {events : List AvailabilityEvent} (h : List.Forall₂ (RecordedFor leaseId) checks events)
    (tokenId : Uuid) :
    List.Forall₂ (RecordedFor leaseId) (checks.filter (·.tokenId = tokenId))
      (events.filter (·.tokenId = tokenId)) := by
  induction h with
  | nil => exact .nil
  | @cons check event checks events hrecorded _ ih =>
    by_cases heq : check.tokenId = tokenId
    · have heq' : event.tokenId = tokenId := hrecorded.1.trans heq
      simpa [heq, heq'] using ⟨hrecorded, ih⟩
    · have heq' : event.tokenId ≠ tokenId := fun h => heq (hrecorded.1.symm.trans h)
      simpa [heq, heq'] using ih

/-- Checks that commit under a drawn lease. -/
theorem AvailabilityInvariant.checked (h : AvailabilityInvariant s) {leaseId : Uuid}
    {checks : List CommittedCheck} {store : AvailabilityStore} (hdrawn : s.claimed leaseId ≠ [])
    (hnodup : (checks.map (·.tokenId)).Nodup)
    (hcommitted : ChecksCommitted leaseId checks s.store store) :
    AvailabilityInvariant { s with store, checks := s.checks ++ checks } := by
  obtain ⟨events, hrows, hevents⟩ := hcommitted.events
  have htasks := hcommitted.tasks
  have heventsOf (tokenId : Uuid) : eventsOf store tokenId =
      eventsOf s.store tokenId ++ events.filter (·.tokenId = tokenId) := by
    rw [eventsOf, hrows, List.filter_append]
    rfl
  have hchecksOf (tokenId : Uuid) :
      checksOf { s with store, checks := s.checks ++ checks } tokenId =
        checksOf s tokenId ++ checks.filter (·.tokenId = tokenId) := List.filter_append ..
  have hnothing {tokenId : Uuid} (hnone : ∀ check ∈ checks, check.tokenId ≠ tokenId) :
      checks.filter (·.tokenId = tokenId) = [] ∧ events.filter (·.tokenId = tokenId) = [] := by
    have hempty : checks.filter (·.tokenId = tokenId) = [] := by
      simpa [List.filter_eq_nil_iff] using hnone
    have hrelated := recordedFor_token hevents tokenId
    rw [hempty, List.forall₂_nil_left_iff] at hrelated
    exact ⟨hempty, hrelated⟩
  constructor
  · show (store.tokens.rows.map (·.id)).Nodup
    rw [hcommitted.tokens]
    exact h.tokens
  · show ∀ token ∈ store.tokens.rows, ∃ task ∈ store.tasks.rows, task.tokenId = token.id
    rw [hcommitted.tokens]
    intro token htoken
    obtain ⟨task, htask, heq⟩ := h.tasks token htoken
    obtain ⟨task', htask', hkey, _⟩ := htasks.exists_after htask
    exact ⟨task', htask', hkey.symm.trans heq⟩
  · intro task' htask'
    obtain ⟨task, htask, hkey, _⟩ := htasks.exists_before htask'
    obtain ⟨token, htoken, heq⟩ := h.known task htask
    exact ⟨token, hcommitted.tokens ▸ htoken, heq.trans hkey⟩
  · intro task' htask'
    obtain ⟨task, htask, hkey, hchecked⟩ := htasks.exists_before htask'
    have hhistory := h.history task htask
    show TaskHistory task' (eventsOf store task'.tokenId) _
    rw [heventsOf, hchecksOf, ← hkey]
    obtain ⟨hsame, hnone⟩ | ⟨check, hcheck, heq, checkedAt, nextCheckAt, hdone⟩ := hchecked
    · obtain ⟨hnoChecks, hnoEvents⟩ := hnothing hnone
      rw [hnoChecks, hnoEvents, hsame, List.append_nil, List.append_nil]
      exact hhistory
    · have honly : checks.filter (·.tokenId = task.tokenId) = [check] := by
        rw [← heq]
        exact filter_key_eq_singleton hnodup hcheck
      have hrelated := recordedFor_token hevents task.tokenId
      rw [honly, List.forall₂_cons_left_iff] at hrelated
      obtain ⟨event, rest, hrecorded, hrest, hfilter⟩ := hrelated
      rw [List.forall₂_nil_left_iff] at hrest
      obtain ⟨owner, howner, hownerKey, _, hpending⟩ := hcommitted.owned check hcheck
      have hsame : owner = task := s.store.tasks.eq_of_key_eq howner htask (hownerKey.trans heq)
      subst hsame
      rw [honly, hfilter, hrest, hdone]
      exact hhistory.checked hpending hrecorded.2.1 checkedAt nextCheckAt
  · intro tokenId hnone
    have hall : ∀ task ∈ s.store.tasks.rows, task.tokenId ≠ tokenId := by
      intro task htask heq
      obtain ⟨task', htask', hkey, _⟩ := htasks.exists_after htask
      exact hnone task' htask' (hkey.symm.trans heq)
    obtain ⟨hnoChecks, hnoEvents⟩ := hnothing fun check hcheck heq => by
      obtain ⟨task, htask, hkey, _⟩ := hcommitted.owned check hcheck
      exact hall task htask (hkey.trans heq)
    constructor
    · show eventsOf store tokenId = []
      rw [heventsOf, hnoEvents, (h.strangers tokenId hall).1, List.append_nil]
    · rw [hchecksOf, hnoChecks, (h.strangers tokenId hall).2, List.append_nil]
  · exact h.claimed
  · intro task' htask' other hlease
    obtain ⟨task, htask, _, hchecked⟩ := htasks.exists_before htask'
    obtain ⟨hsame, _⟩ | ⟨_, _, _, _, _, hdone⟩ := hchecked
    · exact h.issued task htask other (hsame ▸ hlease)
    · rw [hdone] at hlease
      cases hlease
  · intro event hevent request hrequest
    simp only [hrows] at hevent
    obtain hevent | hevent := List.mem_append.mp hevent
    · exact h.drawn event hevent request hrequest
    · obtain ⟨check, _, _, _, _, recorded, hrecorded, hlease⟩ := exists_related_left hevents hevent
      rw [hrequest, Option.some.injEq] at hrecorded
      show s.claimed request.leaseId ≠ []
      rw [hrecorded, hlease]
      exact hdrawn
  · exact hcommitted.eventsSound h.sound

/-- The claims of a batch are of different tokens, under a lease that was drawn. -/
theorem batchClaims_nodup (h : AvailabilityInvariant s) (check : BatchCheck) :
    ((batchClaims s check).map (·.tokenId)).Nodup :=
  (List.filter_sublist.map _).nodup (h.claimed check.leaseId)

theorem AvailabilityInvariant.step (h : AvailabilityInvariant s) (action : AvailabilityAction) :
    AvailabilityInvariant (availabilityStep s action) := by
  cases action with
  | admission drawn event runId =>
    simp only [availabilityStep]
    split
    · exact h
    · next hdrawn =>
      refine h.admitted (fun token htoken heq => hdrawn ?_) event runId
      exact List.any_eq_true.mpr ⟨token, htoken, decide_eq_true heq⟩
  | claim leaseId now limit leaseDuration locked =>
    simp only [availabilityStep]
    split
    · exact h
    · next hfresh =>
      split
      · exact h
      · next store claims hclaimed =>
        obtain ⟨htokens, hevents, htasks, hclaims⟩ := claimDue_eq_ok hclaimed
        exact h.leased (not_not.mp hfresh) htokens hevents htasks hclaims
  | check check fetched =>
    simp only [availabilityStep]
    split
    · exact h
    · next hclaims =>
      split
      · exact h
      · next store hcommitted =>
        have hdrawn : s.claimed check.leaseId ≠ [] := fun hnone => hclaims (by
          rw [batchClaims, hnone, List.filter_nil])
        have hperm := batchChecks_perm check (batchClaims s check) fetched
        exact h.checked hdrawn (hperm.nodup_iff.mpr (batchClaims_nodup h check))
          (checkClaimBatch_committed (batchClaims_nodup h check) h.sound hcommitted)
  | lost => exact h

/-! ### The protocol -/

/-- Every admitted token has one task, whose row tells the history of its events and checks, and
a pending task is claimed by any claim that is late and large enough. -/
structure ProtocolState (s : AvailabilitySystem) : Prop where
  oneTask : ∀ token ∈ s.store.tokens.rows, ∃ task,
    s.store.tasks.rows.filter (·.tokenId = token.id) = [task]
  history : ∀ task ∈ s.store.tasks.rows,
    TaskHistory task (eventsOf s.store task.tokenId) (checksOf s task.tokenId)
  claimable : ∀ task ∈ s.store.tasks.rows, task.state = .pendingDex → ∃ start, ∀ now ≥ start,
    ClaimableAt now task ∧ ∀ limit ≥ s.store.tasks.rows.length, 0 < limit →
      ∀ leaseDuration > 0, ∀ leaseId, ∃ store claims,
        claimDue now limit leaseDuration leaseId [] s.store = .ok (store, claims) ∧
          task.tokenId ∈ claims.map (·.tokenId)

/-- A task that is new stays as it is, and a check whose lease has lost one of its tasks changes
nothing. -/
structure ProtocolStep (s : AvailabilitySystem) (action : AvailabilityAction) : Prop where
  kept : ∀ task ∈ s.store.tasks.rows, ∃ task' ∈ (availabilityStep s action).store.tasks.rows,
    task'.tokenId = task.tokenId ∧ (task.state = .new → task' = task)
  stale : ∀ check fetched, action = .check check fetched → ∀ claim ∈ batchClaims s check,
    (∀ task ∈ s.store.tasks.rows, task.tokenId = claim.tokenId →
      task.leaseId ≠ some check.leaseId) → availabilityStep s action = s

theorem AvailabilityInvariant.protocolState (h : AvailabilityInvariant s) : ProtocolState s where
  oneTask token htoken := by
    obtain ⟨task, htask, heq⟩ := h.tasks token htoken
    exact ⟨task, heq ▸ filter_key_eq_singleton s.store.tasks.nodup htask⟩
  history := h.history
  claimable task htask hpending := by
    refine ⟨max task.nextCheckAt (task.leaseExpiresAt.getD 0), fun now hnow => ?_⟩
    have hclaimable : ClaimableAt now task := by
      refine ⟨hpending, (le_max_left _ _).trans hnow, ?_⟩
      cases hlease : task.leaseId with
      | none => exact .inl rfl
      | some leaseId =>
        right
        obtain ⟨expiresAt, hexpires⟩ := Option.isSome_iff_exists.mp
          ((h.history task htask).leased (by rw [hlease]; rfl))
        refine ⟨expiresAt, hexpires, ?_⟩
        rw [hexpires, Option.getD_some] at hnow
        exact (le_max_right _ _).trans hnow
    refine ⟨hclaimable, fun limit hlimit hpos leaseDuration hduration leaseId => ?_⟩
    obtain ⟨token, htoken, hid⟩ := h.known task htask
    obtain ⟨found, hfound⟩ : ∃ found,
        s.store.tokens.rows.find? (fun token => token.id = task.tokenId) = some found := by
      rw [← Option.isSome_iff_exists, List.find?_isSome]
      exact ⟨token, htoken, decide_eq_true hid⟩
    have hjoined : (task, found) ∈ tasksWithTokens s.store :=
      List.mem_filterMap.mpr ⟨task, htask, by rw [hfound, Option.map_some]⟩
    have hdue : (task, found) ∈ dueRows now limit [] s.store := by
      have hlength : ((sortOn dueOrder ((tasksWithTokens s.store).filter
          fun row => ClaimableAt now row.1)).filter fun row => row.1.tokenId ∉ []).length ≤
            limit := by
        refine (List.length_filter_le _ _).trans ?_
        rw [(sortOn_perm _ _).length_eq]
        exact (List.length_filter_le _ _).trans ((List.length_filterMap_le _ _).trans hlimit)
      rw [dueRows, List.take_of_length_le hlength]
      refine List.mem_filter.mpr ⟨(mem_sortOn _ _ _).mpr ?_, by simp⟩
      exact List.mem_filter.mpr ⟨hjoined, decide_eq_true hclaimable⟩
    have hclaim : claimDue now limit leaseDuration leaseId [] s.store = .ok
        ({ s.store with tasks := s.store.tasks.write ((dueRows now limit [] s.store).map
            fun row => leasedTask leaseId (now + leaseDuration) now row.1) },
          (dueRows now limit [] s.store).map
            fun row => ⟨row.1.tokenId, row.2.chain, row.2.address, leaseId⟩) := by
      rw [claimDue, if_neg (by omega), if_neg (by omega)]
    refine ⟨_, _, hclaim, ?_⟩
    rw [List.map_map]
    exact List.mem_map.mpr ⟨(task, found), hdue, rfl⟩

theorem AvailabilityInvariant.protocolStep (h : AvailabilityInvariant s)
    (action : AvailabilityAction) : ProtocolStep s action where
  kept := by
    have hsame : ∀ task ∈ s.store.tasks.rows, ∃ task' ∈ s.store.tasks.rows,
        task'.tokenId = task.tokenId ∧ (task.state = .new → task' = task) :=
      fun task htask => ⟨task, htask, rfl, fun _ => rfl⟩
    cases action with
    | admission drawn event runId =>
      simp only [availabilityStep]
      split
      · exact hsame
      · next hdrawn =>
        have hfresh : ∀ token ∈ s.store.tokens.rows, token.id ≠ drawn := fun token htoken heq =>
          hdrawn (List.any_eq_true.mpr ⟨token, htoken, decide_eq_true heq⟩)
        obtain hunchanged | ⟨_, _, _, htasks, _⟩ := admitDiscovery_cases h hfresh event runId
        · rw [hunchanged]
          exact hsame
        · intro task htask
          exact ⟨task, by simp [htasks, htask], rfl, fun _ => rfl⟩
    | claim leaseId now limit leaseDuration locked =>
      simp only [availabilityStep]
      split
      · exact hsame
      · split
        · exact hsame
        · next store claims hclaimed =>
          obtain ⟨_, _, htasks, _⟩ := claimDue_eq_ok hclaimed
          intro task htask
          obtain ⟨task', htask', hkey, hleased⟩ := htasks.exists_after htask
          refine ⟨task', htask', hkey.symm, fun hnew => ?_⟩
          obtain hunchanged | ⟨hpending, _⟩ := hleased
          · exact hunchanged
          · rw [hnew] at hpending
            cases hpending
    | check check fetched =>
      simp only [availabilityStep]
      split
      · exact hsame
      · split
        · exact hsame
        · next store hok =>
          have hcommitted := checkClaimBatch_committed (batchClaims_nodup h check) h.sound hok
          intro task htask
          obtain ⟨task', htask', hkey, hchecked⟩ := hcommitted.tasks.exists_after htask
          refine ⟨task', htask', hkey.symm, fun hnew => ?_⟩
          obtain ⟨hunchanged, _⟩ | ⟨done, hdone, heq, _⟩ := hchecked
          · exact hunchanged
          · obtain ⟨owner, howner, hownerKey, _, hpending⟩ := hcommitted.owned done hdone
            have hthis : owner = task :=
              s.store.tasks.eq_of_key_eq howner htask (hownerKey.trans heq)
            rw [hthis, hnew] at hpending
            cases hpending
    | lost => exact hsame
  stale := by
    intro check fetched haction claim hclaim hlost
    subst haction
    simp only [availabilityStep]
    split
    · rfl
    · split
      · rfl
      · next store hok =>
        exfalso
        have hcommitted := checkClaimBatch_committed (batchClaims_nodup h check) h.sound hok
        have hchecked := (batchChecks_perm check (batchClaims s check) fetched).mem_iff.mpr
          (List.mem_map.mpr ⟨claim, hclaim, rfl⟩)
        obtain ⟨done, hdone, heq⟩ := List.mem_map.mp hchecked
        obtain ⟨task, htask, hkey, hlease, _⟩ := hcommitted.owned done hdone
        exact hlost task htask (hkey.trans heq) hlease

end Steps

/-- The protocol holds in every state and at every step of every run. -/
theorem dex_availability_protocol (actions : List AvailabilityAction) :
    Always availabilityStep ProtocolState emptySystem actions ∧
      Steps availabilityStep ProtocolStep emptySystem actions := by
  have hall : Steps availabilityStep (fun _ _ => True) emptySystem actions :=
    steps_of_forall fun _ _ => trivial
  have hstep : ∀ s action, AvailabilityInvariant s → True →
      AvailabilityInvariant (availabilityStep s action) := fun s action h _ => h.step action
  constructor
  · exact (always_of_invariant hstep hall availabilityInvariant_empty).mono fun s h =>
      h.protocolState
  · exact steps_of_invariant hstep (fun s action h _ => h.protocolStep action) hall
      availabilityInvariant_empty

end PumpResearch.Collection
