import PumpResearch.Scheduling.System

/-! The two limits on poll batches, over all runs. The in-flight limit holds at every instant.
The request budget of a minute holds while no claim commits with a clock reading from before a
batch that is already stored. -/
namespace PumpResearch.Scheduling
open Candidates KeyedTable Results Runs
variable {d : Deployment}

/-! ### In-flight batches -/

/-- Batches without an outcome whose lease covers an instant. -/
def liveBatches (store : SchedulerStore) (t : Int) : Nat :=
  store.batches.rows.countP fun batch =>
    store.outcomes.find? batch.id = none ∧ batch.claimedAt ≤ t ∧ t < batch.leaseExpiresAt

def InFlightBounded (policy : AdaptivePollingPolicy) (store : SchedulerStore) : Prop :=
  ∀ t, liveBatches store t ≤ policy.maxInFlightBatches

/-- A batch live at an instant from the claim's clock on is counted by the claim. -/
theorem liveBatches_le_inFlight (store : SchedulerStore) {now t : Int} (h : now ≤ t) :
    liveBatches store t ≤ store.batches.rows.countP (InFlight store now ·) := by
  apply List.countP_mono_left
  intro batch _ hlive
  rw [decide_eq_true_eq] at hlive ⊢
  exact ⟨hlive.1, h.trans_lt hlive.2.2⟩

theorem liveBatches_granted {scheduler : AdaptiveScheduler}
    {request : PollClaimRequest scheduler.policy} {store store' : SchedulerStore}
    {batch : PollBatch} {capacity : CapacityDecision} {members : List GrantedMember}
    (h : Granted scheduler request store store' batch capacity members) (t : Int) :
    liveBatches store' t ≤ liveBatches store t + if request.now ≤ t then 1 else 0 := by
  obtain ⟨chain, kind, rfl⟩ := h.batch_eq
  rw [liveBatches, h.batches, h.outcomes_eq, List.countP_append, List.countP_singleton]
  by_cases ht : request.now ≤ t
  · rw [if_pos ht, liveBatches]
    split <;> omega
  · rw [if_neg ht, if_neg (by simp [newBatch, ht]), liveBatches]

theorem inFlightBounded_granted {scheduler : AdaptiveScheduler}
    {request : PollClaimRequest scheduler.policy} {store store' : SchedulerStore}
    {batch : PollBatch} {capacity : CapacityDecision} {members : List GrantedMember} {budget : Int}
    (h : InFlightBounded scheduler.policy store)
    (hroom : HasBatchCapacity scheduler.policy budget store request.now)
    (hgrant : Granted scheduler request store store' batch capacity members) :
    InFlightBounded scheduler.policy store' := by
  intro t
  have hcount := liveBatches_granted hgrant t
  by_cases ht : request.now ≤ t
  · have hlive := liveBatches_le_inFlight store ht
    have hlimit := hroom.1
    rw [if_pos ht] at hcount
    omega
  · have hbefore := h t
    rw [if_neg ht] at hcount
    omega

theorem liveBatches_completed {scheduler : AdaptiveScheduler} {request : PollCompletionRequest}
    {store store' : SchedulerStore} {batch : PollBatch} {row : PollBatchOutcome}
    {rows : List PollSchedule} (h : Completed scheduler request store store' batch row rows)
    (t : Int) : liveBatches store' t ≤ liveBatches store t := by
  rw [liveBatches, h.batches_eq.1]
  apply List.countP_mono_left
  intro other _ hlive
  rw [decide_eq_true_eq] at hlive ⊢
  refine ⟨?_, hlive.2⟩
  rw [Table.find?_eq_none_iff] at hlive ⊢
  intro outcome houtcome
  exact hlive.1 outcome (h.outcomes ▸ List.mem_append_left _ houtcome)

theorem inFlightBounded_effect {scheduler : AdaptiveScheduler} {store store' : SchedulerStore}
    (h : InFlightBounded scheduler.policy store) (heffect : BatchEffect scheduler store store') :
    InFlightBounded scheduler.policy store' := by
  cases heffect with
  | kept batches members outcomes =>
    intro t
    rw [liveBatches, batches, outcomes]
    exact h t
  | granted request mid batch capacity members prepare room grant =>
    obtain ⟨hbatches, _, houtcomes⟩ := prepare.batches_eq
    have hmid : InFlightBounded scheduler.policy mid := by
      intro t
      rw [liveBatches, hbatches, houtcomes]
      exact h t
    exact inFlightBounded_granted hmid room grant
  | completed request batch row rows complete =>
    exact fun t => (liveBatches_completed complete t).trans (h t)

/-- In every state of a run that starts without batches, the batches without an outcome whose
lease covers an instant are at most the configured number, at every instant. -/
theorem in_flight_bounded (d : Deployment) (s : SchedulerSystem d)
    (hstart : s.store.batches = Table.empty) (actions : List (SystemAction d)) :
    Always systemStep (fun s => ∀ t, liveBatches s.store t ≤
      d.scheduler.policy.maxInFlightBatches) s actions := by
  have hinitial : InFlightBounded d.scheduler.policy s.store := by
    intro t
    simp [liveBatches, hstart]
  refine always_of_kept (I := fun s : SchedulerSystem d =>
    InFlightBounded d.scheduler.policy s.store) ?_ hinitial actions
  exact store_invariant fun _ _ _ _ _ hstore heffect =>
    inFlightBounded_effect hstore heffect.batchEffect

/-- The two batches of two claims in turn. -/
theorem in_flight_bounded_two :
    Always systemStep (fun s => ∀ t, liveBatches s.store t ≤
      sampleDeployment.scheduler.policy.maxInFlightBatches) sampleSystem
      (activateTwo ++ [.tick 90000000] ++ promptly (claimCall 11) ++ [.tick 60000000] ++
        promptly (claimCall 12)) :=
  in_flight_bounded sampleDeployment sampleSystem rfl _

/-! ### The request budget -/

/-- Batches claimed in the minute that ends at an instant. -/
def claimedInMinute (store : SchedulerStore) (t : Int) : Nat :=
  store.batches.rows.countP fun batch => t - seconds 60 < batch.claimedAt ∧ batch.claimedAt ≤ t

/-- Batches as claims write them: one request each, to the one provider. -/
def SingleRequests (store : SchedulerStore) : Prop :=
  ∀ batch ∈ store.batches.rows,
    batch.provider = dexScreenerProvider ∧ batch.reservedRequestCapacity = 1

structure WithinBudget (policy : AdaptivePollingPolicy) (store : SchedulerStore) : Prop where
  single : SingleRequests store
  bounded : ∀ t, (claimedInMinute store t : Int) ≤ scheduledRequests policy

/-- The reserved requests of a minute are the batches claimed in it. -/
theorem reservedRequests_eq {store : SchedulerStore} (h : SingleRequests store) (now : Int) :
    reservedRequests store now = claimedInMinute store now := by
  have hcount : ∀ rows : List PollBatch, (∀ batch ∈ rows, batch.provider = dexScreenerProvider ∧
      batch.reservedRequestCapacity = 1) →
      ((rows.filter fun batch => batch.provider = dexScreenerProvider ∧
        now - seconds 60 < batch.claimedAt ∧ batch.claimedAt ≤ now).map
          (·.reservedRequestCapacity)).sum =
      rows.countP fun batch => now - seconds 60 < batch.claimedAt ∧ batch.claimedAt ≤ now := by
    intro rows hrows
    induction rows with
    | nil => rfl
    | cons batch rest ih =>
      obtain ⟨hprovider, hone⟩ := hrows batch List.mem_cons_self
      have htail := ih fun b hb => hrows b (List.mem_cons_of_mem _ hb)
      rw [List.countP_cons, ← htail, List.filter_cons]
      by_cases hin : now - seconds 60 < batch.claimedAt ∧ batch.claimedAt ≤ now
      · simp only [hprovider, hin, and_self, decide_true, if_true, List.map_cons, List.sum_cons,
          hone]
        omega
      · simp only [hprovider, hin, and_false, decide_false, Bool.false_eq_true, if_false]
        omega
  exact hcount store.batches.rows h

/-- No stored batch was claimed within the minute after an instant. -/
def NoneLater (store : SchedulerStore) (now : Int) : Prop :=
  ∀ batch ∈ store.batches.rows, ¬ (now < batch.claimedAt ∧ batch.claimedAt < now + seconds 60)

instance decidableNoneLater (store : SchedulerStore) (now : Int) :
    Decidable (NoneLater store now) :=
  inferInstanceAs (Decidable (∀ batch ∈ store.batches.rows, ¬ (_ ∧ _)))

/-- A claim that the limits let through sees every batch that shares a minute with it. -/
def CallSeesMinute (store : SchedulerStore) (now : Int) : Call d → Prop
  | .claimNextBatch .. =>
    HasBatchCapacity d.scheduler.policy (scheduledRequests d.scheduler.policy) store now →
      NoneLater store now
  | .completeBatch .. | .initializeEpoch _ | .setLifecycleState _ | .applyEvaluation _ => True

instance decidableCallSeesMinute (store : SchedulerStore) (now : Int) :
    (call : Call d) → Decidable (CallSeesMinute store now call)
  | .claimNextBatch .. => inferInstanceAs (Decidable (HasBatchCapacity _ _ _ _ → NoneLater _ _))
  | .completeBatch .. | .initializeEpoch _ | .setLifecycleState _ | .applyEvaluation _ =>
    .isTrue trivial

def ClaimSeesMinute (s : SchedulerSystem d) : SystemAction d → Prop
  | .commit position => ∀ entry ∈ s.waiting[position]?, CallSeesMinute s.store entry.1 entry.2
  | .tick _ | .start _ => True

instance decidableClaimSeesMinute (s : SchedulerSystem d) :
    (action : SystemAction d) → Decidable (ClaimSeesMinute s action)
  | .commit position => inferInstanceAs (Decidable (∀ entry ∈ s.waiting[position]?, _))
  | .tick _ | .start _ => .isTrue trivial

/-- Past the claim's clock, a minute that contains it holds no batch that it did not count. -/
theorem claimedInMinute_le {store : SchedulerStore} {now t : Int} (h : NoneLater store now)
    (hle : now ≤ t) (hlt : t < now + seconds 60) :
    claimedInMinute store t ≤ claimedInMinute store now := by
  apply List.countP_mono_left
  intro batch hbatch hin
  rw [decide_eq_true_eq] at hin ⊢
  have hlater := h batch hbatch
  omega

theorem claimedInMinute_granted {scheduler : AdaptiveScheduler}
    {request : PollClaimRequest scheduler.policy} {store store' : SchedulerStore}
    {batch : PollBatch} {capacity : CapacityDecision} {members : List GrantedMember}
    (h : Granted scheduler request store store' batch capacity members) (t : Int) :
    claimedInMinute store' t = claimedInMinute store t +
      if t - seconds 60 < request.now ∧ request.now ≤ t then 1 else 0 := by
  obtain ⟨chain, kind, rfl⟩ := h.batch_eq
  simp only [claimedInMinute, h.batches, List.countP_append, List.countP_singleton, newBatch,
    decide_eq_true_eq]

theorem withinBudget_granted {scheduler : AdaptiveScheduler}
    {request : PollClaimRequest scheduler.policy} {store store' : SchedulerStore}
    {batch : PollBatch} {capacity : CapacityDecision} {members : List GrantedMember}
    (h : WithinBudget scheduler.policy store)
    (hroom : HasBatchCapacity scheduler.policy (scheduledRequests scheduler.policy) store
      request.now)
    (hlater : NoneLater store request.now)
    (hgrant : Granted scheduler request store store' batch capacity members) :
    WithinBudget scheduler.policy store' where
  single := by
    intro other hother
    rw [hgrant.batches] at hother
    cases List.mem_append.mp hother with
    | inl hold => exact h.single other hold
    | inr hnew =>
      obtain ⟨chain, kind, hbatch⟩ := hgrant.batch_eq
      rw [List.mem_singleton.mp hnew, hbatch]
      exact ⟨rfl, rfl⟩
  bounded t := by
    rw [claimedInMinute_granted hgrant]
    by_cases hin : t - seconds 60 < request.now ∧ request.now ≤ t
    · have hcounted := claimedInMinute_le hlater hin.2 (by omega)
      have hreserved := hroom.2
      rw [reservedRequests_eq h.single] at hreserved
      rw [if_pos hin]
      omega
    · rw [if_neg hin, Nat.add_zero]
      exact h.bounded t

theorem WithinBudget.congr {policy : AdaptivePollingPolicy} {store store' : SchedulerStore}
    (h : WithinBudget policy store) (hbatches : store'.batches = store.batches) :
    WithinBudget policy store' where
  single := by
    unfold SingleRequests
    rw [hbatches]
    exact h.single
  bounded t := by
    rw [claimedInMinute, hbatches]
    exact h.bounded t

theorem withinBudget_step (s : SchedulerSystem d) (action : SystemAction d)
    (h : WithinBudget d.scheduler.policy s.store) (hsees : ClaimSeesMinute s action) :
    WithinBudget d.scheduler.policy (systemStep s action).store := by
  cases systemStep_store s action with
  | inl hsame => rwa [hsame]
  | inr hcommit =>
    obtain ⟨position, now, call, rfl, hwaiting, heffect⟩ := hcommit
    generalize hafter : (systemStep s (.commit position)).store = store' at heffect ⊢
    cases heffect with
    | granted collectorRunId cached locked batchId mid _ batch capacity members prepare room grant =>
      obtain ⟨hbatches, _, houtcomes⟩ := prepare.batches_eq
      have hroom : HasBatchCapacity d.scheduler.policy (scheduledRequests d.scheduler.policy)
          s.store now := by
        simp only [HasBatchCapacity, InFlight, reservedRequests, hbatches, houtcomes] at room ⊢
        exact room
      have hlater : NoneLater mid now := by
        rw [NoneLater, hbatches]
        exact hsees _ hwaiting hroom
      exact withinBudget_granted (h.congr hbatches) room hlater grant
    | kept => exact h
    | prepared collectorRunId cached locked batchId mid prepare =>
      exact h.congr prepare.batches_eq.1
    | completed batchId outcome apiRequestLogId failureDetail _ batch row rows complete =>
      exact h.congr complete.batches_eq.1
    | epochStarted request _ started =>
      rw [started.frame]
      exact h.congr rfl
    | lifecycleSet request _ set =>
      cases set with
      | kept => exact h
      | refreshed task rows evidence stored renewed token => exact h.congr rfl
      | placed row flushed capacityDecisions evidence decisions current written token flushedToken =>
        exact h.congr rfl
    | evaluated call table effect => exact h.congr rfl

/-- In every state of a run without batches at the start, whose claims see every batch of the
minutes they share, no minute holds more batches than the available requests. -/
theorem request_budget_kept (d : Deployment) (s : SchedulerSystem d)
    (hstart : s.store.batches = Table.empty) (actions : List (SystemAction d))
    (hsees : Steps systemStep ClaimSeesMinute s actions) :
    Always systemStep (fun s => ∀ t, (claimedInMinute s.store t : Int) ≤
      scheduledRequests d.scheduler.policy) s actions := by
  have hinitial : WithinBudget d.scheduler.policy s.store :=
    ⟨by simp [SingleRequests, hstart], fun t => by
      simp [claimedInMinute, hstart, (scheduledRequests_pos d.scheduler.policy).le]⟩
  exact (always_of_invariant (I := fun s : SchedulerSystem d =>
    WithinBudget d.scheduler.policy s.store) withinBudget_step hsees hinitial).mono
      fun _ h => h.bounded

/-- Two claims a minute apart, in the order of their clocks. -/
theorem request_budget_kept_two :
    Always systemStep (fun s => ∀ t, (claimedInMinute s.store t : Int) ≤
      scheduledRequests sampleDeployment.scheduler.policy) sampleSystem
      (activateTwo ++ [.tick 90000000] ++ promptly (claimCall 11) ++ [.tick 60000000] ++
        promptly (claimCall 12)) :=
  request_budget_kept sampleDeployment sampleSystem rfl _ (by decide +kernel)

/-- A claim that read the clock at 90 s commits after one that read it at 100 s and does not
count it: two batches in a minute that has one request. -/
theorem stale_claim_exceeds_budget :
    ¬ ∀ (d : Deployment) (s : SchedulerSystem d), s.store.batches = Table.empty →
      ∀ actions : List (SystemAction d),
      Always systemStep (fun s => ∀ t, (claimedInMinute s.store t : Int) ≤
        scheduledRequests d.scheduler.policy) s actions := by
  intro h
  have hkept := (h sampleDeployment sampleSystem rfl
    (activateTwo ++ [.tick 90000000, .start (claimCall 11), .tick 10000000,
      .start (claimCall 12), .commit 1, .commit 0])).final (seconds 100)
  exact absurd hkept (by decide +kernel)

end PumpResearch.Scheduling
