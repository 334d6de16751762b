import PumpResearch.Scheduling.System

/-! The lease protocol of poll batches over all runs: who may take a token over, which batches
can still complete, and what the attempt count of a schedule counts. -/
namespace PumpResearch.Scheduling
open Candidates KeyedTable Results Runs
variable {d : Deployment}

/-! ### What calls do to leases -/

/-- A schedule that keeps its lease and its attempts. -/
def SameLease (before after : PollSchedule) : Prop :=
  after.lease = before.lease ∧ after.attemptCount = before.attemptCount

theorem SameLease.refl (schedule : PollSchedule) : SameLease schedule schedule := ⟨rfl, rfl⟩

theorem SameLease.trans {a b c : PollSchedule} (h : SameLease a b) (h' : SameLease b c) :
    SameLease a c := ⟨h'.1.trans h.1, h'.2.trans h.2⟩

theorem Refreshed.sameLease {scheduler : AdaptiveScheduler} {now : Int}
    {schedule row : PollSchedule} (h : Refreshed scheduler now schedule row) :
    SameLease schedule row := by
  cases h with
  | kept => exact .refl _
  | renewed projection coverage boundary mapped classified bounded => exact ⟨rfl, rfl⟩

theorem sameLease_of_refreshes {scheduler : AdaptiveScheduler} {now : Int}
    {schedule row : PollSchedule}
    (h : Relation.ReflTransGen (Refreshed scheduler now) schedule row) :
    SameLease schedule row := by
  induction h with
  | refl => exact .refl _
  | tail _ hstep ih => exact ih.trans hstep.sameLease

theorem Prepared.sameLease {scheduler : AdaptiveScheduler} {now : Int}
    {store mid : SchedulerStore} (h : Prepared scheduler now store mid) :
    Table.Related SameLease store.schedules mid.schedules :=
  h.refreshed.mono fun _ _ => sameLease_of_refreshes

theorem Rebased.unleased {scheduler : AdaptiveScheduler} {request : EpochRequest scheduler.policy}
    {store : SchedulerStore} {schedule row : PollSchedule}
    (h : Rebased scheduler request store schedule row) :
    row.lease = none ∧ row.attemptCount = schedule.attemptCount := by
  cases h with
  | mk capacity admittedAt coverage boundary classified bounded admitted => exact ⟨rfl, rfl⟩

theorem Polled.unleased {scheduler : AdaptiveScheduler} {completedAt : Int}
    {task row : PollSchedule} (h : Polled scheduler completedAt task row) :
    row.lease = none ∧ row.attemptCount = task.attemptCount + 1 := by
  cases h with
  | mk batch intervals member coverage boundary projection mapped classified bounded =>
    exact ⟨rfl, rfl⟩

theorem rescheduled_sameLease {policy : CandidatePolicy} {now : Int} {target : CandidateTier}
    {expires : Option Int} {tierEventId : Uuid} {schedule schedule' : PollSchedule}
    (h : rescheduled policy now target expires tierEventId schedule = .ok schedule') :
    SameLease schedule schedule' := by
  cases rescheduled_eq_ok h with
  | cleared => exact ⟨rfl, rfl⟩
  | renewed overlay until_eq => exact ⟨rfl, rfl⟩
  | kept => exact ⟨rfl, rfl⟩

/-- How a schedule may change outside of claims and completions. -/
inductive LeaseKept (before after : PollSchedule) : Prop
  | same (kept : SameLease before after)
  | cleared (unleased : after.lease = none) (attempts : after.attemptCount = before.attemptCount)

/-- A schedule created outside of claims and completions. -/
def FirstRow (table : ScheduleTable) (schedule : PollSchedule) : Prop :=
  table.find? schedule.tokenId = none ∧ schedule.lease = none ∧ schedule.attemptCount = 0

/-- Outside of claims and completions, schedules keep their place, keep or lose their lease, and
keep their attempts; a new schedule has neither. -/
structure SchedulesKept (table table' : ScheduleTable) : Prop where
  stays : ∀ schedule ∈ table.rows, ∃ schedule' ∈ table'.rows,
    schedule.tokenId = schedule'.tokenId ∧ LeaseKept schedule schedule'
  source : ∀ schedule' ∈ table'.rows, (∃ schedule ∈ table.rows,
    schedule.tokenId = schedule'.tokenId ∧ LeaseKept schedule schedule') ∨ FirstRow table schedule'

theorem schedulesKept_of_related {table table' : ScheduleTable}
    (h : Table.Related LeaseKept table table') : SchedulesKept table table' where
  stays _ hmem := h.exists_after hmem
  source _ hmem := .inl (h.exists_before hmem)

theorem SchedulesKept.refl (table : ScheduleTable) : SchedulesKept table table :=
  schedulesKept_of_related (Table.Related.refl (fun schedule => .same (.refl schedule)) table)

theorem Placed.lease {scheduler : AdaptiveScheduler} {request : LifecycleRequest scheduler.policy}
    {task : Option PollSchedule} {row : PollSchedule} (h : Placed scheduler request task row) :
    (∀ stored ∈ task, SameLease stored row) ∧
      (task = none → row.lease = none ∧ row.attemptCount = 0) := by
  cases h with
  | mk capacity admission coverage boundary bounded mapped =>
    cases task with
    | none =>
      refine ⟨fun stored hstored => ?_, fun _ => ⟨rfl, rfl⟩⟩
      cases hstored
    | some stored =>
      refine ⟨fun other hother => ?_, fun hnone => ?_⟩
      · cases hother
        exact ⟨rfl, rfl⟩
      · cases hnone

theorem LifecycleSet.schedulesKept {scheduler : AdaptiveScheduler}
    {request : LifecycleRequest scheduler.policy} {store store' : SchedulerStore}
    (h : LifecycleSet scheduler request store store') :
    SchedulesKept store.schedules store'.schedules := by
  cases h with
  | kept => exact .refl _
  | refreshed task rows evidence stored renewed token =>
    refine schedulesKept_of_related (Table.related_write (fun b _ => .same (.refl b)) ?_)
    intro row hrow schedule hschedule hkey
    rw [store.schedules.eq_of_key_eq hschedule stored (hkey.trans (token row hrow))]
    exact .same (renewed row hrow).sameLease
  | placed row flushed capacityDecisions evidence decisions current written token flushedToken =>
    dsimp only
    cases hf : store.schedules.find? request.tokenId with
    | some task =>
      rw [Table.insertNew_eq_self (b := task) (by rw [flushedToken, hf])]
      refine schedulesKept_of_related (Table.related_write (fun b _ => .same (.refl b)) ?_)
      intro new hnew schedule hschedule hkey
      rw [List.mem_singleton] at hnew
      subst hnew
      have hfound := Table.find?_eq_some_iff.mp hf
      rw [store.schedules.eq_of_key_eq hschedule hfound.1
        (hkey.trans (token.trans hfound.2.symm))]
      exact .same (written.lease.1 task hf)
    | none =>
      have hrows := Table.rows_insertNew_of_find?_eq_none (a := flushed)
        (t := store.schedules) (by rw [flushedToken, hf])
      have hframe : ∀ schedule ∈ store.schedules.rows, ∀ new ∈ [row],
          new.tokenId ≠ schedule.tokenId := by
        intro schedule hschedule new hnew heq
        rw [List.mem_singleton.mp hnew, token] at heq
        exact Table.find?_eq_none_iff.mp hf schedule hschedule heq.symm
      constructor
      · intro schedule hschedule
        refine ⟨schedule, ?_, rfl, .same (.refl _)⟩
        have hfind : ((store.schedules.insertNew flushed).write [row]).find? schedule.tokenId =
            (store.schedules.insertNew flushed).find? schedule.tokenId :=
          Table.find?_write_of_ne (hframe schedule hschedule)
        have hbefore : (store.schedules.insertNew flushed).find? schedule.tokenId =
            some schedule :=
          Table.find?_key (by rw [hrows]; exact List.mem_append_left _ hschedule)
        exact (Table.find?_eq_some_iff.mp (hfind.trans hbefore)).1
      · intro schedule' hschedule'
        have hfirst : FirstRow store.schedules row := by
          obtain ⟨hlease, hattempts⟩ := written.lease.2 hf
          exact ⟨by rw [token, hf], hlease, hattempts⟩
        cases Table.mem_write hschedule' with
        | inl hnew => exact .inr (List.mem_singleton.mp hnew ▸ hfirst)
        | inr hold =>
          have hmem : schedule' ∈ store.schedules.rows ++ [flushed] := hrows ▸ hold.1
          cases List.mem_append.mp hmem with
          | inl hstored => exact .inl ⟨schedule', hstored, rfl, .same (.refl _)⟩
          | inr hflushed =>
            rw [List.mem_singleton] at hflushed
            subst hflushed
            exact absurd (token.trans flushedToken.symm)
              (hold.2 row (List.mem_singleton_self row))

/-! ### Effects on schedules -/

/-- A granted batch leases its members' schedules and no other. -/
theorem Granted.related {scheduler : AdaptiveScheduler}
    {request : PollClaimRequest scheduler.policy} {store store' : SchedulerStore}
    {batch : PollBatch} {capacity : CapacityDecision} {members : List GrantedMember}
    (h : Granted scheduler request store store' batch capacity members) :
    Table.Related (fun a b => (a = b ∧ ∀ member ∈ members, member.schedule ≠ a) ∨
      ∃ member ∈ members, member.schedule = a ∧ b = leasedRow batch capacity member)
      store.schedules store'.schedules := by
  have hkeys : ∀ member : GrantedMember,
      (leasedRow batch capacity member).tokenId = member.schedule.tokenId := fun _ => rfl
  rw [h.frame]
  dsimp only [Table.Related]
  rw [Table.rows_write, List.forall₂_map_right_iff, List.forall₂_same]
  intro schedule hschedule
  refine ⟨(Table.key_written _ _).symm, ?_⟩
  cases Table.written_mem_or PollSchedule.tokenId (members.map (leasedRow batch capacity))
      schedule with
  | inl hm =>
    obtain ⟨member, hmember, heq⟩ := List.mem_map.mp hm
    have hk : member.schedule.tokenId = schedule.tokenId := by
      rw [← hkeys member, heq]
      exact Table.key_written _ _
    exact .inr ⟨member, hmember, store.schedules.eq_of_key_eq (h.selected member hmember)
      hschedule hk, heq.symm⟩
  | inr hm =>
    refine .inl ⟨hm.1.symm, fun member hmember heq => ?_⟩
    exact hm.2 _ (List.mem_map_of_mem hmember) (by rw [hkeys, heq])

/-- A completed batch polls the schedules of its members and no other. -/
theorem Completed.related {scheduler : AdaptiveScheduler} {request : PollCompletionRequest}
    {store store' : SchedulerStore} {batch : PollBatch} {outcome : PollBatchOutcome}
    {rows : List PollSchedule} (h : Completed scheduler request store store' batch outcome rows) :
    Table.Related (fun a b =>
      (a = b ∧ ¬ ∃ member ∈ batchMembers batch store, member.tokenId = a.tokenId) ∨
      (Polled scheduler request.completedAt a b ∧
        ∃ member ∈ batchMembers batch store, member.tokenId = a.tokenId))
      store.schedules store'.schedules := by
  rw [h.frame]
  dsimp only [Table.Related]
  rw [Table.rows_write, List.forall₂_map_right_iff, List.forall₂_same]
  intro schedule hschedule
  have hkey : (Table.written PollSchedule.tokenId rows schedule).tokenId = schedule.tokenId :=
    Table.key_written rows schedule
  refine ⟨hkey.symm, ?_⟩
  cases Table.written_mem_or PollSchedule.tokenId rows schedule with
  | inl hm =>
    obtain ⟨task, htask, htoken, hpolled⟩ := h.polled _ hm
    have hsame : task = schedule :=
      store.schedules.eq_of_key_eq htask hschedule (htoken.symm.trans hkey)
    exact .inr ⟨hsame ▸ hpolled, (h.members schedule hschedule).mp ⟨_, hm, hkey⟩⟩
  | inr hm =>
    refine .inl ⟨hm.1.symm, fun hex => ?_⟩
    obtain ⟨row, hrow, hk⟩ := (h.members schedule hschedule).mpr hex
    exact hm.2 row hrow hk

/-- Effects on leases: kept, granted after a preparation, or completed. -/
inductive LeaseEffect (scheduler : AdaptiveScheduler) (store store' : SchedulerStore) : Prop
  | kept (batches : store'.batches = store.batches) (members : store'.members = store.members)
      (outcomes : store'.outcomes = store.outcomes)
      (schedules : SchedulesKept store.schedules store'.schedules)
  | granted (request : PollClaimRequest scheduler.policy) (mid : SchedulerStore)
      (batch : PollBatch) (capacity : CapacityDecision) (members : List GrantedMember)
      (prepare : Prepared scheduler request.now store mid)
      (grant : Granted scheduler request mid store' batch capacity members)
  | completed (request : PollCompletionRequest) (batch : PollBatch) (row : PollBatchOutcome)
      (rows : List PollSchedule)
      (complete : Completed scheduler request store store' batch row rows)

theorem Prepared.schedulesKept {scheduler : AdaptiveScheduler} {now : Int}
    {store mid : SchedulerStore} (h : Prepared scheduler now store mid) :
    SchedulesKept store.schedules mid.schedules :=
  schedulesKept_of_related (h.sameLease.mono fun _ _ => .same)

theorem Effect.leaseEffect {candidates : CandidateStore} {store store' : SchedulerStore} {now : Int}
    {call : Call d} (h : Effect candidates store now call store') :
    LeaseEffect d.scheduler store store' := by
  cases h with
  | kept => exact .kept rfl rfl rfl (.refl _)
  | prepared collectorRunId cached locked batchId mid prepare =>
    obtain ⟨hbatches, hmembers, houtcomes⟩ := prepare.batches_eq
    exact .kept hbatches hmembers houtcomes prepare.schedulesKept
  | granted collectorRunId cached locked batchId mid _ batch capacity members prepare room grant =>
    exact .granted _ mid batch capacity members prepare grant
  | completed batchId outcome apiRequestLogId failureDetail _ batch row rows complete =>
    exact .completed _ batch row rows complete
  | epochStarted request _ started =>
    have hkept : SchedulesKept store.schedules store'.schedules :=
      schedulesKept_of_related (started.rebased.mono fun _ _ hr =>
        .cleared hr.unleased.1 hr.unleased.2)
    rw [started.frame] at hkept ⊢
    exact .kept rfl rfl rfl hkept
  | lifecycleSet request _ set =>
    have hkept := set.schedulesKept
    cases set with
    | kept => exact .kept rfl rfl rfl hkept
    | refreshed task rows evidence stored renewed token => exact .kept rfl rfl rfl hkept
    | placed row flushed capacityDecisions evidence decisions current written token flushedToken =>
      exact .kept rfl rfl rfl hkept
  | evaluated call table effect =>
    refine .kept rfl rfl rfl ?_
    cases effect with
    | kept => exact .refl _
    | rescheduled decision target tierEventId schedule schedule' planned found written =>
      refine schedulesKept_of_related (Table.related_write (fun b _ => .same (.refl b)) ?_)
      intro row hrow other hother hkey
      rw [List.mem_singleton] at hrow
      subst hrow
      have hfound := Table.find?_eq_some_iff.mp found
      rw [store.schedules.eq_of_key_eq hother hfound.1
        (hkey.trans (rescheduled_eq_ok written).overlay.1)]
      exact .same (rescheduled_sameLease written)

/-! ### The invariant -/

/-- A batch contains a token. -/
def Contains (store : SchedulerStore) (batchId tokenId : Uuid) : Prop :=
  ∃ member ∈ store.members.rows, member.batchId = batchId ∧ member.tokenId = tokenId

instance decidableContains (store : SchedulerStore) (batchId tokenId : Uuid) :
    Decidable (Contains store batchId tokenId) :=
  inferInstanceAs (Decidable (∃ member ∈ store.members.rows, _ ∧ _))

/-- Completed batches that contain a token. -/
def completedWith (store : SchedulerStore) (tokenId : Uuid) : Nat :=
  store.outcomes.rows.countP fun outcome => Contains store outcome.batchId tokenId

/-- A lease belongs to an incomplete batch with the schedule's token among its members. -/
def Holds (store : SchedulerStore) (schedule : PollSchedule) (lease : PollLease) : Prop :=
  ∃ batch, store.batches.find? lease.leaseId = some batch ∧
    batch.leaseExpiresAt = lease.expiresAt ∧ store.outcomes.find? lease.leaseId = none ∧
    Contains store lease.leaseId schedule.tokenId

structure LeasesConsistent (store : SchedulerStore) : Prop where
  held : ∀ schedule ∈ store.schedules.rows, ∀ lease ∈ schedule.lease, Holds store schedule lease
  memberBatch : ∀ member ∈ store.members.rows, ∃ batch,
    store.batches.find? member.batchId = some batch ∧ batch.claimedAt = member.claimedAt
  memberScheduled : ∀ member ∈ store.members.rows, ∃ schedule ∈ store.schedules.rows,
    schedule.tokenId = member.tokenId
  outcomeBatch : ∀ outcome ∈ store.outcomes.rows, ∃ batch,
    store.batches.find? outcome.batchId = some batch
  attempts : ∀ schedule ∈ store.schedules.rows,
    schedule.attemptCount = completedWith store schedule.tokenId

/-- No batch was ever claimed. -/
structure Unclaimed (store : SchedulerStore) : Prop where
  batches : store.batches = Table.empty
  members : store.members = Table.empty
  outcomes : store.outcomes = Table.empty
  schedules : ∀ schedule ∈ store.schedules.rows, schedule.lease = none ∧ schedule.attemptCount = 0

theorem Unclaimed.consistent {store : SchedulerStore} (h : Unclaimed store) :
    LeasesConsistent store where
  held := by
    intro schedule hschedule lease hlease
    rw [(h.schedules schedule hschedule).1] at hlease
    cases hlease
  memberBatch := by simp [h.members]
  memberScheduled := by simp [h.members]
  outcomeBatch := by simp [h.outcomes]
  attempts := by
    intro schedule hschedule
    simp [completedWith, h.outcomes, (h.schedules schedule hschedule).2]

/-- A token without a schedule is in no batch. -/
theorem completedWith_eq_zero {store : SchedulerStore} (h : LeasesConsistent store)
    {tokenId : Uuid} (hnone : store.schedules.find? tokenId = none) :
    completedWith store tokenId = 0 := by
  rw [completedWith, List.countP_eq_zero]
  intro outcome _ hin
  obtain ⟨member, hmember, _, htoken⟩ := of_decide_eq_true hin
  obtain ⟨schedule, hschedule, hk⟩ := h.memberScheduled member hmember
  exact Table.find?_eq_none_iff.mp hnone schedule hschedule (hk.trans htoken)

theorem LeasesConsistent.kept {store store' : SchedulerStore} (h : LeasesConsistent store)
    (hbatches : store'.batches = store.batches) (hmembers : store'.members = store.members)
    (houtcomes : store'.outcomes = store.outcomes)
    (hkept : SchedulesKept store.schedules store'.schedules) : LeasesConsistent store' := by
  have hcount : ∀ tokenId, completedWith store' tokenId = completedWith store tokenId := by
    intro tokenId
    rw [completedWith, houtcomes]
    apply List.countP_congr
    intro outcome _
    have hmember : Contains store' outcome.batchId tokenId ↔
        Contains store outcome.batchId tokenId := by
      rw [Contains, hmembers]
      exact Iff.rfl
    rw [decide_eq_true_eq, decide_eq_true_eq, hmember]
  refine ⟨?_, ?_, ?_, ?_, ?_⟩
  · intro schedule' hschedule' lease hlease
    have hheld : Holds store schedule' lease := by
      cases hkept.source schedule' hschedule' with
      | inr hfirst =>
        rw [hfirst.2.1] at hlease
        cases hlease
      | inl hold =>
        obtain ⟨schedule, hschedule, htoken, hstep⟩ := hold
        cases hstep with
        | cleared hnone _ =>
          rw [hnone] at hlease
          cases hlease
        | same hsame =>
          rw [hsame.1] at hlease
          have hbefore := h.held schedule hschedule lease hlease
          rwa [Holds, htoken] at hbefore
    simpa only [Holds, Contains, hbatches, hmembers, houtcomes] using hheld
  · rw [hmembers, hbatches]
    exact h.memberBatch
  · rw [hmembers]
    intro member hmember
    obtain ⟨schedule, hschedule, hk⟩ := h.memberScheduled member hmember
    obtain ⟨schedule', hschedule', htoken, _⟩ := hkept.stays schedule hschedule
    exact ⟨schedule', hschedule', htoken.symm.trans hk⟩
  · rw [houtcomes, hbatches]
    exact h.outcomeBatch
  · intro schedule' hschedule'
    rw [hcount]
    cases hkept.source schedule' hschedule' with
    | inr hfirst => rw [hfirst.2.2, completedWith_eq_zero h hfirst.1]
    | inl hold =>
      obtain ⟨schedule, hschedule, htoken, hstep⟩ := hold
      have hbefore := h.attempts schedule hschedule
      rw [htoken] at hbefore
      cases hstep with
      | cleared _ hattempts => rw [hattempts, hbefore]
      | same hsame => rw [hsame.2, hbefore]

/-! ### Granted batches -/

section Granting
variable {scheduler : AdaptiveScheduler} {request : PollClaimRequest scheduler.policy}
  {store store' : SchedulerStore} {batch : PollBatch} {capacity : CapacityDecision}
  {members : List GrantedMember}

theorem Granted.batch_id (h : Granted scheduler request store store' batch capacity members) :
    batch.id = request.batchId := by
  obtain ⟨chain, kind, rfl⟩ := h.batch_eq
  rfl

/-- Stored batches are found as before, and the new one is found too. -/
theorem Granted.find?_batch (h : Granted scheduler request store store' batch capacity members)
    (batchId : Uuid) : store'.batches.find? batchId =
      (store.batches.find? batchId).or (if batch.id = batchId then some batch else none) := by
  rw [Table.find?, h.batches, List.find?_append]
  by_cases hk : batch.id = batchId
  · simp [Table.find?, hk]
  · simp [Table.find?, hk]

theorem Granted.find?_new (h : Granted scheduler request store store' batch capacity members) :
    store'.batches.find? batch.id = some batch := by
  rw [h.find?_batch, h.batch_id, h.fresh]
  simp

theorem Granted.find?_old (h : Granted scheduler request store store' batch capacity members)
    {batchId : Uuid} {old : PollBatch} (hold : store.batches.find? batchId = some old) :
    store'.batches.find? batchId = some old ∧ batchId ≠ batch.id := by
  refine ⟨by rw [h.find?_batch, hold]; rfl, fun heq => ?_⟩
  rw [heq, h.batch_id, h.fresh] at hold
  cases hold

theorem Granted.contains_old (h : Granted scheduler request store store' batch capacity members)
    {batchId tokenId : Uuid} (hne : batchId ≠ batch.id) :
    Contains store' batchId tokenId ↔ Contains store batchId tokenId := by
  unfold Contains
  rw [h.memberRows]
  constructor
  · intro hex
    obtain ⟨member, hmember, hbatch, htoken⟩ := hex
    cases List.mem_append.mp hmember with
    | inl hold => exact ⟨member, hold, hbatch, htoken⟩
    | inr hnew =>
      obtain ⟨granted, _, rfl⟩ := List.mem_map.mp hnew
      exact absurd hbatch.symm hne
  · intro hex
    obtain ⟨member, hmember, hrest⟩ := hex
    exact ⟨member, List.mem_append_left _ hmember, hrest⟩

theorem LeasesConsistent.granted (h : LeasesConsistent store)
    (hgrant : Granted scheduler request store store' batch capacity members) :
    LeasesConsistent store' := by
  have houtcomeNe : ∀ outcome ∈ store.outcomes.rows, outcome.batchId ≠ batch.id := by
    intro outcome houtcome
    obtain ⟨old, hold⟩ := h.outcomeBatch outcome houtcome
    exact (hgrant.find?_old hold).2
  have hcount : ∀ tokenId, completedWith store' tokenId = completedWith store tokenId := by
    intro tokenId
    rw [completedWith, hgrant.outcomes_eq]
    apply List.countP_congr
    intro outcome houtcome
    simp only [decide_eq_true_eq, hgrant.contains_old (houtcomeNe outcome houtcome)]
  refine ⟨?_, ?_, ?_, ?_, ?_⟩
  · intro schedule' hschedule' lease hlease
    obtain ⟨schedule, hschedule, htoken, hstep⟩ := hgrant.related.exists_before hschedule'
    cases hstep with
    | inl hsame =>
      obtain ⟨rfl, _⟩ := hsame
      obtain ⟨old, hfound, hexpires, hopen, hcontains⟩ := h.held schedule hschedule lease hlease
      obtain ⟨hfound', hne⟩ := hgrant.find?_old hfound
      exact ⟨old, hfound', hexpires, hgrant.outcomes_eq ▸ hopen,
        (hgrant.contains_old hne).mpr hcontains⟩
    | inr hleased =>
      obtain ⟨member, hmember, rfl, rfl⟩ := hleased
      cases hlease
      refine ⟨batch, hgrant.find?_new, rfl, ?_, ?_⟩
      · rw [hgrant.outcomes_eq, Table.find?_eq_none_iff]
        exact houtcomeNe
      · refine ⟨memberRow batch capacity member, ?_, rfl, rfl⟩
        rw [hgrant.memberRows]
        exact List.mem_append_right _ (List.mem_map_of_mem hmember)
  · intro member hmember
    rw [hgrant.memberRows] at hmember
    cases List.mem_append.mp hmember with
    | inl hold =>
      obtain ⟨old, hfound, hclaimed⟩ := h.memberBatch member hold
      exact ⟨old, (hgrant.find?_old hfound).1, hclaimed⟩
    | inr hnew =>
      obtain ⟨granted, _, rfl⟩ := List.mem_map.mp hnew
      exact ⟨batch, hgrant.find?_new, rfl⟩
  · intro member hmember
    rw [hgrant.memberRows] at hmember
    have hscheduled : ∃ schedule ∈ store.schedules.rows, schedule.tokenId = member.tokenId := by
      cases List.mem_append.mp hmember with
      | inl hold => exact h.memberScheduled member hold
      | inr hnew =>
        obtain ⟨granted, hgranted, rfl⟩ := List.mem_map.mp hnew
        exact ⟨granted.schedule, hgrant.selected granted hgranted, rfl⟩
    obtain ⟨schedule, hschedule, hk⟩ := hscheduled
    obtain ⟨schedule', hschedule', htoken, _⟩ := hgrant.related.exists_after hschedule
    exact ⟨schedule', hschedule', htoken.symm.trans hk⟩
  · rw [hgrant.outcomes_eq]
    intro outcome houtcome
    obtain ⟨old, hold⟩ := h.outcomeBatch outcome houtcome
    exact ⟨old, (hgrant.find?_old hold).1⟩
  · intro schedule' hschedule'
    obtain ⟨schedule, hschedule, htoken, hstep⟩ := hgrant.related.exists_before hschedule'
    have hbefore := h.attempts schedule hschedule
    rw [hcount, ← htoken, ← hbefore]
    cases hstep with
    | inl hsame => rw [hsame.1]
    | inr hleased =>
      obtain ⟨member, _, rfl, rfl⟩ := hleased
      rfl

end Granting

/-! ### Completed batches -/

section Completing
variable {scheduler : AdaptiveScheduler} {request : PollCompletionRequest}
  {store store' : SchedulerStore} {batch : PollBatch} {outcome : PollBatchOutcome}
  {rows : List PollSchedule}

theorem Completed.batch_id (h : Completed scheduler request store store' batch outcome rows) :
    batch.id = request.batchId := (Table.find?_eq_some_iff.mp h.found).2

/-- The members that a completion reads are all the members of the batch. -/
theorem contains_iff_batchMembers (h : LeasesConsistent store) {batchId : Uuid}
    (hfound : store.batches.find? batchId = some batch) (tokenId : Uuid) :
    Contains store batchId tokenId ↔
      ∃ member ∈ batchMembers batch store, member.tokenId = tokenId := by
  have hid : batch.id = batchId := (Table.find?_eq_some_iff.mp hfound).2
  constructor
  · intro hex
    obtain ⟨member, hmember, hbatch, htoken⟩ := hex
    obtain ⟨other, hother, hclaimed⟩ := h.memberBatch member hmember
    rw [hbatch, hfound, Option.some.injEq] at hother
    subst hother
    refine ⟨member, ?_, htoken⟩
    rw [batchMembers, KeyedOrder.mem_sortOn]
    exact List.mem_filter.mpr ⟨hmember, decide_eq_true ⟨hbatch.trans hid.symm, hclaimed.symm⟩⟩
  · intro hex
    obtain ⟨member, hmember, htoken⟩ := hex
    rw [batchMembers, KeyedOrder.mem_sortOn, List.mem_filter, decide_eq_true_eq] at hmember
    exact ⟨member, hmember.1, hmember.2.1.trans hid, htoken⟩

theorem Completed.completedWith_eq
    (hcomplete : Completed scheduler request store store' batch outcome rows) (tokenId : Uuid) :
    completedWith store' tokenId = completedWith store tokenId +
      if Contains store request.batchId tokenId then 1 else 0 := by
  have hcontains : ∀ batchId, Contains store' batchId tokenId ↔ Contains store batchId tokenId := by
    intro batchId
    rw [Contains, hcomplete.batches_eq.2]
    rfl
  simp only [completedWith, hcomplete.outcomes, List.countP_append, List.countP_singleton,
    decide_eq_true_eq, hcontains, hcomplete.outcome_batch]

theorem LeasesConsistent.completed (h : LeasesConsistent store)
    (hcomplete : Completed scheduler request store store' batch outcome rows) :
    LeasesConsistent store' := by
  obtain ⟨hbatches, hmembers⟩ := hcomplete.batches_eq
  have hiff := contains_iff_batchMembers h hcomplete.found
  refine ⟨?_, ?_, ?_, ?_, ?_⟩
  · intro schedule' hschedule' lease hlease
    obtain ⟨schedule, hschedule, htoken, hstep⟩ := hcomplete.related.exists_before hschedule'
    cases hstep with
    | inr hpolled =>
      rw [hpolled.1.unleased.1] at hlease
      cases hlease
    | inl hsame =>
      obtain ⟨rfl, hnot⟩ := hsame
      obtain ⟨old, hfound, hexpires, hopen, hcontains⟩ := h.held schedule hschedule lease hlease
      refine ⟨old, by rwa [hbatches], hexpires, ?_, ?_⟩
      · rw [Table.find?_eq_none_iff] at hopen ⊢
        intro other hother
        rw [hcomplete.outcomes] at hother
        cases List.mem_append.mp hother with
        | inl hold => exact hopen other hold
        | inr hnew =>
          rw [List.mem_singleton.mp hnew, hcomplete.outcome_batch]
          intro heq
          exact hnot ((hiff schedule.tokenId).mp (heq ▸ hcontains))
      · rwa [Contains, hmembers]
  · rw [hmembers, hbatches]
    exact h.memberBatch
  · rw [hmembers]
    intro member hmember
    obtain ⟨schedule, hschedule, hk⟩ := h.memberScheduled member hmember
    obtain ⟨schedule', hschedule', htoken, _⟩ := hcomplete.related.exists_after hschedule
    exact ⟨schedule', hschedule', htoken.symm.trans hk⟩
  · rw [hcomplete.outcomes, hbatches]
    intro other hother
    cases List.mem_append.mp hother with
    | inl hold => exact h.outcomeBatch other hold
    | inr hnew =>
      rw [List.mem_singleton.mp hnew, hcomplete.outcome_batch]
      exact ⟨batch, hcomplete.found⟩
  · intro schedule' hschedule'
    obtain ⟨schedule, hschedule, htoken, hstep⟩ := hcomplete.related.exists_before hschedule'
    have hbefore := h.attempts schedule hschedule
    rw [hcomplete.completedWith_eq, ← htoken]
    cases hstep with
    | inl hsame =>
      obtain ⟨rfl, hnot⟩ := hsame
      rw [if_neg (fun hc => hnot ((hiff schedule.tokenId).mp hc)), hbefore, Nat.add_zero]
    | inr hpolled =>
      rw [if_pos ((hiff schedule.tokenId).mpr hpolled.2), hpolled.1.unleased.2, hbefore]

end Completing

theorem LeasesConsistent.effect {scheduler : AdaptiveScheduler} {store store' : SchedulerStore}
    (h : LeasesConsistent store) (heffect : LeaseEffect scheduler store store') :
    LeasesConsistent store' := by
  cases heffect with
  | kept batches members outcomes schedules => exact h.kept batches members outcomes schedules
  | granted request mid batch capacity members prepare grant =>
    obtain ⟨hbatches, hmembers, houtcomes⟩ := prepare.batches_eq
    exact (h.kept hbatches hmembers houtcomes prepare.schedulesKept).granted grant
  | completed request batch row rows complete => exact h.completed complete

/-! ### Batches that can no longer complete -/

/-- An incomplete batch that lost one of its tokens. -/
def Superseded (batchId : Uuid) (store : SchedulerStore) : Prop :=
  LeasesConsistent store ∧ (store.batches.find? batchId).isSome ∧
    store.outcomes.find? batchId = none ∧
    ∃ schedule ∈ store.schedules.rows, Contains store batchId schedule.tokenId ∧
      leaseIdOf schedule ≠ some batchId

/-- A superseded batch stays superseded, whatever is done. -/
theorem Superseded.effect {scheduler : AdaptiveScheduler} {batchId : Uuid}
    {store store' : SchedulerStore} (h : Superseded batchId store)
    (heffect : LeaseEffect scheduler store store') : Superseded batchId store' := by
  obtain ⟨hcons, hbatch, hopen, schedule, hschedule, hcontains, hlost⟩ := h
  have hcons' := hcons.effect heffect
  have hkept : ∀ {mid : SchedulerStore}, mid.batches = store.batches →
      mid.members = store.members → mid.outcomes = store.outcomes →
      SchedulesKept store.schedules mid.schedules → (mid.batches.find? batchId).isSome ∧
        mid.outcomes.find? batchId = none ∧ ∃ schedule ∈ mid.schedules.rows,
          Contains mid batchId schedule.tokenId ∧ leaseIdOf schedule ≠ some batchId := by
    intro mid hbatches hmembers houtcomes hschedules
    obtain ⟨after, hafter, htoken, hstep⟩ := hschedules.stays schedule hschedule
    refine ⟨hbatches ▸ hbatch, houtcomes ▸ hopen, after, hafter, ?_, ?_⟩
    · rw [Contains, hmembers, ← htoken]
      exact hcontains
    · cases hstep with
      | same hsame => rwa [leaseIdOf, hsame.1]
      | cleared hnone _ => simp [leaseIdOf, hnone]
  refine ⟨hcons', ?_⟩
  cases heffect with
  | kept batches members outcomes schedules => exact hkept batches members outcomes schedules
  | granted request mid batch capacity members prepare grant =>
    obtain ⟨hbatches, hmembers, houtcomes⟩ := prepare.batches_eq
    obtain ⟨hbatch', hopen', after, hafter, hcontains', hlost'⟩ :=
      hkept hbatches hmembers houtcomes prepare.schedulesKept
    obtain ⟨old, hold⟩ := Option.isSome_iff_exists.mp hbatch'
    obtain ⟨hfound, hne⟩ := grant.find?_old hold
    obtain ⟨last, hlast, htoken, hstep⟩ := grant.related.exists_after hafter
    refine ⟨by rw [hfound]; rfl, grant.outcomes_eq ▸ hopen', last, hlast, ?_, ?_⟩
    · rw [← htoken]
      exact (grant.contains_old hne).mpr hcontains'
    · cases hstep with
      | inl hsame => rwa [← hsame.1]
      | inr hleased =>
        obtain ⟨member, _, rfl, rfl⟩ := hleased
        exact fun heq => hne (Option.some.inj heq).symm
  | completed request batch row rows complete =>
    obtain ⟨hbatches, hmembers⟩ := complete.batches_eq
    have hother : request.batchId ≠ batchId := by
      intro heq
      subst heq
      obtain ⟨member, hmember, hk⟩ :=
        (contains_iff_batchMembers hcons complete.found schedule.tokenId).mp hcontains
      obtain ⟨owner, howner, htoken, hlease⟩ := complete.owned member hmember
      have hsame : owner = schedule :=
        store.schedules.eq_of_key_eq howner hschedule (htoken.trans hk)
      rw [hsame, complete.batch_id] at hlease
      exact hlost hlease
    obtain ⟨after, hafter, htoken, hstep⟩ := complete.related.exists_after hschedule
    refine ⟨hbatches ▸ hbatch, ?_, after, hafter, ?_, ?_⟩
    · rw [Table.find?_eq_none_iff] at hopen ⊢
      intro outcome houtcome
      rw [complete.outcomes] at houtcome
      cases List.mem_append.mp houtcome with
      | inl hold => exact hopen outcome hold
      | inr hnew =>
        rw [List.mem_singleton.mp hnew, complete.outcome_batch]
        exact hother
    · rw [Contains, hmembers, ← htoken]
      exact hcontains
    · cases hstep with
      | inl hsame => rwa [← hsame.1]
      | inr hpolled => simp [leaseIdOf, hpolled.1.unleased.1]

/-- A stored outcome stays. -/
theorem find?_outcome_effect {scheduler : AdaptiveScheduler} {batchId : Uuid}
    {existing : PollBatchOutcome} {store store' : SchedulerStore}
    (h : store.outcomes.find? batchId = some existing)
    (heffect : LeaseEffect scheduler store store') :
    store'.outcomes.find? batchId = some existing := by
  cases heffect with
  | kept batches members outcomes schedules => rwa [outcomes]
  | granted request mid batch capacity members prepare grant =>
    rwa [grant.outcomes_eq, prepare.batches_eq.2.2]
  | completed request batch row rows complete =>
    have hfound := Table.find?_eq_some_iff.mp h
    refine Table.find?_eq_some_iff.mpr ⟨?_, hfound.2⟩
    rw [complete.outcomes]
    exact List.mem_append_left _ hfound.1

/-! ### The protocol -/

/-- A claim leaves the tokens of a batch that is incomplete and not expired at its clock. -/
theorem claim_keeps_live_leases {scheduler : AdaptiveScheduler}
    {request : PollClaimRequest scheduler.policy} {store store' : SchedulerStore}
    {claim : Option PollBatchClaim} (h : LeasesConsistent store)
    (hclaim : claimNextBatch scheduler request store = .ok (store', claim)) {batch : PollBatch}
    (hbatch : batch ∈ store.batches.rows) (hlive : request.now < batch.leaseExpiresAt)
    {schedule : PollSchedule} (hschedule : schedule ∈ store.schedules.rows)
    (hlease : leaseIdOf schedule = some batch.id) :
    ∃ schedule' ∈ store'.schedules.rows, schedule'.tokenId = schedule.tokenId ∧
      schedule'.lease = schedule.lease := by
  obtain ⟨mid, hprepared, _, hcases⟩ := claimNextBatch_eq_ok hclaim
  obtain ⟨after, hafter, htoken, hsame⟩ := hprepared.sameLease.exists_after hschedule
  cases hcases with
  | inl heq =>
    subst heq
    exact ⟨after, hafter, htoken.symm, hsame.1⟩
  | inr hgranted =>
    obtain ⟨new, capacity, members, _, grant⟩ := hgranted
    obtain ⟨last, hlast, htoken', hstep⟩ := grant.related.exists_after hafter
    refine ⟨last, hlast, htoken'.symm.trans htoken.symm, ?_⟩
    cases hstep with
    | inl hkept => rw [← hkept.1, hsame.1]
    | inr hleased =>
      -- a member's lease has expired, but the lease of the batch has not
      obtain ⟨member, hmember, rfl, _⟩ := hleased
      obtain ⟨lease, hl, hid⟩ := Option.map_eq_some_iff.mp hlease
      obtain ⟨holder, hholder, hexpires, _⟩ := h.held schedule hschedule lease hl
      have hmem := Table.find?_eq_some_iff.mp hholder
      have hbatchEq : holder = batch :=
        store.batches.eq_of_key_eq hmem.1 hbatch (hmem.2.trans hid)
      have hexpired := grant.leaseFree member hmember lease (hsame.1.trans hl)
      rw [hbatchEq] at hexpires
      omega

/-- The lease protocol, in one state and for every continuation of the run from it. -/
structure LeaseProtocol (s : SchedulerSystem d) : Prop where
  /-- A claim takes no token out of a batch that is not expired at the claim's clock. -/
  noTheft : ∀ (request : PollClaimRequest d.scheduler.policy) (store' : SchedulerStore)
    (claim : Option PollBatchClaim), claimNextBatch d.scheduler request s.store = .ok (store', claim) →
    ∀ batch ∈ s.store.batches.rows, s.store.outcomes.find? batch.id = none →
    request.now < batch.leaseExpiresAt →
    ∀ schedule ∈ s.store.schedules.rows, leaseIdOf schedule = some batch.id →
    ∃ schedule' ∈ store'.schedules.rows, schedule'.tokenId = schedule.tokenId ∧
      schedule'.lease = schedule.lease
  /-- An outcome is the only one of its batch, stays, and answers every repeated completion. -/
  onceCompleted : ∀ existing ∈ s.store.outcomes.rows,
    (∀ other ∈ s.store.outcomes.rows, other.batchId = existing.batchId → other = existing) ∧
    (∀ rest, Always systemStep (fun s' : SchedulerSystem d =>
      s'.store.outcomes.find? existing.batchId = some existing) s rest) ∧
    ∀ request : PollCompletionRequest, request.batchId = existing.batchId →
      completeBatch d.scheduler request s.store = .ok (s.store, completionFromModel existing)
  /-- An incomplete batch that lost a token never completes. -/
  superseded : ∀ batch ∈ s.store.batches.rows, s.store.outcomes.find? batch.id = none →
    ∀ schedule ∈ s.store.schedules.rows, Contains s.store batch.id schedule.tokenId →
    leaseIdOf schedule ≠ some batch.id →
    ∀ rest, Always systemStep (fun s' : SchedulerSystem d =>
      s'.store.outcomes.find? batch.id = none) s rest
  /-- A completion that fails changes nothing. -/
  failureUnchanged : ∀ (now : Int) (batchId : Uuid) (outcome : PollOutcome)
    (apiRequestLogId : Option Uuid) (failureDetail : Option String) (error : SchedulingError),
    completeBatch d.scheduler ⟨now, batchId, outcome, apiRequestLogId, failureDetail⟩ s.store =
      .error error →
    execute now (.completeBatch batchId outcome apiRequestLogId failureDetail : Call d) s.store
      s.candidates = (s.store, s.candidates)
  /-- The attempts of a schedule are the completed batches that contain its token. -/
  attempts : ∀ schedule ∈ s.store.schedules.rows,
    schedule.attemptCount = completedWith s.store schedule.tokenId

theorem leaseProtocol_of_consistent {s : SchedulerSystem d} (h : LeasesConsistent s.store) :
    LeaseProtocol s where
  noTheft _ _ _ hclaim _ hbatch _ hlive _ hschedule hlease :=
    claim_keeps_live_leases h hclaim hbatch hlive hschedule hlease
  onceCompleted existing hexisting := by
    have hfound := Table.find?_key hexisting
    refine ⟨fun other hother hk => s.store.outcomes.eq_of_key_eq hother hexisting hk, ?_, ?_⟩
    · exact always_of_kept (I := fun s' : SchedulerSystem d =>
        s'.store.outcomes.find? existing.batchId = some existing)
        (store_invariant fun _ _ _ _ _ hstore heffect =>
          find?_outcome_effect hstore heffect.leaseEffect) hfound
    · intro request hrequest
      obtain ⟨batch, hbatch⟩ := h.outcomeBatch existing hexisting
      simp only [completeBatch, hrequest, hbatch, hfound]
  superseded batch hbatch hopen schedule hschedule hcontains hlost rest := by
    have hsuperseded : Superseded batch.id s.store :=
      ⟨h, by rw [Table.find?_key hbatch]; rfl, hopen, schedule, hschedule, hcontains, hlost⟩
    exact (always_of_kept (I := fun s' : SchedulerSystem d => Superseded batch.id s'.store)
      (store_invariant fun _ _ _ _ _ hstore heffect => hstore.effect heffect.leaseEffect)
      hsuperseded rest).mono fun _ h' => h'.2.2.1
  failureUnchanged now batchId outcome apiRequestLogId failureDetail error herror := by
    simp only [execute, herror]
  attempts := h.attempts

/-- The lease protocol holds in every state of every run from a store without claims. -/
theorem lease_protocol (d : Deployment) (s : SchedulerSystem d) (hstart : Unclaimed s.store)
    (actions : List (SystemAction d)) : Always systemStep LeaseProtocol s actions :=
  (always_of_kept (I := fun s' : SchedulerSystem d => LeasesConsistent s'.store)
    (store_invariant fun _ _ _ _ _ hstore heffect => hstore.effect heffect.leaseEffect)
    hstart.consistent actions).mono fun _ h => leaseProtocol_of_consistent h

/-- A batch claimed at 90 s and completed at 100 s. -/
theorem lease_protocol_completed :
    Always systemStep LeaseProtocol sampleSystem
      (activateTwo ++ [.tick 90000000] ++ promptly (claimCall 11) ++ [.tick 10000000] ++
        promptly (.completeBatch 11 .succeeded none none)) :=
  lease_protocol sampleDeployment sampleSystem
    ⟨rfl, rfl, rfl, by simp [sampleSystem, twoTokens]⟩ _

end PumpResearch.Scheduling
