import PumpResearch.Scheduling.System

/-! The end of a candidate override. Claims look at schedules whose next transition is due, so an
override ends in time if the next transition never lies behind its end. Epoch starts and state
changes write the boundary of the class alone. -/
namespace PumpResearch.Scheduling
open Candidates KeyedTable Results Runs
variable {d : Deployment}

/-- A set override has a boundary no later than its end. -/
def Watched (overlay : Option CandidateCoverage) (boundary : Option Int) : Prop :=
  ∀ live ∈ overlay, ∃ t ∈ boundary, t ≤ live.expiresAt

instance decidableWatched (overlay : Option CandidateCoverage) (boundary : Option Int) :
    Decidable (Watched overlay boundary) :=
  inferInstanceAs (Decidable (∀ live ∈ overlay, ∃ t ∈ boundary, t ≤ live.expiresAt))

def OverlayWatched (schedule : PollSchedule) : Prop :=
  Watched schedule.candidateCoverage schedule.coverageNextTransitionAt

def OverlaysWatched (store : SchedulerStore) : Prop :=
  ∀ schedule ∈ store.schedules.rows, OverlayWatched schedule

theorem earliest_watched (boundary : Option Int) (overlay : Option CandidateCoverage) :
    Watched overlay (earliest boundary (overlay.map (·.expiresAt))) := by
  intro live hlive
  rw [Option.mem_def] at hlive
  rw [hlive]
  cases boundary with
  | none => exact ⟨live.expiresAt, rfl, le_rfl⟩
  | some t => exact ⟨min t live.expiresAt, rfl, min_le_right t live.expiresAt⟩

theorem earlier_le (boundary : Option Int) (t : Int) : earlier boundary t ≤ t := by
  cases boundary with
  | none => exact le_rfl
  | some s => exact min_le_right s t

/-- Refreshes, claims, completions and evaluations keep the end of an override watched. -/
theorem overlayWatched_rules (d : Deployment) : RowRules d OverlayWatched where
  refreshed now schedule row hrow hschedule := by
    cases hrow with
    | kept => exact hschedule
    | renewed projection coverage boundary mapped classified bounded =>
      exact earliest_watched boundary (liveOverlay now schedule)
  leased _ _ _ hmember := hmember
  polled completedAt task row hrow _ := by
    cases hrow with
    | mk batch intervals member coverage boundary projection mapped classified bounded =>
      exact earliest_watched boundary (liveOverlay completedAt task)
  rescheduled now target expires tierEventId schedule row hrow hschedule := by
    cases rescheduled_eq_ok hrow with
    | cleared =>
      intro live hlive
      cases hlive
    | renewed overlay until_eq =>
      intro live hlive
      cases hlive
      exact ⟨_, rfl, earlier_le _ _⟩
    | kept => exact hschedule

/-! ### The two writers that leave the override out -/

/-- The boundary that a class computation gives, if any. -/
def boundaryFrom (scheduler : AdaptiveScheduler) (state : LifecycleState)
    (admittedAt stateDecidedAt now : Int) : Option Int :=
  (scheduler.policy.nextTransitionAt state admittedAt stateDecidedAt now).toOption.join

theorem boundaryFrom_eq {scheduler : AdaptiveScheduler} {state : LifecycleState}
    {admittedAt stateDecidedAt now : Int} {boundary : Option Int}
    (h : scheduler.policy.nextTransitionAt state admittedAt stateDecidedAt now = .ok boundary) :
    boundaryFrom scheduler state admittedAt stateDecidedAt now = boundary := by
  rw [boundaryFrom, h]
  rfl

/-- At an epoch start, the class of every schedule ends no later than its override. -/
def EpochKeepsWatch (scheduler : AdaptiveScheduler) (request : EpochRequest scheduler.policy)
    (store : SchedulerStore) : Prop :=
  ∀ schedule ∈ store.schedules.rows, ∀ admittedAt ∈ admissionOf store schedule,
    Watched schedule.candidateCoverage (boundaryFrom scheduler schedule.lifecycleState admittedAt
      schedule.stateDecidedAt request.startedAt)

/-- The new class of a schedule that changes state ends no later than its override. -/
def ChangeKeepsWatch (scheduler : AdaptiveScheduler) (request : LifecycleRequest scheduler.policy)
    (store : SchedulerStore) : Prop :=
  ∀ task ∈ store.schedules.find? request.tokenId, task.stateDecidedAt ≤ request.decidedAt →
    ∀ projection ∈ task.coverage, ¬ SameState scheduler request projection task →
      Watched task.candidateCoverage (boundaryFrom scheduler request.state projection.admittedAt
        request.decidedAt request.decidedAt)

/-- A call that succeeds keeps the ends of overrides watched. -/
def KeepsWatch (store : SchedulerStore) : Call d → Prop
  | .initializeEpoch request =>
    (initializeEpoch d.scheduler request store).isOk → EpochKeepsWatch d.scheduler request store
  | .setLifecycleState request =>
    (setLifecycleState d.scheduler request store).isOk →
      ChangeKeepsWatch d.scheduler request store
  | _ => True

instance decidableKeepsWatch (store : SchedulerStore) (call : Call d) :
    Decidable (KeepsWatch store call) :=
  match call with
  | .initializeEpoch request => inferInstanceAs (Decidable
      ((initializeEpoch d.scheduler request store).isOk →
        ∀ schedule ∈ store.schedules.rows, ∀ admittedAt ∈ admissionOf store schedule,
          Watched schedule.candidateCoverage (boundaryFrom d.scheduler schedule.lifecycleState
            admittedAt schedule.stateDecidedAt request.startedAt)))
  | .setLifecycleState request => inferInstanceAs (Decidable
      ((setLifecycleState d.scheduler request store).isOk →
        ∀ task ∈ store.schedules.find? request.tokenId,
          task.stateDecidedAt ≤ request.decidedAt → ∀ projection ∈ task.coverage,
          ¬ SameState d.scheduler request projection task →
          Watched task.candidateCoverage (boundaryFrom d.scheduler request.state
            projection.admittedAt request.decidedAt request.decidedAt)))
  | .claimNextBatch _ _ _ _ | .completeBatch _ _ _ _ | .applyEvaluation _ => .isTrue trivial

/-- A rebased schedule keeps its override and has the boundary of its class. -/
theorem Rebased.watched_iff {scheduler : AdaptiveScheduler}
    {request : EpochRequest scheduler.policy} {store : SchedulerStore} {schedule row : PollSchedule}
    (h : Rebased scheduler request store schedule row) :
    OverlayWatched row ↔ ∀ admittedAt ∈ admissionOf store schedule,
      Watched schedule.candidateCoverage (boundaryFrom scheduler schedule.lifecycleState admittedAt
        schedule.stateDecidedAt request.startedAt) := by
  cases h with
  | mk capacity admittedAt coverage boundary classified bounded admitted =>
    have hboundary := boundaryFrom_eq bounded
    constructor
    · intro hrow other hother
      cases admitted.symm.trans hother
      rw [hboundary]
      exact hrow
    · intro hall
      have hwatched := hall admittedAt admitted
      rwa [hboundary] at hwatched

/-- A placed schedule keeps its override and has the boundary of its new class. -/
theorem Placed.watched_iff {scheduler : AdaptiveScheduler}
    {request : LifecycleRequest scheduler.policy} {task row : PollSchedule}
    (h : Placed scheduler request (some task) row) :
    OverlayWatched row ↔ ∀ projection ∈ task.coverage, ¬ SameState scheduler request projection task →
      Watched task.candidateCoverage (boundaryFrom scheduler request.state projection.admittedAt
        request.decidedAt request.decidedAt) := by
  cases h with
  | mk capacity admission coverage boundary bounded mapped =>
    have hboundary := boundaryFrom_eq bounded
    obtain ⟨projection, hprojection, hadmission, hstate⟩ := mapped task rfl
    constructor
    · intro hrow other hother _
      cases hprojection.symm.trans hother
      rw [hadmission, hboundary]
      exact hrow
    · intro hall
      have hwatched := hall projection hprojection hstate
      rw [hadmission, hboundary] at hwatched
      exact hwatched

/-- A first schedule has no override. -/
theorem Placed.watched_of_none {scheduler : AdaptiveScheduler}
    {request : LifecycleRequest scheduler.policy} {row : PollSchedule}
    (h : Placed scheduler request none row) : OverlayWatched row := by
  cases h with
  | mk capacity admission coverage boundary bounded mapped =>
    intro live hlive
    cases hlive

theorem initializeEpoch_watched_iff {scheduler : AdaptiveScheduler}
    {request : EpochRequest scheduler.policy} {store store' : SchedulerStore} {count : Nat}
    (h : initializeEpoch scheduler request store = .ok (store', count)) :
    OverlaysWatched store' ↔ EpochKeepsWatch scheduler request store := by
  have hrebased := (initializeEpoch_eq_ok h).rebased
  constructor
  · intro hwatched schedule hschedule
    obtain ⟨row, hrow, _, hrel⟩ := hrebased.exists_after hschedule
    exact hrel.watched_iff.mp (hwatched row hrow)
  · intro hkeep row hrow
    obtain ⟨schedule, hschedule, _, hrel⟩ := hrebased.exists_before hrow
    exact hrel.watched_iff.mpr (hkeep schedule hschedule)

theorem setLifecycleState_watched_iff (d : Deployment)
    {request : LifecycleRequest d.scheduler.policy} {store store' : SchedulerStore}
    {placed : PollSchedule} (hstore : OverlaysWatched store)
    (h : setLifecycleState d.scheduler request store = .ok (store', placed)) :
    OverlaysWatched store' ↔ ChangeKeepsWatch d.scheduler request store := by
  constructor
  · intro hwatched task htask hcurrent projection hprojection hstate
    obtain ⟨row, hplaced, hrow⟩ :=
      setLifecycleState_placed htask hcurrent hprojection hstate h
    exact hplaced.watched_iff.mp (hwatched row hrow) projection hprojection hstate
  · intro hkeep
    have heffect : Effect (d := d) noCandidates store 0 (.setLifecycleState request) store' :=
      .lifecycleSet request store' (setLifecycleState_eq_ok h)
    refine heffect.forall_rows (overlayWatched_rules d) (fun _ hcall => by cases hcall) ?_ hstore
    intro request' hcall hcurrent row hplaced
    cases hcall
    cases hf : store.schedules.find? request.tokenId with
    | none =>
      rw [hf] at hplaced
      exact hplaced.watched_of_none
    | some task =>
      rw [hf] at hplaced
      exact hplaced.watched_iff.mpr (hkeep task hf (hcurrent task hf))

/-- A call keeps the ends of overrides watched exactly when its rewrites do. -/
theorem execute_watched_iff (now : Int) (call : Call d) {store : SchedulerStore}
    (candidates : CandidateStore) (hstore : OverlaysWatched store) :
    OverlaysWatched (execute now call store candidates).1 ↔ KeepsWatch store call := by
  have hother (hepoch : ∀ request, call ≠ .initializeEpoch request)
      (hstate : ∀ request, call ≠ .setLifecycleState request) :
      OverlaysWatched (execute now call store candidates).1 :=
    (execute_effect now call store candidates).forall_rows (overlayWatched_rules d)
      (fun request hcall => absurd hcall (hepoch request))
      (fun request hcall => absurd hcall (hstate request)) hstore
  cases call with
  | claimNextBatch collectorRunId cached locked batchId =>
    exact iff_of_true (hother (by simp) (by simp)) trivial
  | completeBatch batchId outcome apiRequestLogId failureDetail =>
    exact iff_of_true (hother (by simp) (by simp)) trivial
  | applyEvaluation evaluation => exact iff_of_true (hother (by simp) (by simp)) trivial
  | initializeEpoch request =>
    simp only [execute, KeepsWatch]
    cases hrun : initializeEpoch d.scheduler request store with
    | error e => exact iff_of_true hstore fun hok => by cases hok
    | ok result =>
      rw [initializeEpoch_watched_iff hrun]
      exact ⟨fun hkeep _ => hkeep, fun hkeep => hkeep rfl⟩
  | setLifecycleState request =>
    simp only [execute, KeepsWatch]
    cases hrun : setLifecycleState d.scheduler request store with
    | error e => exact iff_of_true hstore fun hok => by cases hok
    | ok result =>
      rw [setLifecycleState_watched_iff d hstore hrun]
      exact ⟨fun hkeep _ => hkeep, fun hkeep => hkeep rfl⟩

/-! ### Runs -/

/-- After a claim, the overrides of unlocked schedules end later. -/
theorem claim_removes_overlays {request : PollClaimRequest d.scheduler.policy}
    {store store' : SchedulerStore} {claim : Option PollBatchClaim} (hstore : OverlaysWatched store)
    (h : claimNextBatch d.scheduler request store = .ok (store', claim)) :
    ∀ schedule ∈ store'.schedules.rows, schedule.tokenId ∉ request.locked →
      ∀ overlay ∈ schedule.candidateCoverage, request.now < overlay.expiresAt := by
  obtain ⟨mid, hprepared, hdone, hcases⟩ := claimNextBatch_eq_ok h
  have hmid : ∀ schedule ∈ mid.schedules.rows, schedule.tokenId ∉ request.locked →
      ∀ overlay ∈ schedule.candidateCoverage, request.now < overlay.expiresAt := by
    intro schedule hschedule hlocked overlay hoverlay
    obtain ⟨t, ht, hle⟩ :=
      (overlayWatched_rules d).prepared hprepared hstore schedule hschedule overlay hoverlay
    by_contra hlate
    exact hdone schedule hschedule hlocked ⟨t, ht, hle.trans (not_lt.mp hlate)⟩
  cases hcases with
  | inl hsame =>
    subst hsame
    exact hmid
  | inr hgranted =>
    obtain ⟨batch, capacity, members, _, hgrant⟩ := hgranted
    rw [hgrant.frame]
    refine Table.forall_write ?_ hmid
    intro row hrow
    obtain ⟨member, hmember, rfl⟩ := List.mem_map.mp hrow
    exact hmid member.schedule (hgrant.selected member hmember)

/-- The end of every override is watched, and every claim at or after it removes the override
from a schedule that no other transaction has locked. -/
structure OverlaysExpire (store : SchedulerStore) : Prop where
  watched : OverlaysWatched store
  removed : ∀ (request : PollClaimRequest d.scheduler.policy) (store' : SchedulerStore)
    (claim : Option PollBatchClaim),
    claimNextBatch d.scheduler request store = .ok (store', claim) →
    ∀ schedule ∈ store'.schedules.rows, schedule.tokenId ∉ request.locked →
      ∀ overlay ∈ schedule.candidateCoverage, request.now < overlay.expiresAt

/-- The call that an action commits keeps the ends of overrides watched. -/
def CommitKeepsWatch (s : SchedulerSystem d) : SystemAction d → Prop
  | .commit position => ∀ entry ∈ s.waiting[position]?, KeepsWatch s.store entry.2
  | _ => True

instance decidableCommitKeepsWatch (s : SchedulerSystem d) (action : SystemAction d) :
    Decidable (CommitKeepsWatch s action) :=
  match action with
  | .commit position =>
    inferInstanceAs (Decidable (∀ entry ∈ s.waiting[position]?, KeepsWatch s.store entry.2))
  | .tick _ | .start _ => .isTrue trivial

theorem systemStep_watched_iff {s : SchedulerSystem d} (action : SystemAction d)
    (hstore : OverlaysWatched s.store) :
    OverlaysWatched (systemStep s action).store ↔ CommitKeepsWatch s action := by
  cases action with
  | tick elapsed => exact iff_of_true hstore trivial
  | start call => exact iff_of_true hstore trivial
  | commit position =>
    simp only [systemStep, CommitKeepsWatch]
    cases s.waiting[position]? with
    | none => exact iff_of_true hstore (by simp)
    | some entry =>
      refine (execute_watched_iff entry.1 entry.2 s.candidates hstore).trans ?_
      simp

/-- From schedules without overrides: the ends of overrides are watched in every state of a run,
and claims remove them in time, exactly when every commit keeps them watched. -/
theorem overlay_expiry_iff (d : Deployment) (s : SchedulerSystem d)
    (hstart : ∀ schedule ∈ s.store.schedules.rows, schedule.candidateCoverage = none)
    (actions : List (SystemAction d)) :
    Always systemStep (fun s => OverlaysExpire (d := d) s.store) s actions ↔
      Steps systemStep CommitKeepsWatch s actions := by
  have hinitial : OverlaysWatched s.store := by
    intro schedule hschedule live hlive
    rw [hstart schedule hschedule] at hlive
    cases hlive
  rw [← always_iff_steps (I := fun _ => True) (P := fun s => OverlaysWatched s.store)
    (fun _ _ _ => trivial) (fun s action _ h => systemStep_watched_iff action h) trivial hinitial]
  exact ⟨fun h => h.mono fun _ h => h.watched,
    fun h => h.mono fun _ h => ⟨h, fun _ _ _ hclaim => claim_removes_overlays h hclaim⟩⟩

/-- Token 1 is active and evaluated at 10 s; its override is over at 70 s. -/
def overrideFirst : List (SystemAction sampleDeployment) :=
  promptly (stateCall 1 .active 0) ++ [.tick 10000000] ++
    promptly (.applyEvaluation (activeCall 1 10 .tier0Universal))

/-- The override of an active token is over at 70 s, and the claim at 90 s removes it. -/
theorem overlay_expiry_claimed :
    Always systemStep (fun s => OverlaysExpire (d := sampleDeployment) s.store) sampleSystem
      (overrideFirst ++ [.tick 80000000] ++ promptly (claimCall 11)) :=
  (overlay_expiry_iff sampleDeployment sampleSystem (by simp [sampleSystem, twoTokens])
    (overrideFirst ++ [.tick 80000000] ++ promptly (claimCall 11))).mpr (by decide +kernel)

/-- An epoch start under a live override leaves the schedule of an active token without a next
transition. -/
theorem epoch_start_forgets_overlay :
    ¬ ∀ (d : Deployment) (s : SchedulerSystem d),
      (∀ schedule ∈ s.store.schedules.rows, schedule.candidateCoverage = none) →
      ∀ actions : List (SystemAction d),
      Always systemStep (fun s => OverlaysExpire (d := d) s.store) s actions := by
  intro h
  have hwatched := (h sampleDeployment sampleSystem (by simp [sampleSystem, twoTokens])
    (overrideFirst ++ promptly (.initializeEpoch ⟨1, 1, 10000000, none⟩))).final.watched
  have hforgotten : ∃ schedule ∈ (run systemStep sampleSystem (overrideFirst ++
      promptly (.initializeEpoch ⟨1, 1, 10000000, none⟩))).store.schedules.rows,
      schedule.candidateCoverage.isSome ∧ schedule.coverageNextTransitionAt = none := by
    decide +kernel
  obtain ⟨schedule, hschedule, hoverlay, hnext⟩ := hforgotten
  obtain ⟨overlay, hoverlay⟩ := Option.isSome_iff_exists.mp hoverlay
  obtain ⟨t, ht, _⟩ := hwatched schedule hschedule overlay hoverlay
  rw [hnext] at ht
  cases ht

end PumpResearch.Scheduling
