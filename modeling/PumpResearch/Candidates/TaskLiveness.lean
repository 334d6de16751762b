import PumpResearch.Candidates.Tasks

/-! When a task is stranded: not terminal, not held, and never eligible again. Only an
attempt that was the last one can strand its task, by outliving its lease. -/
namespace PumpResearch.Candidates
open KeyedTable Runs

def Terminal (task : EnrichmentTask) : Prop := task.status = .succeeded ∨ task.status = .failed

/-- Held under a lease that has not expired. -/
def HeldAt (now : Int) (task : EnrichmentTask) : Prop :=
  ∃ lease ∈ task.lease, now < lease.expiresAt

/-- Eligible from some later time on, for every claimer that accepts its analysis type. -/
def ClaimableFrom (now : Int) (task : EnrichmentTask) : Prop :=
  ∃ start, now ≤ start ∧ ∀ t, start ≤ t → ∀ analysisTypes : Option (List String),
    (∀ types ∈ analysisTypes, task.analysisType ∈ types) → Eligible t analysisTypes task

def NotStranded (now : Int) (task : EnrichmentTask) : Prop :=
  Terminal task ∨ HeldAt now task ∨ ClaimableFrom now task

/-- The combinations of status, lease and attempts that the operations produce. -/
def TaskShape (task : EnrichmentTask) : Prop :=
  match task.status with
  | .pending | .retry | .deferred => task.lease = none ∧ task.attemptCount < task.maxAttempts
  | .claimed => task.lease.isSome ∧ task.attemptCount ≤ task.maxAttempts
  | .succeeded | .failed => task.lease = none

/-- Claimed for the last attempt it may have. -/
def LastAttempt (task : EnrichmentTask) : Prop :=
  task.status = .claimed ∧ task.attemptCount = task.maxAttempts

theorem claimableFrom_of_waiting {task : EnrichmentTask} (now : Int)
    (hs : task.status ∈ [.pending, .retry, .deferred]) (ha : task.attemptCount < task.maxAttempts) :
    ClaimableFrom now task := by
  refine ⟨max now task.notBefore, le_max_left _ _, ?_⟩
  intro t ht analysisTypes htypes
  have hnot : task.notBefore ≤ t := (le_max_right _ _).trans ht
  exact ⟨hnot, ha, .inl hs, htypes⟩

theorem claimableFrom_of_claimed {task : EnrichmentTask} (now : Int) {lease : TaskLease}
    (hs : task.status = .claimed) (hl : task.lease = some lease)
    (ha : task.attemptCount < task.maxAttempts) : ClaimableFrom now task := by
  refine ⟨max now (max task.notBefore lease.expiresAt), le_max_left _ _, ?_⟩
  intro t ht analysisTypes htypes
  have hnot : task.notBefore ≤ t := by omega
  have hexp : lease.expiresAt ≤ t := by omega
  exact ⟨hnot, ha, .inr ⟨hs, lease, hl, hexp⟩, htypes⟩

theorem ClaimableFrom.attempt_lt {now : Int} {task : EnrichmentTask}
    (h : ClaimableFrom now task) : task.attemptCount < task.maxAttempts := by
  obtain ⟨start, _, heligible⟩ := h
  exact (heligible start le_rfl none (by simp)).2.1

/-- A well-shaped task is stranded exactly when its last attempt has outlived its lease. -/
theorem notStranded_iff {task : EnrichmentTask} (h : TaskShape task) (now : Int) :
    NotStranded now task ↔ (LastAttempt task → HeldAt now task) := by
  have hwaiting : task.status ∈ [.pending, .retry, .deferred] → NotStranded now task := by
    intro hs
    have hlt : task.attemptCount < task.maxAttempts := by
      unfold TaskShape at h
      cases hst : task.status <;> simp_all
    exact .inr (.inr (claimableFrom_of_waiting now hs hlt))
  cases hs : task.status with
  | pending => simp [hwaiting (by simp [hs]), LastAttempt, hs]
  | retry => simp [hwaiting (by simp [hs]), LastAttempt, hs]
  | deferred => simp [hwaiting (by simp [hs]), LastAttempt, hs]
  | succeeded => simp [NotStranded, Terminal, LastAttempt, hs]
  | failed => simp [NotStranded, Terminal, LastAttempt, hs]
  | claimed =>
    simp only [TaskShape, hs] at h
    obtain ⟨lease, hl⟩ := Option.isSome_iff_exists.mp h.1
    constructor
    · intro hn hlast
      cases hn with
      | inl hterminal => simp [Terminal, hs] at hterminal
      | inr hrest =>
        cases hrest with
        | inl hheld => exact hheld
        | inr hclaimable => exact absurd hclaimable.attempt_lt (by simp [hlast.2])
    · intro hlast
      by_cases ha : task.attemptCount = task.maxAttempts
      · exact .inr (.inl (hlast ⟨hs, ha⟩))
      · have hlt : task.attemptCount < task.maxAttempts := by omega
        exact .inr (.inr (claimableFrom_of_claimed now hs hl hlt))

/-! ### Shapes are kept -/

theorem Fresh.shape {task : EnrichmentTask} (h : Fresh task) : TaskShape task := by
  obtain ⟨hs, hl, ha, _⟩ := h
  simp [TaskShape, hs, hl, ha, task.maxAttempts_pos]

theorem Released.shape {task task' : EnrichmentTask} (h : Released task task')
    (hshape : TaskShape task) (hleased : task.lease.isSome) : TaskShape task' := by
  cases h with
  | completed completion => rfl
  | failed failedAt failureDetail retryDelay =>
    unfold failedRow
    split
    · rfl
    · next hlt => exact ⟨rfl, not_le.mp hlt⟩
  | deferred deferredAt notBefore reason =>
    have hle : task.attemptCount ≤ task.maxAttempts := by
      unfold TaskShape at hshape
      cases hs : task.status <;> simp_all
    have hpos := task.maxAttempts_pos
    refine ⟨rfl, ?_⟩
    simp only [deferredRow]
    omega

/-- A released task waits or is done, so it is not stranded. -/
theorem Released.notStranded {task task' : EnrichmentTask} (h : Released task task')
    (hshape : TaskShape task') (now : Int) : NotStranded now task' := by
  rw [notStranded_iff hshape]
  intro hlast
  simp only [TaskShape, hlast.1, h.lease_eq] at hshape
  simp at hshape

theorem claimRow_shape (request : ClaimRequest) (leaseIds : Uuid → Uuid) {task : EnrichmentTask}
    (h : task.attemptCount < task.maxAttempts) : TaskShape (claimRow request leaseIds task) :=
  ⟨rfl, h⟩

theorem TableStep.shape {table table' : TaskTable} (h : TableStep table table')
    (hshape : ∀ task ∈ table.rows, TaskShape task) : ∀ task ∈ table'.rows, TaskShape task := by
  cases h with
  | same => exact hshape
  | created task fresh => exact Table.forall_insertNew fresh.shape hshape
  | released task task' mem leased release =>
    have hnew : TaskShape task' := release.shape (hshape task mem) leased
    exact Table.forall_write (by simpa using hnew) hshape

theorem TableStep.notStranded {table table' : TaskTable} {now : Int} (h : TableStep table table')
    (hshape : ∀ task ∈ table.rows, TaskShape task)
    (hok : ∀ task ∈ table.rows, NotStranded now task) :
    ∀ task ∈ table'.rows, NotStranded now task := by
  cases h with
  | same => exact hok
  | created task fresh =>
    have hnew : NotStranded now task := by
      rw [notStranded_iff fresh.shape]
      intro hlast
      simp [LastAttempt, fresh.1] at hlast
    exact Table.forall_insertNew hnew hok
  | released task task' mem leased release =>
    have hnew := release.notStranded (release.shape (hshape task mem) leased) now
    exact Table.forall_write (by simpa using hnew) hok

theorem taskStep_tableStep (s : TaskSystem) (action : TaskAction)
    (h : ∀ request locked leaseIds, action ≠ .claim request locked leaseIds) :
    TableStep s.table (taskStep s action).table := by
  cases action with
  | create identity candidate tier analysisType maxAttempts now =>
    exact createTask_step identity candidate tier analysisType maxAttempts now s.table
  | claim request locked leaseIds => exact absurd rfl (h request locked leaseIds)
  | complete claim completion => exact completeTask_step claim completion s.table
  | fail claim failedAt failureDetail retryDelay =>
    exact failTask_step claim failedAt failureDetail retryDelay s.table
  | defer claim deferredAt notBefore reason =>
    exact deferTask_step claim deferredAt notBefore reason s.table
  | tick elapsed => exact .same

def AllShaped (s : TaskSystem) : Prop := ∀ task ∈ s.table.rows, TaskShape task

theorem allShaped_step (s : TaskSystem) (action : TaskAction) (h : AllShaped s) :
    AllShaped (taskStep s action) := by
  by_cases hc : ∃ request locked leaseIds, action = .claim request locked leaseIds
  · obtain ⟨request, locked, leaseIds, rfl⟩ := hc
    refine Table.forall_write ?_ h
    intro task htask
    obtain ⟨old, hold, rfl⟩ := List.mem_map.mp htask
    exact claimRow_shape request leaseIds (selectTasks_subset hold).2.2.1
  · push Not at hc
    exact (taskStep_tableStep s action hc).shape h

/-! ### The exact condition -/

/-- No task is stranded now. -/
def NoneStranded (s : TaskSystem) : Prop := ∀ task ∈ s.table.rows, NotStranded s.clock task

/-- No last attempt outlives its lease: time does not pass its expiry, and no last attempt is
handed out under a lease that is already over. -/
def LastAttemptsCovered (s : TaskSystem) : TaskAction → Prop
  | .tick elapsed => ∀ task ∈ s.table.rows, LastAttempt task → HeldAt (s.clock + elapsed) task
  | .claim request locked _ => ∀ task ∈ selectTasks request locked s.table,
      task.attemptCount + 1 = task.maxAttempts → s.clock < request.now + request.leaseDuration
  | _ => True

theorem claimRow_notStranded_iff (request : ClaimRequest) (leaseIds : Uuid → Uuid) (clock : Int)
    {task : EnrichmentTask} (h : task.attemptCount < task.maxAttempts) :
    NotStranded clock (claimRow request leaseIds task) ↔
      (task.attemptCount + 1 = task.maxAttempts →
        clock < request.now + request.leaseDuration) := by
  rw [notStranded_iff (claimRow_shape request leaseIds h)]
  simp [LastAttempt, HeldAt, claimRow]

theorem noneStranded_claim_iff (s : TaskSystem) (request : ClaimRequest) (locked : List Uuid)
    (leaseIds : Uuid → Uuid) (hok : NoneStranded s) :
    NoneStranded (taskStep s (.claim request locked leaseIds)) ↔
      LastAttemptsCovered s (.claim request locked leaseIds) := by
  constructor
  · intro h task htask
    obtain ⟨hmem, heligible⟩ := selectTasks_subset htask
    have hnodup : (((selectTasks request locked s.table).map (claimRow request leaseIds)).map
        (·.id)).Nodup := by
      rw [List.map_map]
      exact selectTasks_nodup request locked s.table
    have hrow : claimRow request leaseIds task ∈
        (taskStep s (.claim request locked leaseIds)).table.rows :=
      Table.mem_write_of_mem hnodup (List.mem_map_of_mem htask) hmem rfl
    exact (claimRow_notStranded_iff request leaseIds s.clock heligible.2.1).mp (h _ hrow)
  · intro h
    refine Table.forall_write ?_ hok
    intro task htask
    obtain ⟨old, hold, rfl⟩ := List.mem_map.mp htask
    have hlt := (selectTasks_subset hold).2.2.1
    exact (claimRow_notStranded_iff request leaseIds s.clock hlt).mpr (h old hold)

theorem noneStranded_step_iff (s : TaskSystem) (action : TaskAction) (hshape : AllShaped s)
    (hok : NoneStranded s) : NoneStranded (taskStep s action) ↔ LastAttemptsCovered s action := by
  have hother (h : TableStep s.table (taskStep s action).table)
      (hclock : (taskStep s action).clock = s.clock) : NoneStranded (taskStep s action) := by
    unfold NoneStranded
    rw [hclock]
    exact h.notStranded hshape hok
  cases action with
  | create identity candidate tier analysisType maxAttempts now =>
    exact iff_of_true (hother (taskStep_tableStep s _ (by simp)) rfl) trivial
  | claim request locked leaseIds => exact noneStranded_claim_iff s request locked leaseIds hok
  | complete claim completion =>
    exact iff_of_true (hother (taskStep_tableStep s _ (by simp)) rfl) trivial
  | fail claim failedAt failureDetail retryDelay =>
    exact iff_of_true (hother (taskStep_tableStep s _ (by simp)) rfl) trivial
  | defer claim deferredAt notBefore reason =>
    exact iff_of_true (hother (taskStep_tableStep s _ (by simp)) rfl) trivial
  | tick elapsed =>
    exact forall₂_congr fun task htask => notStranded_iff (hshape task htask) _

/-- Along a run of the queue no task is ever stranded exactly when no last attempt outlives
its lease. -/
theorem never_stranded_iff (clock : Int) (actions : List TaskAction) :
    Always taskStep NoneStranded (TaskSystem.initial clock) actions ↔
      Steps taskStep LastAttemptsCovered (TaskSystem.initial clock) actions :=
  always_iff_steps allShaped_step noneStranded_step_iff (fun _ h => absurd h (by simp
    [TaskSystem.initial])) (fun _ h => absurd h (by simp [TaskSystem.initial])) actions

/-! ### A crash on the last attempt -/

def crashSource : TaskSource := ⟨1, 2, 3, 0, "evidence"⟩

/-- A claim under the default settings, by a worker that then crashes. -/
def crashClaim (minutes : Int) : TaskAction :=
  .claim ⟨seconds (60 * minutes), "worker", none, 1, 12, seconds 300, none⟩ []
    fun _ => minutes.toNat

/-- Four claims of one task, each outlived by five minutes. -/
def fourCrashes : List TaskAction :=
  [.create analysisIdentity crashSource .tier1Interesting "METADATA_REFRESH" 4 0,
   crashClaim 0, .tick 300000000, crashClaim 5, .tick 300000000,
   crashClaim 10, .tick 300000000, crashClaim 15, .tick 300000000]

/-- Four crashes leave the task claimed for good: its attempts are used up. -/
theorem four_crashes_strand :
    ¬ ∀ clock actions, Always taskStep NoneStranded (TaskSystem.initial clock) actions := by
  intro h
  have hnone := (h 0 fourCrashes).final
  have hrow : ∃ task ∈ (run taskStep (TaskSystem.initial 0) fourCrashes).table.rows,
      task.status = .claimed ∧ task.attemptCount = 4 ∧ task.maxAttempts = 4 ∧
        task.lease = some ⟨15, 1200000000⟩ := by decide
  obtain ⟨task, hmem, hs, ha, hm, hl⟩ := hrow
  have hshape : TaskShape task := by simp [TaskShape, hs, hl, ha, hm]
  have hheld := (notStranded_iff hshape _).mp (hnone task hmem) ⟨hs, ha.trans hm.symm⟩
  obtain ⟨lease, hlease, hlt⟩ := hheld
  rw [hl, Option.mem_some_iff] at hlease
  subst hlease
  exact absurd hlt (by decide)

end PumpResearch.Candidates
