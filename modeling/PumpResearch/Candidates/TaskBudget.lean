import PumpResearch.Candidates.Tasks

/-! The minute budget of task claims. The gate counts rows by their latest claim, so it counts
every issued claim only while no task is claimed twice within one minute. -/
namespace PumpResearch.Candidates
open KeyedTable Runs

/-- Claims issued in the minute that starts at an instant, repeated claims counted each time. -/
def issuedIn (start : Int) (s : TaskSystem) : Nat :=
  s.issued.countP fun entry => minuteStart entry.1 = start

/-- Claims share one budget and read clocks that never go back. -/
def ClaimsInOrder (budget : Nat) (s : TaskSystem) : TaskAction → Prop
  | .claim request _ _ =>
    request.tasksPerMinute = budget ∧ ∀ entry ∈ s.issued, entry.1 ≤ request.now
  | _ => True

/-- No claim picks a task already claimed in the same minute. -/
def NoReclaimInMinute (s : TaskSystem) : TaskAction → Prop
  | .claim request locked _ => ∀ task ∈ selectTasks request locked s.table,
      ¬ ClaimedSince (minuteStart request.now) task
  | _ => True

instance decidableClaimsInOrder (budget : Nat) (s : TaskSystem) :
    (action : TaskAction) → Decidable (ClaimsInOrder budget s action)
  | .claim request _ _ => inferInstanceAs (Decidable
      (request.tasksPerMinute = budget ∧ ∀ entry ∈ s.issued, entry.1 ≤ request.now))
  | .create .. | .complete .. | .fail .. | .defer .. | .tick _ => .isTrue trivial

instance decidableNoReclaimInMinute (s : TaskSystem) :
    (action : TaskAction) → Decidable (NoReclaimInMinute s action)
  | .claim request locked _ => inferInstanceAs (Decidable (∀ task ∈ selectTasks request locked
      s.table, ¬ ClaimedSince (minuteStart request.now) task))
  | .create .. | .complete .. | .fail .. | .defer .. | .tick _ => .isTrue trivial

/-- The rows account for the claims of the latest minute, and no minute is over budget. -/
structure Accounted (budget : Nat) (s : TaskSystem) : Prop where
  recorded : ∀ task ∈ s.table.rows, ∀ c ∈ task.claimedAt, ∃ entry ∈ s.issued, entry.1 = c
  counted : ∀ start, (∀ entry ∈ s.issued, minuteStart entry.1 ≤ start) →
    issuedIn start s ≤ claimedSince start s.table
  bounded : ∀ start, issuedIn start s ≤ budget

theorem accounted_initial (budget : Nat) (clock : Int) :
    Accounted budget (TaskSystem.initial clock) where
  recorded := by simp [TaskSystem.initial]
  counted := by simp [TaskSystem.initial, issuedIn]
  bounded := by simp [TaskSystem.initial, issuedIn]

/-! ### Actions that issue no claim -/

theorem claimedSince_insertNew {table : TaskTable} {task : EnrichmentTask} (h : Fresh task)
    (start : Int) : claimedSince start (table.insertNew task) = claimedSince start table := by
  cases hf : table.find? task.id with
  | some old => rw [Table.insertNew_eq_self hf]
  | none =>
    rw [claimedSince, Table.rows_insertNew_of_find?_eq_none hf]
    simp [claimedSince, ClaimedSince, h.2.2.2]

theorem TableStep.claimedSince_eq {table table' : TaskTable} (h : TableStep table table')
    (start : Int) : claimedSince start table' = claimedSince start table := by
  cases h with
  | same => rfl
  | created task fresh => exact claimedSince_insertNew fresh start
  | released task task' mem leased release =>
    apply Table.countP_write_of_agree
    intro new hnew old hold hkey
    rw [List.mem_singleton] at hnew
    subst hnew
    have hold' : old = task := table.eq_of_key_eq hold mem (hkey.trans release.id_eq)
    simp only [ClaimedSince, release.claimedAt_eq, hold']

theorem TableStep.recorded {table table' : TaskTable} {issued : List (Int × TaskClaim)}
    (h : TableStep table table')
    (hr : ∀ task ∈ table.rows, ∀ c ∈ task.claimedAt, ∃ entry ∈ issued, entry.1 = c) :
    ∀ task ∈ table'.rows, ∀ c ∈ task.claimedAt, ∃ entry ∈ issued, entry.1 = c := by
  cases h with
  | same => exact hr
  | created task fresh => exact Table.forall_insertNew (by simp [fresh.2.2.2]) hr
  | released task task' mem leased release =>
    have hnew : ∀ c ∈ task'.claimedAt, ∃ entry ∈ issued, entry.1 = c := by
      rw [release.claimedAt_eq]
      exact hr task mem
    exact Table.forall_write (by simpa using hnew) hr

theorem accounted_of_tableStep {budget : Nat} {s s' : TaskSystem} (h : Accounted budget s)
    (hstep : TableStep s.table s'.table) (hissued : s'.issued = s.issued) :
    Accounted budget s' where
  recorded := by
    rw [hissued]
    exact hstep.recorded h.recorded
  counted start hlate := by
    rw [hissued] at hlate
    rw [issuedIn, hissued, hstep.claimedSince_eq]
    exact h.counted start hlate
  bounded start := by
    rw [issuedIn, hissued]
    exact h.bounded start

/-! ### Claims -/

theorem issuedIn_claim (s : TaskSystem) (request : ClaimRequest) (locked : List Uuid)
    (leaseIds : Uuid → Uuid) (start : Int) :
    issuedIn start (taskStep s (.claim request locked leaseIds)) = issuedIn start s +
      if minuteStart request.now = start then (selectTasks request locked s.table).length else 0 := by
  simp only [issuedIn, taskStep, claimTasks, List.countP_append, List.map_map, List.countP_map]
  by_cases h : minuteStart request.now = start
  · simp [h, Function.comp_def]
  · simp [h, Function.comp_def]

/-- The picked rows are newly counted in the minute of the claim. -/
theorem claimedSince_claim (s : TaskSystem) (request : ClaimRequest) (locked : List Uuid)
    (leaseIds : Uuid → Uuid) (hw : NoReclaimInMinute s (.claim request locked leaseIds)) :
    claimedSince (minuteStart request.now) (taskStep s (.claim request locked leaseIds)).table =
      claimedSince (minuteStart request.now) s.table +
        (selectTasks request locked s.table).length := by
  apply Table.countP_write_map (f := claimRow request leaseIds) (fun _ => rfl)
  · exact fun task htask => (selectTasks_subset htask).1
  · exact selectTasks_nodup request locked s.table
  · exact fun task htask => decide_eq_false (hw task htask)
  · intro task _
    simp [ClaimedSince, claimRow, minuteStart_le]

/-- What the gate lets through fits the budget of its minute. -/
theorem picked_le_budget {budget : Nat} {s : TaskSystem} {request : ClaimRequest}
    (locked : List Uuid) (hbudget : request.tasksPerMinute = budget)
    (hcounted : issuedIn (minuteStart request.now) s ≤
      claimedSince (minuteStart request.now) s.table)
    (hbounded : issuedIn (minuteStart request.now) s ≤ budget) :
    issuedIn (minuteStart request.now) s + (selectTasks request locked s.table).length ≤
      budget := by
  have hlength := length_selectTasks_le request locked s.table
  unfold availableClaims at hlength
  omega

/-- A minute after that of the claim has seen no claim; without picked rows nothing changed. -/
theorem counted_later_minute {budget : Nat} {s : TaskSystem} {request : ClaimRequest}
    {locked : List Uuid} {leaseIds : Uuid → Uuid} {start : Int} (h : Accounted budget s)
    (horder : ∀ entry ∈ s.issued, entry.1 ≤ request.now)
    (hlate : ∀ entry ∈ (taskStep s (.claim request locked leaseIds)).issued,
      minuteStart entry.1 ≤ start) (hstart : minuteStart request.now ≠ start) :
    issuedIn start s ≤ claimedSince start (taskStep s (.claim request locked leaseIds)).table := by
  have hbefore : ∀ entry ∈ s.issued, minuteStart entry.1 ≤ start :=
    fun entry he => hlate entry (List.mem_append_left _ he)
  cases hsel : selectTasks request locked s.table with
  | nil =>
    have hsame : (taskStep s (.claim request locked leaseIds)).table = s.table := by
      simp only [taskStep, claimTasks, hsel, List.map_nil, Table.write_nil]
    rw [hsame]
    exact h.counted start hbefore
  | cons task rest =>
    have hentry : (request.now, claimOf leaseIds task) ∈
        (taskStep s (.claim request locked leaseIds)).issued := by
      simp [taskStep, claimTasks, hsel]
    have hle : minuteStart request.now ≤ start := hlate _ hentry
    have hzero : issuedIn start s = 0 := by
      rw [issuedIn, List.countP_eq_zero]
      intro entry he hin
      have hin' : minuteStart entry.1 = start := of_decide_eq_true hin
      have := minuteStart_mono (horder entry he)
      omega
    omega

theorem accounted_claim {budget : Nat} {s : TaskSystem} {request : ClaimRequest}
    {locked : List Uuid} {leaseIds : Uuid → Uuid} (h : Accounted budget s)
    (ho : ClaimsInOrder budget s (.claim request locked leaseIds))
    (hw : NoReclaimInMinute s (.claim request locked leaseIds)) :
    Accounted budget (taskStep s (.claim request locked leaseIds)) := by
  obtain ⟨hbudget, horder⟩ := ho
  have hlatest : ∀ entry ∈ s.issued, minuteStart entry.1 ≤ minuteStart request.now :=
    fun entry he => minuteStart_mono (horder entry he)
  have hcounted := h.counted _ hlatest
  have hfits := picked_le_budget locked hbudget hcounted (h.bounded _)
  refine ⟨?_, ?_, ?_⟩
  · refine Table.forall_write ?_ ?_
    · intro task htask c hc
      obtain ⟨old, hold, rfl⟩ := List.mem_map.mp htask
      have hentry : (request.now, claimOf leaseIds old) ∈
          (taskStep s (.claim request locked leaseIds)).issued := by
        refine List.mem_append_right _ ?_
        exact List.mem_map_of_mem (List.mem_map_of_mem hold)
      exact ⟨_, hentry, Option.some.inj hc⟩
    · intro task htask c hc
      obtain ⟨entry, hentry, hec⟩ := h.recorded task htask c hc
      exact ⟨entry, List.mem_append_left _ hentry, hec⟩
  · intro start hlate
    rw [issuedIn_claim]
    by_cases hstart : minuteStart request.now = start
    · subst hstart
      rw [if_pos rfl, claimedSince_claim s request locked leaseIds hw]
      omega
    · rw [if_neg hstart, Nat.add_zero]
      exact counted_later_minute h horder hlate hstart
  · intro start
    rw [issuedIn_claim]
    by_cases hstart : minuteStart request.now = start
    · subst hstart
      rw [if_pos rfl]
      exact hfits
    · rw [if_neg hstart, Nat.add_zero]
      exact h.bounded start

theorem accounted_step {budget : Nat} (s : TaskSystem) (action : TaskAction)
    (h : Accounted budget s) (hok : ClaimsInOrder budget s action ∧ NoReclaimInMinute s action) :
    Accounted budget (taskStep s action) := by
  cases action with
  | create identity candidate tier analysisType maxAttempts now =>
    exact accounted_of_tableStep h
      (createTask_step identity candidate tier analysisType maxAttempts now s.table) rfl
  | claim request locked leaseIds => exact accounted_claim h hok.1 hok.2
  | complete claim completion =>
    exact accounted_of_tableStep h (completeTask_step claim completion s.table) rfl
  | fail claim failedAt failureDetail retryDelay =>
    exact accounted_of_tableStep h
      (failTask_step claim failedAt failureDetail retryDelay s.table) rfl
  | defer claim deferredAt notBefore reason =>
    exact accounted_of_tableStep h
      (deferTask_step claim deferredAt notBefore reason s.table) rfl
  | tick elapsed => exact accounted_of_tableStep h .same rfl

/-- In every state of a run that picks no task twice within one minute, no minute has seen more
claims than the budget. -/
theorem minute_budget_kept (budget : Nat) (clock : Int) (actions : List TaskAction)
    (ho : Steps taskStep (ClaimsInOrder budget) (TaskSystem.initial clock) actions)
    (hw : Steps taskStep NoReclaimInMinute (TaskSystem.initial clock) actions) :
    Always taskStep (fun s => ∀ start, issuedIn start s ≤ budget) (TaskSystem.initial clock)
      actions :=
  (always_of_invariant accounted_step (ho.and hw) (accounted_initial budget clock)).mono
    fun _ h => h.bounded

/-! ### One task claimed twice in a minute -/

def oneClaim (second : Int) : TaskAction :=
  .claim ⟨seconds second, "worker", none, 1, 2, seconds 30, none⟩ [] fun _ => second.toNat

def sampleSource : TaskSource := ⟨1, 2, 3, 0, "evidence"⟩

def twoTasks : List TaskAction :=
  [.create analysisIdentity sampleSource .tier1Interesting "METADATA_REFRESH" 4 0,
   .create analysisIdentity sampleSource .tier1Interesting "BASIC_SECURITY_REFRESH" 4 0]

/-- Two tasks claimed half a minute apart stay within a budget of two. -/
theorem minute_budget_kept_two :
    Always taskStep (fun s => ∀ start, issuedIn start s ≤ 2) (TaskSystem.initial 0)
      (twoTasks ++ [oneClaim 0, oneClaim 10]) :=
  minute_budget_kept 2 0 (twoTasks ++ [oneClaim 0, oneClaim 10]) (by decide) (by decide)

/-- A claim at 0 s, its reclaim at 30 s and a claim at 31 s are three claims in one minute. -/
theorem reclaim_exceeds_budget :
    ¬ ∀ (budget : Nat) (clock : Int) (actions : List TaskAction),
      Steps taskStep (ClaimsInOrder budget) (TaskSystem.initial clock) actions →
      Always taskStep (fun s => ∀ start, issuedIn start s ≤ budget) (TaskSystem.initial clock)
        actions := by
  intro h
  have hkept := (h 2 0 (twoTasks ++ [oneClaim 0, oneClaim 30, oneClaim 31]) (by decide)).final 0
  exact absurd hkept (by decide)

end PumpResearch.Candidates
