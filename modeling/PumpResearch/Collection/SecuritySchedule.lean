import PumpResearch.Candidates.Tasks
import PumpResearch.Library.Results

/-! The finite schedule of mint-security snapshots: tasks created once, claimed in batches under
leases, and advanced or put off by whole batches. -/
namespace PumpResearch.Collection

open Candidates KeyedOrder KeyedTable Results Runs

/-! ### Tasks -/

/-- `_SECURITY_PHASE_DELAYS`. -/
def securityPhaseDelays : List Int := [seconds 3600, seconds (23 * 3600), seconds (6 * 86400)]

structure SecurityTask where
  tokenId : Uuid
  phase : Nat
  nextDueAt : Option Int
  lastCheckedAt : Option Int
  attemptCount : Nat
  lease : Option TaskLease
  updatedAt : Int
deriving DecidableEq

abbrev SecurityTable := Table SecurityTask.tokenId

structure SecurityClaim where
  tokenId : Uuid
  phase : Nat
  leaseId : Uuid
deriving DecidableEq

inductive SecurityTaskError where
  | leaseLost
  | claimsMismatch
  | identityConflict
deriving DecidableEq

/-- `create_if_absent`. -/
def createSecurityTask (tokenId : Uuid) (dueAt : Int) (table : SecurityTable) : SecurityTable :=
  table.insertNew ⟨tokenId, 0, some dueAt, none, 0, none, dueAt⟩

/-- The condition of `claim_due`. -/
def SecurityTask.Claimable (now : Int) (task : SecurityTask) : Prop :=
  (∃ due ∈ task.nextDueAt, due ≤ now) ∧ ∀ lease ∈ task.lease, lease.expiresAt ≤ now

instance decidableSecurityClaimable (now : Int) : DecidablePred (SecurityTask.Claimable now) :=
  fun task => inferInstanceAs (Decidable ((∃ due ∈ task.nextDueAt, _) ∧ ∀ lease ∈ task.lease, _))

/-- `ORDER BY next_due_at NULLS FIRST, token_id`. -/
def securityOrder (task : SecurityTask) : WithBot Int ×ₗ Nat := toLex (task.nextDueAt, task.tokenId)

structure SecurityClaimRequest where
  now : Int
  limit : Nat
  leaseDuration : Int

/-- The rows that a claim picks; rows locked by other transactions are skipped. -/
def selectSecurityTasks (request : SecurityClaimRequest) (locked : List Uuid)
    (table : SecurityTable) : List SecurityTask :=
  ((sortOn securityOrder (table.rows.filter fun task => task.Claimable request.now)).filter
    fun task => task.tokenId ∉ locked).take request.limit

def SecurityTask.claimed (request : SecurityClaimRequest) (leaseIds : Uuid → Uuid)
    (task : SecurityTask) : SecurityTask :=
  { task with
    lease := some ⟨leaseIds task.tokenId, request.now + request.leaseDuration⟩
    updatedAt := request.now }

/-- `claim_due`, with the leases drawn for the picked tasks. -/
def claimSecurityTasks (request : SecurityClaimRequest) (locked : List Uuid)
    (leaseIds : Uuid → Uuid) (table : SecurityTable) : SecurityTable × List SecurityClaim :=
  let rows := selectSecurityTasks request locked table
  (table.write (rows.map (SecurityTask.claimed request leaseIds)),
    rows.map fun task => ⟨task.tokenId, task.phase, leaseIds task.tokenId⟩)

/-- Whether the task of a claim still has the lease of the claim. -/
def SecurityClaim.Owns (claim : SecurityClaim) (task : SecurityTask) : Prop :=
  ∃ lease ∈ task.lease, lease.leaseId = claim.leaseId

instance decidableOwns (claim : SecurityClaim) : DecidablePred claim.Owns :=
  fun task => inferInstanceAs (Decidable (∃ lease ∈ task.lease, _))

/-- What `complete` and `retry` do to each claimed task in turn. -/
def updateOwned (update : SecurityTask → SecurityTask) (table : SecurityTable)
    (claim : SecurityClaim) : Except SecurityTaskError SecurityTable :=
  match table.find? claim.tokenId with
  | none => .error .leaseLost
  | some task => if claim.Owns task then .ok (table.write [update task]) else .error .leaseLost

/-- The due time of a task after its phase has advanced. -/
def dueAfter (checkedAt : Int) (phase : Nat) : Option Int :=
  if phase ≤ securityPhaseDelays.length then
    securityPhaseDelays[phase - 1]?.map (checkedAt + ·)
  else none

def SecurityTask.completed (checkedAt : Int) (task : SecurityTask) : SecurityTask :=
  { task with
    phase := task.phase + 1
    lastCheckedAt := some checkedAt
    attemptCount := task.attemptCount + 1
    lease := none
    nextDueAt := dueAfter checkedAt (task.phase + 1)
    updatedAt := checkedAt }

def completeSecurityTasks (claims : List SecurityClaim) (checkedAt : Int) (table : SecurityTable) :
    Except SecurityTaskError SecurityTable :=
  claims.foldlM (updateOwned (SecurityTask.completed checkedAt)) table

def SecurityTask.retried (checkedAt retryAt : Int) (task : SecurityTask) : SecurityTask :=
  { task with
    lastCheckedAt := some checkedAt
    attemptCount := task.attemptCount + 1
    lease := none
    nextDueAt := some retryAt
    updatedAt := checkedAt }

def retrySecurityTasks (claims : List SecurityClaim) (checkedAt retryAt : Int)
    (table : SecurityTable) : Except SecurityTaskError SecurityTable :=
  claims.foldlM (updateOwned (SecurityTask.retried checkedAt retryAt)) table

/-! ### Snapshots -/

/-- The parts that the idempotency key of a snapshot is the digest of. -/
structure SecuritySnapshotKey where
  tokenId : Uuid
  phase : Nat
  requestId : Uuid
deriving DecidableEq

/-- A snapshot with what was decoded of the mint account. -/
structure TokenSecuritySnapshot (Mint : Type) where
  idempotencyKey : SecuritySnapshotKey
  tokenId : Uuid
  collectorRunId : Uuid
  apiRequestLogId : Uuid
  receivedAt : Int
  rpcSlot : Option Int
  mint : Mint
deriving DecidableEq

section Runs

variable {Mint : Type} [DecidableEq Mint]

abbrev SnapshotTable (Mint : Type) := Table (@TokenSecuritySnapshot.idempotencyKey Mint)

/-- `TokenSecuritySnapshotRepository.record`. -/
def recordSnapshot (table : SnapshotTable Mint) (values : TokenSecuritySnapshot Mint) :
    Except SecurityTaskError (SnapshotTable Mint) :=
  let inserted := table.insertNew values
  if inserted.find? values.idempotencyKey = some values then .ok inserted
  else .error .identityConflict

/-- What a worker brings back for the claims of its batch. -/
structure MintBatch (Mint : Type) where
  claims : List SecurityClaim
  collectorRunId : Uuid
  receivedAt : Int
  slot : Option Int
  mints : List Mint

def MintBatch.snapshot (batch : MintBatch Mint) (requestId : Uuid) (entry : SecurityClaim × Mint) :
    TokenSecuritySnapshot Mint where
  idempotencyKey := ⟨entry.1.tokenId, entry.1.phase, requestId⟩
  tokenId := entry.1.tokenId
  collectorRunId := batch.collectorRunId
  apiRequestLogId := requestId
  receivedAt := batch.receivedAt
  rpcSlot := batch.slot
  mint := entry.2

/-- The transaction of `collect_due` that records the snapshots of a batch and completes it. -/
def finishBatch (batch : MintBatch Mint) (requestId : Uuid) (tasks : SecurityTable)
    (snapshots : SnapshotTable Mint) :
    Except SecurityTaskError (SecurityTable × SnapshotTable Mint) := do
  if batch.claims.length ≠ batch.mints.length then throw .claimsMismatch
  let snapshots ← ((batch.claims.zip batch.mints).map (batch.snapshot requestId)).foldlM
    recordSnapshot snapshots
  let tasks ← completeSecurityTasks batch.claims batch.receivedAt tasks
  return (tasks, snapshots)

/-! ### Runs -/

/-- The tables, the number of request identities drawn, and the tokens of committed completions. -/
structure SecurityRun (Mint : Type) where
  tasks : SecurityTable
  snapshots : SnapshotTable Mint
  drawn : Nat
  completions : List Uuid

def SecurityRun.initial : SecurityRun Mint := ⟨Table.empty, Table.empty, 0, []⟩

/-- A crashed worker takes no further action. -/
inductive SecurityAction (Mint : Type) where
  | create (tokenId : Uuid) (dueAt : Int)
  | claim (request : SecurityClaimRequest) (locked : List Uuid) (leaseIds : Uuid → Uuid)
  | finish (batch : MintBatch Mint)
  | retry (claims : List SecurityClaim) (checkedAt retryAt : Int)

/-- A transaction that raises is rolled back. -/
def SecurityRun.step (s : SecurityRun Mint) : SecurityAction Mint → SecurityRun Mint
  | .create tokenId dueAt => { s with tasks := createSecurityTask tokenId dueAt s.tasks }
  | .claim request locked leaseIds =>
    { s with tasks := (claimSecurityTasks request locked leaseIds s.tasks).1 }
  | .finish batch =>
    match finishBatch batch s.drawn s.tasks s.snapshots with
    | .ok (tasks, snapshots) =>
      ⟨tasks, snapshots, s.drawn + 1, s.completions ++ batch.claims.map SecurityClaim.tokenId⟩
    | .error _ => s
  | .retry claims checkedAt retryAt =>
    match retrySecurityTasks claims checkedAt retryAt s.tasks with
    | .ok tasks => { s with tasks := tasks }
    | .error _ => s

/-! ### Owned tasks -/

theorem updateOwned_eq_ok {update : SecurityTask → SecurityTask} {table table' : SecurityTable}
    {claim : SecurityClaim} (h : updateOwned update table claim = .ok table') :
    ∃ task ∈ table.rows, task.tokenId = claim.tokenId ∧ claim.Owns task ∧
      table' = table.write [update task] := by
  rw [updateOwned] at h
  cases hfound : table.find? claim.tokenId with
  | none =>
    rw [hfound] at h
    cases h
  | some task =>
    simp only [hfound] at h
    obtain ⟨hmem, htoken⟩ := Table.find?_eq_some_iff.mp hfound
    split at h
    · next howns => exact ⟨task, hmem, htoken, howns, (Except.ok.inj h).symm⟩
    · cases h

/-- An update that releases the lease. -/
structure Releases (update : SecurityTask → SecurityTask) : Prop where
  token : ∀ task, (update task).tokenId = task.tokenId
  lease : ∀ task, (update task).lease = none

theorem releases_completed (checkedAt : Int) : Releases (SecurityTask.completed checkedAt) :=
  ⟨fun _ => rfl, fun _ => rfl⟩

theorem releases_retried (checkedAt retryAt : Int) :
    Releases (SecurityTask.retried checkedAt retryAt) := ⟨fun _ => rfl, fun _ => rfl⟩

/-- A batch that is updated is one of distinct tokens, all owned beforehand. -/
theorem owned_of_updated {update : SecurityTask → SecurityTask} (hupdate : Releases update)
    {claims : List SecurityClaim} {table table' : SecurityTable}
    (h : claims.foldlM (updateOwned update) table = .ok table') :
    (claims.map SecurityClaim.tokenId).Nodup ∧
      ∀ claim ∈ claims, ∃ task ∈ table.rows, task.tokenId = claim.tokenId ∧ claim.Owns task := by
  induction claims generalizing table with
  | nil =>
    refine ⟨List.nodup_nil, ?_⟩
    intro claim hclaim
    cases hclaim
  | cons first rest ih =>
    rw [List.foldlM_cons, bind_eq_ok] at h
    obtain ⟨mid, hmid, hrest⟩ := h
    obtain ⟨task, hmem, htoken, howns, rfl⟩ := updateOwned_eq_ok hmid
    obtain ⟨hnodup, howned⟩ := ih hrest
    -- what a later claim owns is no row that this one has released
    have hkept : ∀ claim ∈ rest, claim.tokenId ≠ first.tokenId ∧
        ∃ task ∈ table.rows, task.tokenId = claim.tokenId ∧ claim.Owns task := by
      intro claim hclaim
      obtain ⟨other, hother, hsame, hown⟩ := howned claim hclaim
      cases Table.mem_write hother with
      | inl hnew =>
        rw [List.mem_singleton] at hnew
        obtain ⟨lease, hlease, _⟩ := hown
        rw [hnew, hupdate.lease] at hlease
        cases hlease
      | inr hold =>
        refine ⟨?_, other, hold.1, hsame, hown⟩
        intro heq
        refine hold.2 _ (List.mem_singleton_self _) ?_
        rw [hupdate.token, htoken, hsame, heq]
    constructor
    · rw [List.map_cons, List.nodup_cons]
      refine ⟨?_, hnodup⟩
      intro hdup
      obtain ⟨claim, hclaim, heq⟩ := List.mem_map.mp hdup
      exact (hkept claim hclaim).1 heq
    · intro claim hclaim
      rcases List.mem_cons.mp hclaim with rfl | hlater
      · exact ⟨task, hmem, htoken, howns⟩
      · exact (hkept claim hlater).2

/-! ### Phases -/

theorem dueAfter_eq_none {checkedAt : Int} {phase : Nat} :
    dueAfter checkedAt (phase + 1) = none ↔ securityPhaseDelays.length < phase + 1 := by
  rw [dueAfter, Nat.add_sub_cancel]
  by_cases h : phase + 1 ≤ securityPhaseDelays.length
  · rw [if_pos h, Option.map_eq_none_iff, List.getElem?_eq_none_iff]
    omega
  · rw [if_neg h]
    exact iff_of_true rfl (by omega)

/-- A task whose phase is the number of its completions, due until the last of them. -/
structure SecurityTask.Sound (completions : List Uuid) (task : SecurityTask) : Prop where
  phase : task.phase = completions.count task.tokenId
  phase_le : task.phase ≤ securityPhaseDelays.length + 1
  due_iff : task.nextDueAt = none ↔ task.phase = securityPhaseDelays.length + 1
  leased : task.lease ≠ none → task.nextDueAt ≠ none

section Tasks

variable {completions : List Uuid} {task : SecurityTask}

theorem SecurityTask.Sound.completed (h : task.Sound completions) (hlease : task.lease ≠ none)
    (checkedAt : Int) : (task.completed checkedAt).Sound (completions ++ [task.tokenId]) := by
  have hbefore : task.phase ≠ securityPhaseDelays.length + 1 := fun hlast =>
    h.leased hlease (h.due_iff.mpr hlast)
  have hle := h.phase_le
  constructor
  · rw [List.count_append, List.count_singleton]
    have hphase := h.phase
    simp only [SecurityTask.completed, beq_self_eq_true, if_true]
    omega
  · simp only [SecurityTask.completed]
    omega
  · simp only [SecurityTask.completed]
    rw [dueAfter_eq_none]
    omega
  · intro hnone
    exact absurd rfl hnone

theorem SecurityTask.Sound.retried (h : task.Sound completions) (hlease : task.lease ≠ none)
    (checkedAt retryAt : Int) : (task.retried checkedAt retryAt).Sound completions := by
  have hbefore : task.phase ≠ securityPhaseDelays.length + 1 := fun hlast =>
    h.leased hlease (h.due_iff.mpr hlast)
  refine ⟨h.phase, h.phase_le, ?_, ?_⟩
  · simp only [SecurityTask.retried]
    exact iff_of_false (Option.some_ne_none retryAt) hbefore
  · intro hnone
    exact absurd rfl hnone

theorem SecurityTask.Sound.claimed (h : task.Sound completions) {request : SecurityClaimRequest}
    (hclaimable : task.Claimable request.now) (leaseIds : Uuid → Uuid) :
    (task.claimed request leaseIds).Sound completions := by
  refine ⟨h.phase, h.phase_le, h.due_iff, ?_⟩
  intro _ hnone
  obtain ⟨due, hdue, _⟩ := hclaimable.1
  simp only [SecurityTask.claimed] at hnone
  rw [hnone] at hdue
  cases hdue

theorem SecurityTask.Sound.other (h : task.Sound completions) {tokenId : Uuid}
    (hne : tokenId ≠ task.tokenId) : task.Sound (completions ++ [tokenId]) := by
  refine ⟨?_, h.phase_le, h.due_iff, h.leased⟩
  rw [List.count_append, List.count_singleton, beq_false_of_ne hne]
  exact h.phase

/-- A task before its final phase becomes claimable by time alone. -/
theorem SecurityTask.Sound.claimable_later (h : task.Sound completions)
    (hphase : task.phase < securityPhaseDelays.length + 1) (now : Int) :
    ∃ later, now ≤ later ∧ ∀ t, later ≤ t → task.Claimable t := by
  cases hdue : task.nextDueAt with
  | none =>
    have hlast := h.due_iff.mp hdue
    omega
  | some due =>
    cases hlease : task.lease with
    | none =>
      refine ⟨max now due, le_max_left _ _, fun t ht => ⟨⟨due, hdue, by omega⟩, ?_⟩⟩
      intro lease hmem
      rw [hlease] at hmem
      cases hmem
    | some lease =>
      refine ⟨max now (max due lease.expiresAt), le_max_left _ _,
        fun t ht => ⟨⟨due, hdue, by omega⟩, ?_⟩⟩
      intro other hmem
      rw [hlease, Option.mem_some_iff] at hmem
      rw [← hmem]
      omega

end Tasks

/-- Sound tasks. Every completed token has one. -/
structure TasksSound (completions : List Uuid) (table : SecurityTable) : Prop where
  rows : ∀ task ∈ table.rows, task.Sound completions
  known : ∀ tokenId ∈ completions, ∃ task ∈ table.rows, task.tokenId = tokenId

section Tables

variable {completions : List Uuid} {table table' : SecurityTable}

/-- Updated rows leave no token without its task. -/
theorem known_write {tokenId : Uuid} (h : ∃ task ∈ table.rows, task.tokenId = tokenId)
    (updated : List SecurityTask) : ∃ task ∈ (table.write updated).rows, task.tokenId = tokenId := by
  obtain ⟨task, hmem, htoken⟩ := h
  have hkey : (Table.written SecurityTask.tokenId updated task).tokenId = task.tokenId :=
    Table.key_written updated task
  refine ⟨Table.written SecurityTask.tokenId updated task, ?_, hkey.trans htoken⟩
  rw [Table.rows_write]
  exact List.mem_map_of_mem hmem

theorem TasksSound.create (h : TasksSound completions table) (tokenId : Uuid) (dueAt : Int) :
    TasksSound completions (createSecurityTask tokenId dueAt table) := by
  rw [createSecurityTask]
  cases hfound : table.find? tokenId with
  | some task =>
    rw [Table.insertNew_eq_self hfound]
    exact h
  | none =>
    have hrows : (table.insertNew ⟨tokenId, 0, some dueAt, none, 0, none, dueAt⟩).rows =
        table.rows ++ [⟨tokenId, 0, some dueAt, none, 0, none, dueAt⟩] :=
      Table.rows_insertNew_of_find?_eq_none hfound
    constructor
    · rw [hrows]
      intro task hmem
      cases List.mem_append.mp hmem with
      | inl hold => exact h.rows task hold
      | inr hnew =>
        rw [List.mem_singleton] at hnew
        rw [hnew]
        refine ⟨?_, Nat.zero_le _, ?_, fun hnone => absurd rfl hnone⟩
        · symm
          rw [List.count_eq_zero]
          intro hcompleted
          obtain ⟨other, hother, htoken⟩ := h.known tokenId hcompleted
          exact Table.find?_eq_none_iff.mp hfound other hother htoken
        · exact iff_of_false (Option.some_ne_none dueAt) (Nat.succ_ne_zero _).symm
    · intro token hcompleted
      obtain ⟨task, hmem, htoken⟩ := h.known token hcompleted
      exact ⟨task, Table.mem_insertNew_of_mem hmem, htoken⟩

theorem mem_selectSecurityTasks {request : SecurityClaimRequest} {locked : List Uuid}
    {task : SecurityTask} (h : task ∈ selectSecurityTasks request locked table) :
    task ∈ table.rows ∧ task.Claimable request.now := by
  have hsorted := (List.mem_filter.mp (List.mem_of_mem_take h)).1
  rw [mem_sortOn, List.mem_filter, decide_eq_true_eq] at hsorted
  exact hsorted

theorem TasksSound.claim (h : TasksSound completions table) (request : SecurityClaimRequest)
    (locked : List Uuid) (leaseIds : Uuid → Uuid) :
    TasksSound completions (claimSecurityTasks request locked leaseIds table).1 := by
  constructor
  · intro task hmem
    cases Table.mem_write hmem with
    | inr hold => exact h.rows task hold.1
    | inl hnew =>
      obtain ⟨row, hrow, rfl⟩ := List.mem_map.mp hnew
      obtain ⟨hstored, hclaimable⟩ := mem_selectSecurityTasks hrow
      exact (h.rows row hstored).claimed hclaimable leaseIds
  · intro token hcompleted
    exact known_write (h.known token hcompleted) _

theorem lease_ne_none_of_owns {claim : SecurityClaim} {task : SecurityTask} (h : claim.Owns task) :
    task.lease ≠ none := by
  obtain ⟨lease, hlease, _⟩ := h
  intro hnone
  rw [hnone] at hlease
  cases hlease

theorem TasksSound.complete_one (h : TasksSound completions table) {claim : SecurityClaim}
    {checkedAt : Int}
    (hstep : updateOwned (SecurityTask.completed checkedAt) table claim = .ok table') :
    TasksSound (completions ++ [claim.tokenId]) table' := by
  obtain ⟨task, hmem, htoken, howns, rfl⟩ := updateOwned_eq_ok hstep
  constructor
  · intro row hrow
    cases Table.mem_write hrow with
    | inl hnew =>
      rw [List.mem_singleton] at hnew
      rw [hnew, ← htoken]
      exact (h.rows task hmem).completed (lease_ne_none_of_owns howns) checkedAt
    | inr hold =>
      refine (h.rows row hold.1).other ?_
      rw [← htoken]
      exact hold.2 (task.completed checkedAt) (List.mem_singleton_self _)
  · intro token hcompleted
    refine known_write ?_ _
    cases List.mem_append.mp hcompleted with
    | inl hold => exact h.known token hold
    | inr hnew =>
      rw [List.mem_singleton] at hnew
      exact ⟨task, hmem, htoken.trans hnew.symm⟩

theorem TasksSound.complete (h : TasksSound completions table) {claims : List SecurityClaim}
    {checkedAt : Int} (hcomplete : completeSecurityTasks claims checkedAt table = .ok table') :
    TasksSound (completions ++ claims.map SecurityClaim.tokenId) table' := by
  refine foldlM_invariant
    (fun done table => TasksSound (completions ++ done.map SecurityClaim.tokenId) table)
    ?_ hcomplete ?_
  · intro done claim mid next hmid hnext
    rw [List.map_append, List.map_singleton, ← List.append_assoc]
    exact hmid.complete_one hnext
  · rw [List.map_nil, List.append_nil]
    exact h

theorem TasksSound.retry (h : TasksSound completions table) {claims : List SecurityClaim}
    {checkedAt retryAt : Int}
    (hretry : retrySecurityTasks claims checkedAt retryAt table = .ok table') :
    TasksSound completions table' := by
  refine foldlM_invariant (fun _ table => TasksSound completions table) ?_ hretry h
  intro _ claim mid next hmid hnext
  obtain ⟨task, hmem, _, howns, rfl⟩ := updateOwned_eq_ok hnext
  constructor
  · intro row hrow
    cases Table.mem_write hrow with
    | inl hnew =>
      rw [List.mem_singleton] at hnew
      rw [hnew]
      exact (hmid.rows task hmem).retried (lease_ne_none_of_owns howns) checkedAt retryAt
    | inr hold => exact hmid.rows row hold.1
  · intro token hcompleted
    exact known_write (hmid.known token hcompleted) _

end Tables

/-! ### Snapshots of completions -/

/-- Snapshots of new keys are all added, in their order. -/
theorem rows_recordSnapshots {values : List (TokenSecuritySnapshot Mint)}
    {table table' : SnapshotTable Mint}
    (hnodup : ((table.rows ++ values).map TokenSecuritySnapshot.idempotencyKey).Nodup)
    (h : values.foldlM recordSnapshot table = .ok table') :
    table'.rows = table.rows ++ values := by
  induction values generalizing table with
  | nil =>
    rw [List.foldlM_nil, pure_eq_ok] at h
    rw [h, List.append_nil]
  | cons first rest ih =>
    rw [List.foldlM_cons, bind_eq_ok] at h
    obtain ⟨mid, hmid, hrest⟩ := h
    have hnew : table.find? first.idempotencyKey = none := by
      rw [Table.find?_eq_none_iff]
      intro row hrow heq
      rw [List.map_append, List.nodup_append] at hnodup
      exact hnodup.2.2 _ (List.mem_map_of_mem hrow) _ (List.mem_map_of_mem List.mem_cons_self) heq
    have hrows := Table.rows_insertNew_of_find?_eq_none hnew
    rw [recordSnapshot] at hmid
    split at hmid
    · obtain rfl := Except.ok.inj hmid
      rw [ih (by rw [hrows, List.append_assoc]; exact hnodup) hrest, hrows, List.append_assoc]
      rfl
    · cases hmid

theorem finishBatch_eq_ok {batch : MintBatch Mint} {requestId : Uuid}
    {tasks tasks' : SecurityTable} {snapshots snapshots' : SnapshotTable Mint}
    (h : finishBatch batch requestId tasks snapshots = .ok (tasks', snapshots')) :
    batch.claims.length = batch.mints.length ∧
      ((batch.claims.zip batch.mints).map (batch.snapshot requestId)).foldlM recordSnapshot
        snapshots = .ok snapshots' ∧
      completeSecurityTasks batch.claims batch.receivedAt tasks = .ok tasks' := by
  rw [finishBatch] at h
  split at h
  · cases h
  · next hlength =>
    rw [not_not] at hlength
    simp only [bind_eq_ok, pure_eq_ok, Prod.mk.injEq] at h
    obtain ⟨recorded, hrecorded, completed, hcompleted, rfl, rfl⟩ := h
    exact ⟨hlength, hrecorded, hcompleted⟩

omit [DecidableEq Mint] in
/-- The tokens of a batch's snapshots are those of its claims. -/
theorem map_tokenId_snapshots {batch : MintBatch Mint}
    (h : batch.claims.length = batch.mints.length) (requestId : Uuid) :
    ((batch.claims.zip batch.mints).map (batch.snapshot requestId)).map
      TokenSecuritySnapshot.tokenId = batch.claims.map SecurityClaim.tokenId := by
  have hzip : (batch.claims.zip batch.mints).map Prod.fst = batch.claims :=
    List.map_fst_zip h.le
  rw [List.map_map]
  conv_rhs => rw [← hzip, List.map_map]
  rfl

/-- Sound tasks, one snapshot for each completion, and requests not drawn before. -/
structure SecurityRun.Sound (s : SecurityRun Mint) : Prop where
  tasks : TasksSound s.completions s.tasks
  snapshots : s.snapshots.rows.map TokenSecuritySnapshot.tokenId = s.completions
  drawn : ∀ snapshot ∈ s.snapshots.rows, snapshot.idempotencyKey.requestId < s.drawn

omit [DecidableEq Mint] in
theorem SecurityRun.sound_initial : (SecurityRun.initial : SecurityRun Mint).Sound := by
  refine ⟨⟨?_, ?_⟩, rfl, ?_⟩
  · intro task hmem
    cases hmem
  · intro token hmem
    cases hmem
  · intro snapshot hmem
    cases hmem

theorem SecurityRun.Sound.finish {s : SecurityRun Mint} (h : s.Sound) {batch : MintBatch Mint}
    {tasks : SecurityTable} {snapshots : SnapshotTable Mint}
    (hfinish : finishBatch batch s.drawn s.tasks s.snapshots = .ok (tasks, snapshots)) :
    (⟨tasks, snapshots, s.drawn + 1, s.completions ++ batch.claims.map SecurityClaim.tokenId⟩ :
      SecurityRun Mint).Sound := by
  obtain ⟨hlength, hrecorded, hcompleted⟩ := finishBatch_eq_ok hfinish
  have htokens := map_tokenId_snapshots hlength s.drawn
  have hrequest : ∀ snapshot ∈ (batch.claims.zip batch.mints).map (batch.snapshot s.drawn),
      snapshot.idempotencyKey = ⟨snapshot.tokenId, snapshot.idempotencyKey.phase, s.drawn⟩ := by
    intro snapshot hsnapshot
    obtain ⟨entry, _, rfl⟩ := List.mem_map.mp hsnapshot
    rfl
  have hnodup : ((s.snapshots.rows ++
      (batch.claims.zip batch.mints).map (batch.snapshot s.drawn)).map
        TokenSecuritySnapshot.idempotencyKey).Nodup := by
    rw [List.map_append, List.nodup_append]
    refine ⟨s.snapshots.nodup, ?_, ?_⟩
    · refine List.Nodup.of_map SecuritySnapshotKey.tokenId ?_
      rw [List.map_map]
      have hkeys : ((batch.claims.zip batch.mints).map (batch.snapshot s.drawn)).map
          (SecuritySnapshotKey.tokenId ∘ TokenSecuritySnapshot.idempotencyKey) =
          ((batch.claims.zip batch.mints).map (batch.snapshot s.drawn)).map
            TokenSecuritySnapshot.tokenId :=
        List.map_congr_left fun snapshot hsnapshot => by
          rw [Function.comp_apply, hrequest snapshot hsnapshot]
      rw [hkeys, htokens]
      exact (owned_of_updated (releases_completed _) hcompleted).1
    · intro key hkey key' hkey' heq
      obtain ⟨old, hold, rfl⟩ := List.mem_map.mp hkey
      obtain ⟨new, hnew, rfl⟩ := List.mem_map.mp hkey'
      have hlt := h.drawn old hold
      rw [heq, hrequest new hnew] at hlt
      exact lt_irrefl _ hlt
  have hrows := rows_recordSnapshots hnodup hrecorded
  constructor
  · exact h.tasks.complete hcompleted
  · rw [hrows, List.map_append, h.snapshots, htokens]
  · rw [hrows]
    intro snapshot hsnapshot
    cases List.mem_append.mp hsnapshot with
    | inl hold => exact Nat.lt_succ_of_lt (h.drawn snapshot hold)
    | inr hnew =>
      rw [hrequest snapshot hnew]
      exact Nat.lt_succ_self _

theorem SecurityRun.Sound.step {s : SecurityRun Mint} (h : s.Sound) (action : SecurityAction Mint) :
    (s.step action).Sound := by
  cases action with
  | create tokenId dueAt => exact ⟨h.tasks.create tokenId dueAt, h.snapshots, h.drawn⟩
  | claim request locked leaseIds =>
    exact ⟨h.tasks.claim request locked leaseIds, h.snapshots, h.drawn⟩
  | finish batch =>
    rw [SecurityRun.step]
    split
    · next hfinish => exact h.finish hfinish
    · exact h
  | retry claims checkedAt retryAt =>
    rw [SecurityRun.step]
    split
    · next hretry => exact ⟨h.tasks.retry hretry, h.snapshots, h.drawn⟩
    · exact h

/-! ### The schedule -/

/-- A batch whose claims have lost a lease. -/
def LeaseLost (claims : List SecurityClaim) (table : SecurityTable) : Prop :=
  ∃ claim ∈ claims, ∀ task ∈ table.rows, task.tokenId = claim.tokenId → ¬ claim.Owns task

theorem update_of_leaseLost {update : SecurityTask → SecurityTask} (hupdate : Releases update)
    {claims : List SecurityClaim} {table : SecurityTable} (h : LeaseLost claims table) :
    ∀ table', claims.foldlM (updateOwned update) table ≠ .ok table' := by
  intro table' hok
  obtain ⟨claim, hclaim, hlost⟩ := h
  obtain ⟨task, hmem, htoken, howns⟩ := (owned_of_updated hupdate hok).2 claim hclaim
  exact hlost task hmem htoken howns

/-- A state of the finite schedule: its phases count completions and snapshots, its due times end
with its phases, leases are exclusive until they expire, and lost leases change nothing. -/
structure SecurityRun.Exact (s : SecurityRun Mint) : Prop where
  phases : ∀ task ∈ s.tasks.rows,
    task.phase = s.completions.count task.tokenId ∧
    task.phase = s.snapshots.rows.countP (fun snapshot => snapshot.tokenId = task.tokenId) ∧
    task.phase ≤ securityPhaseDelays.length + 1 ∧
    (task.nextDueAt = none ↔ task.phase = securityPhaseDelays.length + 1)
  exclusive : ∀ request locked leaseIds,
    ∀ claim ∈ (claimSecurityTasks request locked leaseIds s.tasks).2,
      ∃ task ∈ s.tasks.rows, task.tokenId = claim.tokenId ∧
        ∀ lease ∈ task.lease, lease.expiresAt ≤ request.now
  lost : ∀ claims, LeaseLost claims s.tasks →
    (∀ batch : MintBatch Mint, batch.claims = claims → s.step (.finish batch) = s) ∧
    ∀ checkedAt retryAt, s.step (.retry claims checkedAt retryAt) = s
  live : ∀ task ∈ s.tasks.rows, task.phase < securityPhaseDelays.length + 1 →
    ∀ now, ∃ later, now ≤ later ∧ ∀ t, later ≤ t → task.Claimable t

theorem SecurityRun.Sound.exact {s : SecurityRun Mint} (h : s.Sound) : s.Exact := by
  constructor
  · intro task hmem
    have hsound := h.tasks.rows task hmem
    refine ⟨hsound.phase, ?_, hsound.phase_le, hsound.due_iff⟩
    rw [hsound.phase, ← h.snapshots, List.count, List.countP_map]
    refine List.countP_congr fun snapshot _ => ?_
    rw [Function.comp_apply, beq_iff_eq, decide_eq_true_eq]
  · intro request locked leaseIds claim hclaim
    obtain ⟨task, htask, rfl⟩ := List.mem_map.mp hclaim
    obtain ⟨hmem, hclaimable⟩ := mem_selectSecurityTasks htask
    exact ⟨task, hmem, rfl, hclaimable.2⟩
  · intro claims hlost
    constructor
    · intro batch hbatch
      rw [SecurityRun.step]
      split
      · next tasks snapshots hfinish =>
        obtain ⟨_, _, hcompleted⟩ := finishBatch_eq_ok hfinish
        rw [hbatch] at hcompleted
        exact absurd hcompleted (update_of_leaseLost (releases_completed _) hlost _)
      · rfl
    · intro checkedAt retryAt
      rw [SecurityRun.step]
      split
      · next hretry =>
        exact absurd hretry (update_of_leaseLost (releases_retried _ _) hlost _)
      · rfl
  · intro task hmem hphase now
    exact (h.tasks.rows task hmem).claimable_later hphase now

/-- Every run of the security schedule is exact in each of its states. -/
theorem security_schedule_exact (actions : List (SecurityAction Mint)) :
    Always SecurityRun.step SecurityRun.Exact SecurityRun.initial actions :=
  (always_of_kept (fun _ action h => h.step action) SecurityRun.sound_initial actions).mono
    fun _ h => h.exact

end Runs

end PumpResearch.Collection
