import PumpResearch.Candidates.Policy
import PumpResearch.Library.KeyedOrder
import PumpResearch.Library.KeyedTable
import PumpResearch.Library.Runs

/-! The durable queue of candidate enrichment tasks: creation, leased claims, completion,
failure and deferral, each a transaction that changes nothing when it raises. -/
namespace PumpResearch.Candidates
open KeyedOrder KeyedTable

inductive TaskStatus where
  | pending
  | claimed
  | succeeded
  | retry
  | failed
  | deferred
deriving DecidableEq, Repr

/-- `lease_id` and `lease_expires_at`, which the table sets and clears together. -/
structure TaskLease where
  leaseId : Uuid
  expiresAt : Int
deriving DecidableEq

structure EnrichmentTask where
  id : Uuid
  semanticKey : String
  candidateId : Uuid
  tokenId : Uuid
  collectionEpochId : Uuid
  tier : CandidateTier
  analysisType : String
  inputWatermark : Int
  inputSha256 : String
  createdAt : Int
  notBefore : Int
  status : TaskStatus
  lease : Option TaskLease
  claimedAt : Option Int
  claimedBy : Option String
  collectorRunId : Option Uuid
  attemptCount : Nat
  maxAttempts : Nat
  completedAt : Option Int
  outcome : Option String
  failureDetail : Option String
  evidenceGeneratedAt : Option Int
  evidenceReceivedAt : Option Int
  freshUntil : Option Int
  resultIdentity : Option String
  resultSha256 : Option String
  updatedAt : Int
  maxAttempts_pos : 0 < maxAttempts
deriving DecidableEq

abbrev TaskTable := Table EnrichmentTask.id

inductive RepositoryError where
  | lostLease (message : String)
  | integrity (message : String)
deriving DecidableEq

/-! ### Creation -/

/-- The document whose digest identifies a task. -/
structure TaskSemantic where
  candidate : Uuid
  tier : CandidateTier
  analysisType : String
  input : String
deriving DecidableEq

/-- The digest of a semantic document and the UUID derived from a digest. -/
structure TaskIdentity where
  digest : TaskSemantic → String
  uuid5 : String → Uuid

/-- Evaluates the model: tasks are told apart by their analysis types. -/
def analysisIdentity : TaskIdentity := ⟨fun semantic => semantic.analysisType, String.length⟩

/-- What a task takes from the candidate event it is created for. -/
structure TaskSource where
  id : Uuid
  tokenId : Uuid
  collectionEpochId : Uuid
  inputWatermark : Int
  evidenceSha256 : String
deriving DecidableEq

/-- `_create_task`: an insert that does nothing on a conflict. -/
def createTask (identity : TaskIdentity) (candidate : TaskSource) (tier : CandidateTier)
    (analysisType : String) (maxAttempts : Nat) (now : Int) (table : TaskTable) :
    Except RepositoryError TaskTable :=
  let semantic := identity.digest ⟨candidate.id, tier, analysisType, candidate.evidenceSha256⟩
  if h : 0 < maxAttempts then
    let row : EnrichmentTask :=
      { id := identity.uuid5 ("pump-research:candidate-task:" ++ semantic)
        semanticKey := semantic
        candidateId := candidate.id
        tokenId := candidate.tokenId
        collectionEpochId := candidate.collectionEpochId
        tier := tier
        analysisType := analysisType
        inputWatermark := candidate.inputWatermark
        inputSha256 := candidate.evidenceSha256
        createdAt := now
        notBefore := now
        status := .pending
        lease := none
        claimedAt := none
        claimedBy := none
        collectorRunId := none
        attemptCount := 0
        maxAttempts := maxAttempts
        completedAt := none
        outcome := none
        failureDetail := none
        evidenceGeneratedAt := none
        evidenceReceivedAt := none
        freshUntil := none
        resultIdentity := none
        resultSha256 := none
        updatedAt := now
        maxAttempts_pos := h }
    if table.rows.any (·.semanticKey = semantic) then .ok table else .ok (table.insertNew row)
  else .error (.integrity "ck_candidate_tasks_max_attempts")

/-! ### Claims -/

structure ClaimRequest where
  now : Int
  workerId : String
  collectorRunId : Option Uuid
  limit : Int
  tasksPerMinute : Int
  leaseDuration : Int
  analysisTypes : Option (List String)
deriving DecidableEq

structure TaskClaim where
  id : Uuid
  leaseId : Uuid
  candidateId : Uuid
  tokenId : Uuid
  tier : CandidateTier
  analysisType : String
  inputWatermark : Int
  inputSha256 : String
  attemptNumber : Nat
deriving DecidableEq

/-- The condition under which `claim_tasks` may pick a task. -/
def Eligible (now : Int) (analysisTypes : Option (List String)) (task : EnrichmentTask) : Prop :=
  task.notBefore ≤ now ∧ task.attemptCount < task.maxAttempts ∧
    (task.status ∈ [.pending, .retry, .deferred] ∨
      task.status = .claimed ∧ ∃ lease ∈ task.lease, lease.expiresAt ≤ now) ∧
    ∀ types ∈ analysisTypes, task.analysisType ∈ types

instance decidableEligible (now : Int) (analysisTypes : Option (List String)) :
    DecidablePred (Eligible now analysisTypes) :=
  fun _ => inferInstanceAs (Decidable (_ ∧ _ ∧ _ ∧ ∀ types ∈ analysisTypes, _))

/-- The claim recorded on a task is at or after an instant. -/
def ClaimedSince (start : Int) (task : EnrichmentTask) : Prop := ∃ c ∈ task.claimedAt, start ≤ c

instance decidableClaimedSince (start : Int) : DecidablePred (ClaimedSince start) :=
  fun task => inferInstanceAs (Decidable (∃ c ∈ task.claimedAt, start ≤ c))

/-- Rows whose claim is at or after an instant. -/
def claimedSince (start : Int) (table : TaskTable) : Nat := table.rows.countP (ClaimedSince start ·)

/-- What the minute gate leaves of the limit. -/
def availableClaims (request : ClaimRequest) (table : TaskTable) : Nat :=
  (max 0 (min request.limit
    (request.tasksPerMinute - claimedSince (minuteStart request.now) table))).toNat

/-- Claim order: `not_before`, `created_at`, `id`. -/
def taskOrder (task : EnrichmentTask) : Int ×ₗ Int ×ₗ Nat :=
  toLex (task.notBefore, toLex (task.createdAt, task.id))

/-- The rows a claim picks; rows locked by other transactions are skipped. -/
def selectTasks (request : ClaimRequest) (locked : List Uuid) (table : TaskTable) :
    List EnrichmentTask :=
  ((sortOn taskOrder (table.rows.filter fun task =>
    Eligible request.now request.analysisTypes task)).filter fun task => task.id ∉ locked).take
      (availableClaims request table)

def claimRow (request : ClaimRequest) (leaseIds : Uuid → Uuid) (task : EnrichmentTask) :
    EnrichmentTask :=
  { task with
    status := .claimed
    lease := some ⟨leaseIds task.id, request.now + request.leaseDuration⟩
    claimedAt := some request.now
    claimedBy := some request.workerId
    collectorRunId := request.collectorRunId
    attemptCount := task.attemptCount + 1
    updatedAt := request.now }

def claimOf (leaseIds : Uuid → Uuid) (task : EnrichmentTask) : TaskClaim where
  id := task.id
  leaseId := leaseIds task.id
  candidateId := task.candidateId
  tokenId := task.tokenId
  tier := task.tier
  analysisType := task.analysisType
  inputWatermark := task.inputWatermark
  inputSha256 := task.inputSha256
  attemptNumber := task.attemptCount + 1

/-- `claim_tasks`, with the leases drawn for the picked tasks. -/
def claimTasks (request : ClaimRequest) (locked : List Uuid) (leaseIds : Uuid → Uuid)
    (table : TaskTable) : TaskTable × List TaskClaim :=
  let rows := selectTasks request locked table
  (table.write (rows.map (claimRow request leaseIds)), rows.map (claimOf leaseIds))

/-! ### Completion, failure and deferral -/

structure TaskCompletion where
  completedAt : Int
  outcome : String
  evidenceGeneratedAt : Option Int
  evidenceReceivedAt : Option Int
  freshUntil : Option Int
  resultIdentity : Option String
  resultSha256 : Option String
deriving DecidableEq

def completedRow (completion : TaskCompletion) (task : EnrichmentTask) : EnrichmentTask :=
  { task with
    status := .succeeded
    completedAt := some completion.completedAt
    outcome := some completion.outcome
    evidenceGeneratedAt := completion.evidenceGeneratedAt
    evidenceReceivedAt := completion.evidenceReceivedAt
    freshUntil := completion.freshUntil
    resultIdentity := completion.resultIdentity
    resultSha256 := completion.resultSha256
    lease := none
    updatedAt := completion.completedAt }

def leaseIdOf (task : EnrichmentTask) : Option Uuid := task.lease.map (·.leaseId)

def completeTask (claim : TaskClaim) (completion : TaskCompletion) (table : TaskTable) :
    Except RepositoryError TaskTable :=
  match table.find? claim.id with
  | none => .error (.lostLease "candidate enrichment task does not exist")
  | some task =>
    if task.status = .succeeded then
      if (task.outcome, task.resultIdentity, task.resultSha256) =
          (some completion.outcome, completion.resultIdentity, completion.resultSha256) then
        .ok table
      else
        .error (.integrity "idempotent task completion maps to different result content")
    else if leaseIdOf task ≠ some claim.leaseId then
      .error (.lostLease "candidate enrichment task lease is no longer owned")
    else .ok (table.write [completedRow completion task])

/-- The claimed task, while its lease is still the claim's. -/
def ownedTask (claim : TaskClaim) (table : TaskTable) : Except RepositoryError EnrichmentTask :=
  match table.rows.find? fun task => task.id = claim.id ∧ leaseIdOf task = some claim.leaseId with
  | none => .error (.lostLease "candidate enrichment task lease is no longer owned")
  | some task => .ok task

def failedRow (failedAt : Int) (failureDetail : String) (retryDelay : Int)
    (task : EnrichmentTask) : EnrichmentTask :=
  if task.maxAttempts ≤ task.attemptCount then
    { task with
      status := .failed
      failureDetail := some failureDetail
      notBefore := failedAt
      completedAt := some failedAt
      lease := none
      updatedAt := failedAt }
  else
    { task with
      status := .retry
      failureDetail := some failureDetail
      notBefore := failedAt + retryDelay
      completedAt := none
      lease := none
      updatedAt := failedAt }

def failTask (claim : TaskClaim) (failedAt : Int) (failureDetail : String) (retryDelay : Int)
    (table : TaskTable) : Except RepositoryError TaskTable := do
  let task ← ownedTask claim table
  return table.write [failedRow failedAt failureDetail retryDelay task]

/-- A deferral gives the attempt back. -/
def deferredRow (deferredAt notBefore : Int) (reason : String) (task : EnrichmentTask) :
    EnrichmentTask :=
  { task with
    status := .deferred
    notBefore := notBefore
    failureDetail := some reason
    attemptCount := task.attemptCount - 1
    lease := none
    updatedAt := deferredAt }

def deferTask (claim : TaskClaim) (deferredAt notBefore : Int) (reason : String)
    (table : TaskTable) : Except RepositoryError TaskTable := do
  let task ← ownedTask claim table
  return table.write [deferredRow deferredAt notBefore reason task]

/-! ### The queue as a system -/

/-- The task table, the time, and a record of every claim ever issued with its instant. -/
structure TaskSystem where
  table : TaskTable
  clock : Int
  issued : List (Int × TaskClaim)

def TaskSystem.initial (clock : Int) : TaskSystem := ⟨Table.empty, clock, []⟩

/-- The calls of the queue. A crashed worker takes no further action. -/
inductive TaskAction where
  | create (identity : TaskIdentity) (candidate : TaskSource) (tier : CandidateTier)
      (analysisType : String) (maxAttempts : Nat) (now : Int)
  | claim (request : ClaimRequest) (locked : List Uuid) (leaseIds : Uuid → Uuid)
  | complete (claim : TaskClaim) (completion : TaskCompletion)
  | fail (claim : TaskClaim) (failedAt : Int) (failureDetail : String) (retryDelay : Int)
  | defer (claim : TaskClaim) (deferredAt notBefore : Int) (reason : String)
  | tick (elapsed : Nat)

/-- A transaction that raises is rolled back. -/
def committed (result : Except RepositoryError TaskTable) (table : TaskTable) : TaskTable :=
  result.toOption.getD table

def taskStep (s : TaskSystem) : TaskAction → TaskSystem
  | .create identity candidate tier analysisType maxAttempts now =>
    { s with
      table := committed
        (createTask identity candidate tier analysisType maxAttempts now s.table) s.table }
  | .claim request locked leaseIds =>
    { s with
      table := (claimTasks request locked leaseIds s.table).1
      issued := s.issued ++
        (claimTasks request locked leaseIds s.table).2.map fun claim => (request.now, claim) }
  | .complete claim completion =>
    { s with table := committed (completeTask claim completion s.table) s.table }
  | .fail claim failedAt failureDetail retryDelay =>
    { s with
      table := committed (failTask claim failedAt failureDetail retryDelay s.table) s.table }
  | .defer claim deferredAt notBefore reason =>
    { s with table := committed (deferTask claim deferredAt notBefore reason s.table) s.table }
  | .tick elapsed => { s with clock := s.clock + elapsed }

/-! ### What a step can do -/

/-- A task as creation inserts it. -/
def Fresh (task : EnrichmentTask) : Prop :=
  task.status = .pending ∧ task.lease = none ∧ task.attemptCount = 0 ∧ task.claimedAt = none

/-- The rewrites of a leased task that release its lease. -/
inductive Released (task : EnrichmentTask) : EnrichmentTask → Prop
  | completed (completion : TaskCompletion) : Released task (completedRow completion task)
  | failed (failedAt : Int) (failureDetail : String) (retryDelay : Int) :
      Released task (failedRow failedAt failureDetail retryDelay task)
  | deferred (deferredAt notBefore : Int) (reason : String) :
      Released task (deferredRow deferredAt notBefore reason task)

theorem Released.id_eq {task task' : EnrichmentTask} (h : Released task task') :
    task'.id = task.id := by
  cases h with
  | completed completion => rfl
  | failed failedAt failureDetail retryDelay =>
    unfold failedRow
    split <;> rfl
  | deferred deferredAt notBefore reason => rfl

theorem Released.claimedAt_eq {task task' : EnrichmentTask} (h : Released task task') :
    task'.claimedAt = task.claimedAt := by
  cases h with
  | completed completion => rfl
  | failed failedAt failureDetail retryDelay =>
    unfold failedRow
    split <;> rfl
  | deferred deferredAt notBefore reason => rfl

theorem Released.lease_eq {task task' : EnrichmentTask} (h : Released task task') :
    task'.lease = none := by
  cases h with
  | completed completion => rfl
  | failed failedAt failureDetail retryDelay =>
    unfold failedRow
    split <;> rfl
  | deferred deferredAt notBefore reason => rfl

/-- The effect of an action other than a claim on the task table. -/
inductive TableStep (table : TaskTable) : TaskTable → Prop
  | same : TableStep table table
  | created (task : EnrichmentTask) (fresh : Fresh task) : TableStep table (table.insertNew task)
  | released (task task' : EnrichmentTask) (mem : task ∈ table.rows)
      (leased : task.lease.isSome) (release : Released task task') :
      TableStep table (table.write [task'])

theorem createTask_step (identity : TaskIdentity) (candidate : TaskSource) (tier : CandidateTier)
    (analysisType : String) (maxAttempts : Nat) (now : Int) (table : TaskTable) :
    TableStep table (committed
      (createTask identity candidate tier analysisType maxAttempts now table) table) := by
  unfold createTask
  dsimp only
  split
  · split
    · exact .same
    · exact .created _ ⟨rfl, rfl, rfl, rfl⟩
  · exact .same

theorem completeTask_step (claim : TaskClaim) (completion : TaskCompletion) (table : TaskTable) :
    TableStep table (committed (completeTask claim completion table) table) := by
  unfold completeTask
  cases hf : table.find? claim.id with
  | none => exact .same
  | some task =>
    dsimp only
    have hmem : task ∈ table.rows := (Table.find?_eq_some_iff.mp hf).1
    split
    · split
      · exact .same
      · exact .same
    · split
      · exact .same
      · next hlease =>
        have hsome : task.lease.isSome := by
          cases hl : task.lease with
          | none => simp [leaseIdOf, hl] at hlease
          | some lease => rfl
        exact .released task _ hmem hsome (.completed completion)

theorem ownedTask_eq_ok {claim : TaskClaim} {table : TaskTable} {task : EnrichmentTask}
    (h : ownedTask claim table = .ok task) : task ∈ table.rows ∧ task.lease.isSome := by
  unfold ownedTask at h
  split at h
  · cases h
  · next found hfound =>
    cases h
    have hp := List.find?_some hfound
    rw [decide_eq_true_eq] at hp
    refine ⟨List.mem_of_find?_eq_some hfound, ?_⟩
    cases hl : task.lease with
    | none => simp [leaseIdOf, hl] at hp
    | some lease => rfl

/-- Failure and deferral rewrite the owned task or raise. -/
theorem owned_step {claim : TaskClaim} {table : TaskTable} (rewrite : EnrichmentTask → EnrichmentTask)
    (hr : ∀ task, Released task (rewrite task)) :
    TableStep table (committed
      (do let task ← ownedTask claim table; return table.write [rewrite task]) table) := by
  cases ho : ownedTask claim table with
  | error e => exact .same
  | ok task =>
    obtain ⟨hmem, hlease⟩ := ownedTask_eq_ok ho
    exact .released task _ hmem hlease (hr task)

theorem failTask_step (claim : TaskClaim) (failedAt : Int) (failureDetail : String)
    (retryDelay : Int) (table : TaskTable) :
    TableStep table (committed (failTask claim failedAt failureDetail retryDelay table) table) :=
  owned_step (failedRow failedAt failureDetail retryDelay)
    fun _ => .failed failedAt failureDetail retryDelay

theorem deferTask_step (claim : TaskClaim) (deferredAt notBefore : Int) (reason : String)
    (table : TaskTable) :
    TableStep table (committed (deferTask claim deferredAt notBefore reason table) table) :=
  owned_step (deferredRow deferredAt notBefore reason)
    fun _ => .deferred deferredAt notBefore reason

/-! ### The picked rows -/

theorem selectTasks_subset {request : ClaimRequest} {locked : List Uuid} {table : TaskTable}
    {task : EnrichmentTask} (h : task ∈ selectTasks request locked table) :
    task ∈ table.rows ∧ Eligible request.now request.analysisTypes task := by
  have hfilter := List.mem_of_mem_take h
  have hsort := (mem_sortOn _ _ _).mp (List.mem_of_mem_filter hfilter)
  rw [List.mem_filter, decide_eq_true_eq] at hsort
  exact hsort

theorem selectTasks_nodup (request : ClaimRequest) (locked : List Uuid) (table : TaskTable) :
    ((selectTasks request locked table).map (·.id)).Nodup := by
  have hrows : ((table.rows.filter fun task =>
      Eligible request.now request.analysisTypes task).map (·.id)).Nodup :=
    table.nodup.sublist (List.filter_sublist.map _)
  have hsorted := ((sortOn_perm taskOrder _).map EnrichmentTask.id).nodup_iff.mpr hrows
  exact hsorted.sublist (((List.take_sublist _ _).trans List.filter_sublist).map _)

theorem length_selectTasks_le (request : ClaimRequest) (locked : List Uuid) (table : TaskTable) :
    (selectTasks request locked table).length ≤ availableClaims request table :=
  List.length_take_le _ _

end PumpResearch.Candidates
