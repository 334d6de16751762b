import PumpResearch.Library.CountableTexts
import PumpResearch.SecurityEnrichment.Budget

/-! Executions of claims under the request budget. Whatever executions interleave, crash and come
back, no minute is over its limits and every page has the reservation of its own attempt. -/
namespace PumpResearch.SecurityEnrichment
open Candidates CountableTexts KeyedTable Runs

/-! ### Executions -/

/-- Where an execution of `process_claim` stands. -/
inductive ExecutionPhase where
  | reserving (page : Nat)
  | looked (page : Nat)
  | admitted (page : Nat)
  | answered (page : Nat)
  | closing
  | refused
  | ended
deriving DecidableEq

structure Execution where
  claim : TaskClaim
  provider : String
  now : Int
  phase : ExecutionPhase
deriving DecidableEq

def Execution.reservation (execution : Execution) (page : Nat) : ReservationRequest where
  taskId := execution.claim.id
  provider := execution.provider
  budgetClass := execution.claim.analysisType
  page := ⟨execution.claim.attemptNumber, page⟩
  now := execution.now

/-- A call of the provider, with the number of reservations stored when it was sent. -/
structure PageRequest where
  execution : Nat
  claim : TaskClaim
  provider : String
  page : Nat
  stored : Nat
deriving DecidableEq

def PageRequest.document (request : PageRequest) : BudgetDocument :=
  ⟨request.claim.id, request.provider, request.claim.analysisType,
    ⟨request.claim.attemptNumber, request.page⟩⟩

/-- The queue, the budget, the executions in the order of their starts, and a record of the claims
issued and given back and of the pages asked for. -/
structure WorkerSystem where
  tasks : TaskTable
  issued : List TaskClaim
  returned : List TaskClaim
  reservations : ReservationTable
  executions : List Execution
  requests : List PageRequest

def WorkerSystem.initial : WorkerSystem := ⟨Table.empty, [], [], Table.empty, [], []⟩

/-- What one execution does next; the answers of the provider are free. -/
inductive ExecutionMove where
  | lookUp
  | reserve (universalDue : Bool)
  | request
  | nextPage
  | complete (completion : TaskCompletion)
  | fail (failedAt : Int) (failureDetail : String)
  | defer
  | crash

inductive WorkerAction where
  | create (identity : TaskIdentity) (candidate : TaskSource) (tier : CandidateTier)
      (analysisType : String) (maxAttempts : Nat) (now : Int)
  | claim (request : ClaimRequest) (locked : List Uuid) (leaseIds : Uuid → Uuid)
  | processClaim (claim : TaskClaim) (provider : String) (now : Int)
  | move (index : Nat) (move : ExecutionMove)

section System
variable (ids : BudgetIdentities) (limits : RequestLimits)

/-- An execution enters a phase. -/
def WorkerSystem.enter (s : WorkerSystem) (index : Nat) (execution : Execution)
    (phase : ExecutionPhase) : WorkerSystem :=
  { s with executions := s.executions.set index { execution with phase := phase } }

/-- The deferral of a refused first page: the claim is given back unless its lease is lost. -/
def deferRefused (index : Nat) (execution : Execution) (s : WorkerSystem) : WorkerSystem :=
  match deferTask execution.claim execution.now (execution.now + seconds 60)
      "phase6_provider_budget_or_universal_precedence_deferred" s.tasks with
  | .error _ => s.enter index execution .ended
  | .ok tasks =>
    { s.enter index execution .ended with
      tasks := tasks
      returned := s.returned ++ [execution.claim] }

/-- An execution ends with a write to its task. -/
def settle (index : Nat) (execution : Execution) (s : WorkerSystem)
    (result : Except RepositoryError TaskTable) : WorkerSystem :=
  { s.enter index execution .ended with tasks := Candidates.committed result s.tasks }

/-- One transaction, provider call or crash of an execution. -/
def moveStep (index : Nat) (execution : Execution) (s : WorkerSystem) :
    ExecutionMove → WorkerSystem
  | .lookUp =>
    match execution.phase with
    | .reserving page =>
      if reservationExists ids (execution.reservation page) s.reservations then
        s.enter index execution (.admitted page)
      else s.enter index execution (.looked page)
    | _ => s
  | .reserve universalDue =>
    match execution.phase with
    | .looked page =>
      let reserved := reserveProviderRequest ids limits universalDue (execution.reservation page)
        s.reservations
      { s.enter index execution (if reserved.2 then .admitted page
          -- Without its first page a task is deferred, later pages are left out.
          else if page = 0 then .refused else .closing) with reservations := reserved.1 }
    | _ => s
  | .request =>
    match execution.phase with
    | .admitted page =>
      { s.enter index execution (.answered page) with
        requests := s.requests ++ [⟨index, execution.claim, execution.provider, page,
          s.reservations.rows.length⟩] }
    | _ => s
  | .nextPage =>
    match execution.phase with
    | .answered page =>
      if execution.claim.analysisType = "TRADER_DISTRIBUTION" ∧
          page + 1 < limits.maxPagesPerTask then
        s.enter index execution (.reserving (page + 1))
      else s.enter index execution .closing
    | _ => s
  | .complete completion =>
    match execution.phase with
    | .answered _ | .closing =>
      settle index execution s (completeTask execution.claim completion s.tasks)
    | _ => s
  | .fail failedAt failureDetail =>
    match execution.phase with
    | .admitted _ | .answered _ | .closing =>
      settle index execution s
        (failTask execution.claim failedAt failureDetail (seconds 60) s.tasks)
    | _ => s
  | .defer =>
    match execution.phase with
    | .refused => deferRefused index execution s
    | _ => s
  | .crash => s.enter index execution .ended

def workerStep (s : WorkerSystem) : WorkerAction → WorkerSystem
  | .create identity candidate tier analysisType maxAttempts now =>
    { s with
      tasks := Candidates.committed
        (createTask identity candidate tier analysisType maxAttempts now s.tasks) s.tasks }
  | .claim request locked leaseIds =>
    { s with
      tasks := (claimTasks request locked leaseIds s.tasks).1
      issued := s.issued ++ (claimTasks request locked leaseIds s.tasks).2 }
  | .processClaim claim provider now =>
    if claim ∈ s.issued then
      { s with executions := s.executions ++ [⟨claim, provider, now, .reserving 0⟩] }
    else s
  | .move index move =>
    match s.executions[index]? with
    | none => s
    | some execution => moveStep ids limits index execution s move

/-! ### The law -/

/-- Every page was asked for behind the reservation of its own attempt, and no execution asked for
a page twice. -/
structure OwnReservations (s : WorkerSystem) : Prop where
  reserved : ∀ request ∈ s.requests, ∃ row ∈ s.reservations.rows.take request.stored,
    row.semanticKey = ids.digest request.document
  pages : (s.requests.map fun request => (request.execution, request.page)).Nodup

/-- No two page requests share a reservation. -/
def Unshared (s : WorkerSystem) : Prop :=
  (s.requests.map fun request => ids.digest request.document).Nodup

end System

/-- A claim draws leases that its tasks never had. -/
def FreshLeases (s : WorkerSystem) : WorkerAction → Prop
  | .claim request locked leaseIds => ∀ task ∈ selectTasks request locked s.tasks,
      ∀ claim ∈ s.issued, claim.id = task.id → claim.leaseId ≠ leaseIds task.id
  | _ => True

/-- No claim is executed twice. -/
def ExecutedOnce (s : WorkerSystem) : WorkerAction → Prop
  | .processClaim claim _ _ => ∀ execution ∈ s.executions, execution.claim ≠ claim
  | _ => True

/-! ### What a move does -/

/-- A task is rewritten without its lease, under the same attempts. -/
def Settles (tasks tasks' : TaskTable) : Prop :=
  tasks' = tasks ∨ ∃ task ∈ tasks.rows, ∃ task', task'.id = task.id ∧ task'.lease = none ∧
    task'.attemptCount = task.attemptCount ∧ tasks' = tasks.write [task']

theorem completeTask_settles (claim : TaskClaim) (completion : TaskCompletion) (tasks : TaskTable) :
    Settles tasks (Candidates.committed (completeTask claim completion tasks) tasks) := by
  unfold completeTask
  cases hfind : tasks.find? claim.id with
  | none => exact .inl rfl
  | some task =>
    have hmem := (Table.find?_eq_some_iff.mp hfind).1
    dsimp only
    split
    · split
      · exact .inl rfl
      · exact .inl rfl
    · split
      · exact .inl rfl
      · exact .inr ⟨task, hmem, completedRow completion task, rfl, rfl, rfl, rfl⟩

theorem failTask_settles (claim : TaskClaim) (failedAt : Int) (failureDetail : String)
    (retryDelay : Int) (tasks : TaskTable) :
    Settles tasks (Candidates.committed (failTask claim failedAt failureDetail retryDelay tasks)
      tasks) := by
  unfold failTask
  cases howned : ownedTask claim tasks with
  | error e => exact .inl rfl
  | ok task =>
    have hmem := (ownedTask_eq_ok howned).1
    have hrelease : Released task (failedRow failedAt failureDetail retryDelay task) :=
      .failed failedAt failureDetail retryDelay
    have hattempts : (failedRow failedAt failureDetail retryDelay task).attemptCount =
        task.attemptCount := by
      unfold failedRow
      split <;> rfl
    exact .inr ⟨task, hmem, _, hrelease.id_eq, hrelease.lease_eq, hattempts, rfl⟩

section Moves
variable {ids : BudgetIdentities} {limits : RequestLimits}

/-- Everything a move can do. -/
inductive Moved (ids : BudgetIdentities) (limits : RequestLimits) (index : Nat)
    (execution : Execution) (s : WorkerSystem) : WorkerSystem → Prop
  | same : Moved ids limits index execution s s
  | admitted (page : Nat) (phase : execution.phase = .reserving page)
      (stored : reservationExists ids (execution.reservation page) s.reservations = true) :
      Moved ids limits index execution s (s.enter index execution (.admitted page))
  | looked (page : Nat) (phase : execution.phase = .reserving page) :
      Moved ids limits index execution s (s.enter index execution (.looked page))
  | reserved (page : Nat) (universalDue : Bool) (phase : execution.phase = .looked page)
      (next : ExecutionPhase)
      (admits : (reserveProviderRequest ids limits universalDue (execution.reservation page)
        s.reservations).2 = true → next = .admitted page)
      (refuses : (reserveProviderRequest ids limits universalDue (execution.reservation page)
        s.reservations).2 = false → next = .closing ∨ (page = 0 ∧ next = .refused)) :
      Moved ids limits index execution s
        { s.enter index execution next with
          reservations := (reserveProviderRequest ids limits universalDue
            (execution.reservation page) s.reservations).1 }
  | requested (page : Nat) (phase : execution.phase = .admitted page) :
      Moved ids limits index execution s
        { s.enter index execution (.answered page) with
          requests := s.requests ++ [⟨index, execution.claim, execution.provider, page,
            s.reservations.rows.length⟩] }
  | next (page : Nat) (phase : execution.phase = .answered page) :
      Moved ids limits index execution s (s.enter index execution (.reserving (page + 1)))
  | closed (page : Nat) (phase : execution.phase = .answered page) :
      Moved ids limits index execution s (s.enter index execution .closing)
  | ended (tasks : TaskTable) (settles : Settles s.tasks tasks) :
      Moved ids limits index execution s
        { s.enter index execution .ended with tasks := tasks }
  | deferred (tasks : TaskTable) (phase : execution.phase = .refused)
      (given : deferTask execution.claim execution.now (execution.now + seconds 60)
        "phase6_provider_budget_or_universal_precedence_deferred" s.tasks = .ok tasks) :
      Moved ids limits index execution s
        { s.enter index execution .ended with
          tasks := tasks
          returned := s.returned ++ [execution.claim] }

theorem moveStep_moved (index : Nat) (execution : Execution) (s : WorkerSystem)
    (move : ExecutionMove) :
    Moved ids limits index execution s (moveStep ids limits index execution s move) := by
  unfold moveStep
  cases move with
  | lookUp =>
    cases hphase : execution.phase with
    | reserving page =>
      dsimp only
      split
      · next hstored => exact .admitted page hphase hstored
      · exact .looked page hphase
    | _ => exact .same
  | reserve universalDue =>
    cases hphase : execution.phase with
    | looked page =>
      refine .reserved page universalDue hphase _ (fun hadmitted => if_pos hadmitted) ?_
      intro hrefused
      rw [hrefused]
      by_cases hpage : page = 0
      · exact .inr ⟨hpage, by simp [hpage]⟩
      · exact .inl (by simp [hpage])
    | _ => exact .same
  | request =>
    cases hphase : execution.phase with
    | admitted page => exact .requested page hphase
    | _ => exact .same
  | nextPage =>
    cases hphase : execution.phase with
    | answered page =>
      dsimp only
      split
      · exact .next page hphase
      · exact .closed page hphase
    | _ => exact .same
  | complete completion =>
    have hsettles := completeTask_settles execution.claim completion s.tasks
    cases hphase : execution.phase with
    | answered page => exact .ended _ hsettles
    | closing => exact .ended _ hsettles
    | _ => exact .same
  | fail failedAt failureDetail =>
    have hsettles := failTask_settles execution.claim failedAt failureDetail (seconds 60) s.tasks
    cases hphase : execution.phase with
    | admitted page => exact .ended _ hsettles
    | answered page => exact .ended _ hsettles
    | closing => exact .ended _ hsettles
    | _ => exact .same
  | defer =>
    cases hphase : execution.phase with
    | refused =>
      dsimp only
      unfold deferRefused
      cases hgiven : deferTask execution.claim execution.now (execution.now + seconds 60)
          "phase6_provider_budget_or_universal_precedence_deferred" s.tasks with
      | error e => exact .ended s.tasks (.inl rfl)
      | ok tasks => exact .deferred tasks hphase hgiven
    | _ => exact .same
  | crash => exact .ended s.tasks (.inl rfl)

end Moves

/-! ### What a reservation adds -/

section Reserve
variable {ids : BudgetIdentities} {limits : RequestLimits} {universalDue : Bool}
  {request : ReservationRequest} {reservations : ReservationTable}

theorem reserve_cases (ids : BudgetIdentities) (limits : RequestLimits) (universalDue : Bool)
    (request : ReservationRequest) (reservations : ReservationTable) :
    (reserveProviderRequest ids limits universalDue request reservations).1 =
      reservations ∨
    (reserveProviderRequest ids limits universalDue request reservations).1.rows =
      reservations.rows ++ [reservationOf ids request] := by
  cases reserveProviderRequest_cases ids limits universalDue request reservations with
  | inl hrefused => exact .inl (by rw [hrefused])
  | inr hadmitted =>
    rw [hadmitted.1]
    exact insertReservation_cases _ _

theorem reserve_prefix : reservations.rows <+:
    (reserveProviderRequest ids limits universalDue request reservations).1.rows := by
  cases reserve_cases ids limits universalDue request reservations with
  | inl hsame => rw [hsame]
  | inr hrows =>
    rw [hrows]
    exact List.prefix_append _ _

theorem written_reserve (hwritten : ∀ row ∈ reservations.rows,
      row.id = ids.uuid5 ("pump-research:security-budget:" ++ row.semanticKey)) :
    ∀ row ∈ (reserveProviderRequest ids limits universalDue request reservations).1.rows,
      row.id = ids.uuid5 ("pump-research:security-budget:" ++ row.semanticKey) := by
  intro row hrow
  cases reserve_cases ids limits universalDue request reservations with
  | inl hsame => exact hwritten row (hsame ▸ hrow)
  | inr hrows =>
    rw [hrows] at hrow
    cases List.mem_append.mp hrow with
    | inl hold => exact hwritten row hold
    | inr hnew => rw [List.mem_singleton.mp hnew, reservationOf]

end Reserve

/-! ### Every page has its reservation -/

/-- A page that an execution in this phase may have asked for. -/
def Passed (page : Nat) : ExecutionPhase → Prop
  | .reserving next | .looked next | .admitted next => page < next
  | .answered last => page ≤ last
  | .closing | .ended => True
  | .refused => False

/-- The limits hold, admitted pages are reserved, and what was asked for is behind its execution. -/
structure Budgeted (ids : BudgetIdentities) (limits : RequestLimits) (s : WorkerSystem) : Prop where
  within : WithinLimits limits s.reservations
  written : ∀ row ∈ s.reservations.rows,
    row.id = ids.uuid5 ("pump-research:security-budget:" ++ row.semanticKey)
  admitted : ∀ execution ∈ s.executions, ∀ page, execution.phase = .admitted page →
    ∃ row ∈ s.reservations.rows, row.semanticKey = ids.digest (execution.reservation page).document
  logged : ∀ request ∈ s.requests, ∃ execution, s.executions[request.execution]? = some execution ∧
    execution.claim = request.claim ∧ Passed request.page execution.phase
  own : OwnReservations ids s

section Budgeted
variable {ids : BudgetIdentities} {limits : RequestLimits} {s s' : WorkerSystem} {index : Nat}
  {execution : Execution}

theorem Budgeted.initial : Budgeted ids limits WorkerSystem.initial where
  within provider instant := by simp [WorkerSystem.initial, globalUsed, classUsed]
  written row hrow := by cases hrow
  admitted execution hexecution := by cases hexecution
  logged request hrequest := by cases hrequest
  own := ⟨fun request hrequest => (by cases hrequest), List.nodup_nil⟩

/-- The budget does not depend on the queue. -/
theorem Budgeted.congr (h : Budgeted ids limits s) (hreservations : s'.reservations = s.reservations)
    (hexecutions : s'.executions = s.executions) (hrequests : s'.requests = s.requests) :
    Budgeted ids limits s' := by
  obtain ⟨hwithin, hwritten, hadmitted, hlogged, hown, hpages⟩ := h
  rw [← hreservations] at hwithin hwritten
  rw [← hexecutions, ← hreservations] at hadmitted
  rw [← hrequests, ← hexecutions] at hlogged
  rw [← hrequests, ← hreservations] at hown
  rw [← hrequests] at hpages
  exact ⟨hwithin, hwritten, hadmitted, hlogged, hown, hpages⟩

/-- An execution enters a phase over a budget that only grows. -/
theorem Budgeted.entered (h : Budgeted ids limits s) (hindex : s.executions[index]? = some execution)
    (phase : ExecutionPhase) (hwithin : WithinLimits limits s'.reservations)
    (hwritten : ∀ row ∈ s'.reservations.rows,
      row.id = ids.uuid5 ("pump-research:security-budget:" ++ row.semanticKey))
    (hgrows : s.reservations.rows <+: s'.reservations.rows)
    (hexecutions : s'.executions = s.executions.set index { execution with phase := phase })
    (hrequests : s'.requests = s.requests)
    (hpassed : ∀ page, Passed page execution.phase → Passed page phase)
    (hadmitted : ∀ page, phase = .admitted page → ∃ row ∈ s'.reservations.rows,
      row.semanticKey = ids.digest (execution.reservation page).document) :
    Budgeted ids limits s' := by
  have hlt : index < s.executions.length := (List.getElem?_eq_some_iff.mp hindex).1
  refine ⟨hwithin, hwritten, ?_, ?_, ?_, ?_⟩
  · intro other hother page hphase
    rw [hexecutions] at hother
    cases List.mem_or_eq_of_mem_set hother with
    | inl hold =>
      obtain ⟨row, hrow, hkey⟩ := h.admitted other hold page hphase
      exact ⟨row, hgrows.subset hrow, hkey⟩
    | inr hnew =>
      subst hnew
      exact hadmitted page hphase
  · intro request hrequest
    rw [hrequests] at hrequest
    obtain ⟨other, hother, hclaim, hpage⟩ := h.logged request hrequest
    rw [hexecutions, List.getElem?_set]
    by_cases heq : index = request.execution
    · rw [if_pos heq, if_pos hlt]
      rw [← heq, hindex] at hother
      cases hother
      exact ⟨_, rfl, hclaim, hpassed _ hpage⟩
    · rw [if_neg heq]
      exact ⟨other, hother, hclaim, hpage⟩
  · intro request hrequest
    rw [hrequests] at hrequest
    obtain ⟨row, hrow, hkey⟩ := h.own.reserved request hrequest
    exact ⟨row, (hgrows.take _).subset hrow, hkey⟩
  · rw [hrequests]
    exact h.own.pages

/-- A page is asked for once, behind its reservation. -/
theorem Budgeted.requested (h : Budgeted ids limits s)
    (hindex : s.executions[index]? = some execution) {page : Nat}
    (hphase : execution.phase = .admitted page) :
    Budgeted ids limits { s.enter index execution (.answered page) with
      requests := s.requests ++ [⟨index, execution.claim, execution.provider, page,
        s.reservations.rows.length⟩] } := by
  have hentered : Budgeted ids limits (s.enter index execution (.answered page)) := by
    refine h.entered hindex (.answered page) h.within h.written (List.prefix_refl _) rfl rfl ?_ ?_
    · intro other hother
      rw [hphase] at hother
      exact Nat.le_of_lt hother
    · intro other hother
      cases hother
  have hlt : index < s.executions.length := (List.getElem?_eq_some_iff.mp hindex).1
  refine ⟨hentered.within, hentered.written, hentered.admitted, ?_, ?_, ?_⟩
  · intro request hrequest
    cases List.mem_append.mp hrequest with
    | inl hold => exact hentered.logged request hold
    | inr hnew =>
      rw [List.mem_singleton.mp hnew]
      exact ⟨{ execution with phase := .answered page },
        List.getElem?_set_self hlt, rfl, Nat.le_refl page⟩
  · intro request hrequest
    cases List.mem_append.mp hrequest with
    | inl hold => exact hentered.own.reserved request hold
    | inr hnew =>
      rw [List.mem_singleton.mp hnew]
      obtain ⟨row, hrow, hkey⟩ := h.admitted execution (List.mem_of_getElem? hindex) page hphase
      refine ⟨row, ?_, hkey⟩
      show row ∈ s.reservations.rows.take s.reservations.rows.length
      rwa [List.take_length]
  · rw [List.map_append, List.map_singleton]
    refine List.nodup_append.mpr ⟨h.own.pages, List.nodup_singleton _, ?_⟩
    intro pair hpair other hother heq
    obtain ⟨request, hrequest, rfl⟩ := List.mem_map.mp hpair
    rw [List.mem_singleton.mp hother, Prod.mk.injEq] at heq
    obtain ⟨found, hfound, _, hpassed⟩ := h.logged request hrequest
    rw [heq.1, hindex] at hfound
    cases hfound
    rw [hphase, heq.2] at hpassed
    exact Nat.lt_irrefl page hpassed

theorem Budgeted.moved (h : Budgeted ids limits s) (hids : ids.Separating)
    (hindex : s.executions[index]? = some execution)
    (hmoved : Moved ids limits index execution s s') : Budgeted ids limits s' := by
  have hplain (phase : ExecutionPhase) (tasks : TaskTable) (returned : List TaskClaim)
      (hpassed : ∀ page, Passed page execution.phase → Passed page phase)
      (hother : ∀ page, phase ≠ .admitted page) : Budgeted ids limits
        { s.enter index execution phase with tasks := tasks, returned := returned } :=
    h.entered hindex phase h.within h.written (List.prefix_refl _) rfl rfl hpassed
      fun page hphase => absurd hphase (hother page)
  cases hmoved with
  | same => exact h
  | admitted page phase stored =>
    refine h.entered hindex _ h.within h.written (List.prefix_refl _) rfl rfl ?_ ?_
    · intro other hother
      rwa [phase] at hother
    · intro other hother
      cases hother
      obtain ⟨row, hrow⟩ := Option.isSome_iff_exists.mp stored
      exact ⟨row, Table.find?_eq_some_iff.mp hrow⟩
  | looked page phase =>
    refine hplain _ _ _ ?_ (fun other hother => by cases hother)
    intro other hother
    rwa [phase] at hother
  | reserved page universalDue phase next admits refuses =>
    refine h.entered hindex next (withinLimits_reserve h.within) (written_reserve h.written)
      reserve_prefix rfl rfl ?_ ?_
    · intro other hother
      rw [phase] at hother
      cases hresult : (reserveProviderRequest ids limits universalDue (execution.reservation page)
          s.reservations).2 with
      | true =>
        rw [admits hresult]
        exact hother
      | false =>
        cases refuses hresult with
        | inl hclosing =>
          rw [hclosing]
          trivial
        | inr hrefused =>
          rw [hrefused.1] at hother
          exact absurd hother (Nat.not_lt_zero other)
    · intro other hother
      cases hresult : (reserveProviderRequest ids limits universalDue (execution.reservation page)
          s.reservations).2 with
      | true =>
        rw [admits hresult] at hother
        cases hother
        exact stored_of_admitted hids h.written hresult
      | false =>
        cases refuses hresult with
        | inl hclosing =>
          rw [hclosing] at hother
          cases hother
        | inr hrefused =>
          rw [hrefused.2] at hother
          cases hother
  | requested page phase => exact h.requested hindex phase
  | next page phase =>
    refine hplain _ _ _ ?_ (fun other hother => by cases hother)
    intro other hother
    rw [phase] at hother
    exact Nat.lt_succ_of_le hother
  | closed page phase => exact hplain _ _ _ (fun _ _ => trivial) (fun other hother => by cases hother)
  | ended tasks settles =>
    exact hplain _ _ _ (fun _ _ => trivial) (fun other hother => by cases hother)
  | deferred tasks phase given =>
    exact hplain _ _ _ (fun _ _ => trivial) (fun other hother => by cases hother)

theorem Budgeted.started (h : Budgeted ids limits s) (claim : TaskClaim) (provider : String)
    (now : Int) : Budgeted ids limits
      { s with executions := s.executions ++ [⟨claim, provider, now, .reserving 0⟩] } := by
  refine ⟨h.within, h.written, ?_, ?_, h.own.reserved, h.own.pages⟩
  · intro execution hexecution page hphase
    cases List.mem_append.mp hexecution with
    | inl hold => exact h.admitted execution hold page hphase
    | inr hnew =>
      rw [List.mem_singleton.mp hnew] at hphase
      cases hphase
  · intro request hrequest
    obtain ⟨execution, hexecution, hrest⟩ := h.logged request hrequest
    exact ⟨execution, (List.getElem?_append_left
      (List.getElem?_eq_some_iff.mp hexecution).1).trans hexecution, hrest⟩

theorem Budgeted.step (hids : ids.Separating) (s : WorkerSystem) (action : WorkerAction)
    (h : Budgeted ids limits s) : Budgeted ids limits (workerStep ids limits s action) := by
  cases action with
  | create identity candidate tier analysisType maxAttempts now => exact h.congr rfl rfl rfl
  | claim request locked leaseIds => exact h.congr rfl rfl rfl
  | processClaim claim provider now =>
    unfold workerStep
    dsimp only
    split
    · exact h.started claim provider now
    · exact h
  | move index move =>
    unfold workerStep
    dsimp only
    split
    · exact h
    · next execution hindex => exact h.moved hids hindex (moveStep_moved index execution s move)

end Budgeted

/-- A deferral rewrites the task whose lease the claim still has. -/
theorem deferTask_eq_ok {claim : TaskClaim} {deferredAt notBefore : Int} {reason : String}
    {tasks tasks' : TaskTable} (h : deferTask claim deferredAt notBefore reason tasks = .ok tasks') :
    ∃ task ∈ tasks.rows, task.id = claim.id ∧ leaseIdOf task = some claim.leaseId ∧
      tasks' = tasks.write [deferredRow deferredAt notBefore reason task] := by
  unfold deferTask ownedTask at h
  split at h
  · cases h
  · next task hfound =>
    cases h
    have howned := List.find?_some hfound
    rw [decide_eq_true_eq] at howned
    exact ⟨task, List.mem_of_find?_eq_some hfound, howned.1, howned.2, rfl⟩

/-! ### Attempts of a task -/

/-- An issued claim that was not given back. -/
def Standing (issued returned : List TaskClaim) (claim : TaskClaim) : Prop :=
  claim ∈ issued ∧ claim ∉ returned

/-- Standing claims of a task have different attempts, up to its count; a lease has the last. -/
structure AttemptsKept (tasks : TaskTable) (issued returned : List TaskClaim) : Prop where
  given : ∀ claim ∈ returned, claim ∈ issued
  leases : ∀ claim ∈ issued, ∀ other ∈ issued, claim.id = other.id →
    claim.leaseId = other.leaseId → claim = other
  counted : ∀ claim, Standing issued returned claim → ∃ task ∈ tasks.rows, task.id = claim.id ∧
    claim.attemptNumber ≤ task.attemptCount
  leased : ∀ task ∈ tasks.rows, ∀ lease ∈ task.lease, ∃ claim, Standing issued returned claim ∧
    claim.id = task.id ∧ claim.leaseId = lease.leaseId ∧ claim.attemptNumber = task.attemptCount
  distinct : ∀ claim other, Standing issued returned claim → Standing issued returned other →
    claim.id = other.id → claim.attemptNumber = other.attemptNumber → claim = other

section Attempts
variable {tasks tasks' : TaskTable} {issued returned : List TaskClaim}

theorem AttemptsKept.initial : AttemptsKept Table.empty [] [] := by
  constructor <;> simp [Standing]

/-- Leases are kept or dropped, and counts stay. -/
def LeaseDropped (task task' : EnrichmentTask) : Prop :=
  task'.attemptCount = task.attemptCount ∧ ∀ lease ∈ task'.lease, lease ∈ task.lease

theorem Settles.related (h : Settles tasks tasks') : Table.Related LeaseDropped tasks tasks' := by
  cases h with
  | inl hsame =>
    rw [hsame]
    exact Table.Related.refl (fun task => ⟨rfl, fun _ hlease => hlease⟩) tasks
  | inr hwritten =>
    obtain ⟨task, hmem, task', hid, hlease, hattempts, rfl⟩ := hwritten
    refine Table.related_write (fun task _ => ⟨rfl, fun _ hlease => hlease⟩) ?_
    intro row hrow other hother hkey
    rw [List.mem_singleton] at hrow
    subst hrow
    obtain rfl := tasks.eq_of_key_eq hother hmem (hkey.trans hid)
    refine ⟨hattempts, fun lease hheld => ?_⟩
    rw [hlease] at hheld
    cases hheld

theorem AttemptsKept.dropped (h : AttemptsKept tasks issued returned)
    (hrelated : Table.Related LeaseDropped tasks tasks') : AttemptsKept tasks' issued returned where
  given := h.given
  leases := h.leases
  counted claim hclaim := by
    obtain ⟨task, htask, hid, hcount⟩ := h.counted claim hclaim
    obtain ⟨task', htask', hkey, hattempts, _⟩ := hrelated.exists_after htask
    exact ⟨task', htask', hkey.symm.trans hid, hattempts ▸ hcount⟩
  leased task' htask' lease hlease := by
    obtain ⟨task, htask, hkey, hattempts, hkept⟩ := hrelated.exists_before htask'
    obtain ⟨claim, hclaim, hid, hleaseId, hnumber⟩ := h.leased task htask lease (hkept lease hlease)
    exact ⟨claim, hclaim, hid.trans hkey, hleaseId, hnumber.trans hattempts.symm⟩
  distinct := h.distinct

theorem AttemptsKept.created (h : AttemptsKept tasks issued returned) {row : EnrichmentTask}
    (hfresh : row.lease = none) : AttemptsKept (tasks.insertNew row) issued returned where
  given := h.given
  leases := h.leases
  counted claim hclaim := by
    obtain ⟨task, htask, hrest⟩ := h.counted claim hclaim
    exact ⟨task, Table.mem_insertNew_of_mem htask, hrest⟩
  leased := by
    refine Table.forall_insertNew (fun lease hlease => ?_) h.leased
    rw [hfresh] at hlease
    cases hlease
  distinct := h.distinct

theorem AttemptsKept.claimed (h : AttemptsKept tasks issued returned) {request : ClaimRequest}
    {locked : List Uuid} {leaseIds : Uuid → Uuid}
    (hfresh : ∀ task ∈ selectTasks request locked tasks, ∀ claim ∈ issued, claim.id = task.id →
      claim.leaseId ≠ leaseIds task.id) :
    AttemptsKept (claimTasks request locked leaseIds tasks).1
      (issued ++ (claimTasks request locked leaseIds tasks).2) returned := by
  have hsub : ∀ task ∈ selectTasks request locked tasks, task ∈ tasks.rows := fun task htask =>
    (selectTasks_subset htask).1
  have hnodup := selectTasks_nodup request locked tasks
  have hkeys : (((selectTasks request locked tasks).map (claimRow request leaseIds)).map
      EnrichmentTask.id).Nodup := by
    rw [List.map_map]
    exact hnodup
  have hrelated : Table.Related (fun task task' => task' = task ∨
      (task ∈ selectTasks request locked tasks ∧ task' = claimRow request leaseIds task)) tasks
      (claimTasks request locked leaseIds tasks).1 := by
    refine Table.related_write (fun task _ => .inl rfl) fun row hrow task htask hkey => ?_
    obtain ⟨selected, hselected, rfl⟩ := List.mem_map.mp hrow
    obtain rfl := tasks.eq_of_key_eq htask (hsub selected hselected) hkey
    exact .inr ⟨hselected, rfl⟩
  have hnew : ∀ claim ∈ (claimTasks request locked leaseIds tasks).2,
      ∃ task ∈ selectTasks request locked tasks, claim = claimOf leaseIds task := by
    intro claim hclaim
    obtain ⟨task, htask, rfl⟩ := List.mem_map.mp hclaim
    exact ⟨task, htask, rfl⟩
  have hunissued : ∀ task ∈ selectTasks request locked tasks, claimOf leaseIds task ∉ issued :=
    fun task htask hmem => hfresh task htask _ hmem rfl rfl
  have hsame : ∀ task ∈ selectTasks request locked tasks,
      ∀ other ∈ selectTasks request locked tasks, task.id = other.id → task = other :=
    fun task htask other hother hid => tasks.eq_of_key_eq (hsub task htask) (hsub other hother) hid
  have hcases : ∀ claim, Standing (issued ++ (claimTasks request locked leaseIds tasks).2) returned
      claim → Standing issued returned claim ∨
        ∃ task ∈ selectTasks request locked tasks, claim = claimOf leaseIds task := by
    intro claim hclaim
    cases List.mem_append.mp hclaim.1 with
    | inl hold => exact .inl ⟨hold, hclaim.2⟩
    | inr hadded => exact .inr (hnew claim hadded)
  -- an old claim of a picked task has a lower attempt than the new one
  have hlower : ∀ claim, Standing issued returned claim →
      ∀ task ∈ selectTasks request locked tasks, claim.id = task.id →
        claim.attemptNumber < task.attemptCount + 1 := by
    intro claim hclaim task htask hid
    obtain ⟨stored, hstored, hkey, hcount⟩ := h.counted claim hclaim
    obtain rfl := tasks.eq_of_key_eq hstored (hsub task htask) (hkey.trans hid)
    omega
  refine ⟨?_, ?_, ?_, ?_, ?_⟩
  · exact fun claim hclaim => List.mem_append_left _ (h.given claim hclaim)
  · intro claim hclaim other hother hid hlease
    cases List.mem_append.mp hclaim with
    | inl hold =>
      cases List.mem_append.mp hother with
      | inl hold' => exact h.leases claim hold other hold' hid hlease
      | inr hadded =>
        obtain ⟨task, htask, rfl⟩ := hnew other hadded
        exact absurd hlease (hfresh task htask claim hold hid)
    | inr hadded =>
      obtain ⟨task, htask, rfl⟩ := hnew claim hadded
      cases List.mem_append.mp hother with
      | inl hold' => exact absurd hlease.symm (hfresh task htask other hold' hid.symm)
      | inr hadded' =>
        obtain ⟨task', htask', rfl⟩ := hnew other hadded'
        rw [hsame task htask task' htask' hid]
  · intro claim hclaim
    cases hcases claim hclaim with
    | inl hstanding =>
      obtain ⟨task, htask, hid, hcount⟩ := h.counted claim hstanding
      obtain ⟨task', htask', hkey, hstep⟩ := hrelated.exists_after htask
      refine ⟨task', htask', hkey.symm.trans hid, ?_⟩
      cases hstep with
      | inl hkept => rwa [hkept]
      | inr hclaimed =>
        rw [hclaimed.2]
        exact Nat.le_succ_of_le hcount
    | inr hadded =>
      obtain ⟨task, htask, rfl⟩ := hadded
      exact ⟨claimRow request leaseIds task, Table.mem_write_of_mem hkeys
        (List.mem_map_of_mem htask) (hsub task htask) rfl, rfl, Nat.le_refl _⟩
  · intro task' htask' lease hlease
    obtain ⟨task, htask, hkey, hstep⟩ := hrelated.exists_before htask'
    cases hstep with
    | inl hkept =>
      rw [hkept] at hlease ⊢
      obtain ⟨claim, hclaim, hrest⟩ := h.leased task htask lease hlease
      exact ⟨claim, ⟨List.mem_append_left _ hclaim.1, hclaim.2⟩, hrest⟩
    | inr hclaimed =>
      obtain ⟨hselected, rfl⟩ := hclaimed
      cases hlease
      exact ⟨claimOf leaseIds task, ⟨List.mem_append_right _ (List.mem_map_of_mem hselected),
        fun hmem => hunissued task hselected (h.given _ hmem)⟩, rfl, rfl, rfl⟩
  · intro claim other hclaim hother hid hnumber
    cases hcases claim hclaim with
    | inl hstanding =>
      cases hcases other hother with
      | inl hstanding' => exact h.distinct claim other hstanding hstanding' hid hnumber
      | inr hadded =>
        obtain ⟨task, htask, rfl⟩ := hadded
        exact absurd hnumber (hlower claim hstanding task htask hid).ne
    | inr hadded =>
      obtain ⟨task, htask, rfl⟩ := hadded
      cases hcases other hother with
      | inl hstanding' => exact absurd hnumber.symm (hlower other hstanding' task htask hid.symm).ne
      | inr hadded' =>
        obtain ⟨task', htask', rfl⟩ := hadded'
        rw [hsame task htask task' htask' hid]

theorem AttemptsKept.deferred (h : AttemptsKept tasks issued returned) {claim : TaskClaim}
    (hclaim : claim ∈ issued) {deferredAt notBefore : Int} {reason : String}
    (hdefer : deferTask claim deferredAt notBefore reason tasks = .ok tasks') :
    AttemptsKept tasks' issued (returned ++ [claim]) := by
  obtain ⟨task, hmem, hid, hlease, rfl⟩ := deferTask_eq_ok hdefer
  obtain ⟨lease, hheld, hleaseId⟩ := Option.map_eq_some_iff.mp hlease
  obtain ⟨holder, hholder, hholderId, hholderLease, hnumber⟩ := h.leased task hmem lease hheld
  obtain rfl := h.leases holder hholder.1 claim hclaim (hholderId.trans hid)
    (hholderLease.trans hleaseId)
  have hcases : ∀ other, Standing issued (returned ++ [holder]) other →
      Standing issued returned other ∧ other ≠ holder := by
    intro other hother
    exact ⟨⟨hother.1, fun hmem => hother.2 (List.mem_append_left _ hmem)⟩, fun heq =>
      hother.2 (heq ▸ List.mem_append_right _ (List.mem_singleton_self _))⟩
  have hrelated : Table.Related (fun a b => b = a ∨
      (a = task ∧ b = deferredRow deferredAt notBefore reason task)) tasks
      (tasks.write [deferredRow deferredAt notBefore reason task]) := by
    refine Table.related_write (fun a _ => .inl rfl) fun row hrow a ha hkey => ?_
    rw [List.mem_singleton.mp hrow] at hkey ⊢
    exact .inr ⟨tasks.eq_of_key_eq ha hmem hkey, rfl⟩
  refine ⟨?_, h.leases, ?_, ?_, ?_⟩
  · intro other hother
    cases List.mem_append.mp hother with
    | inl hold => exact h.given other hold
    | inr hnew => exact List.mem_singleton.mp hnew ▸ hclaim
  · intro other hother
    obtain ⟨hstanding, hne⟩ := hcases other hother
    obtain ⟨stored, hstored, hkey, hcount⟩ := h.counted other hstanding
    obtain ⟨after, hafter, hkey', hstep⟩ := hrelated.exists_after hstored
    refine ⟨after, hafter, hkey'.symm.trans hkey, ?_⟩
    cases hstep with
    | inl hkept => rwa [hkept]
    | inr hdeferred =>
      obtain ⟨rfl, rfl⟩ := hdeferred
      have hother : other.attemptNumber ≠ holder.attemptNumber := fun heq =>
        hne (h.distinct other holder hstanding hholder (hkey.symm.trans hid) heq)
      show other.attemptNumber ≤ stored.attemptCount - 1
      omega
  · intro after hafter other hother
    cases Table.mem_write hafter with
    | inl hdeferred =>
      rw [List.mem_singleton.mp hdeferred] at hother
      cases hother
    | inr hkept =>
      obtain ⟨hstored, hne⟩ := hkept
      obtain ⟨claim, hclaim, hclaimId, hrest⟩ := h.leased after hstored other hother
      refine ⟨claim, ⟨hclaim.1, fun hgiven => ?_⟩, hclaimId, hrest⟩
      cases List.mem_append.mp hgiven with
      | inl hold => exact hclaim.2 hold
      | inr hnew =>
        rw [List.mem_singleton.mp hnew, ← hid] at hclaimId
        exact hne _ (List.mem_singleton_self _) hclaimId
  · intro other another hother hanother
    exact h.distinct other another (hcases other hother).1 (hcases another hanother).1

end Attempts

/-! ### No reservation is shared -/

/-- Claims are executed once; one that was given back has asked for nothing. -/
structure PagesOnce (ids : BudgetIdentities) (limits : RequestLimits) (s : WorkerSystem) :
    Prop where
  budgeted : Budgeted ids limits s
  attempts : AttemptsKept s.tasks s.issued s.returned
  executed : ∀ execution ∈ s.executions, execution.claim ∈ s.issued
  once : (s.executions.map (·.claim)).Nodup
  givenBack : ∀ claim ∈ s.returned, ∃ execution ∈ s.executions, execution.claim = claim
  ended : ∀ execution ∈ s.executions, execution.claim ∈ s.returned → execution.phase = .ended
  standing : ∀ request ∈ s.requests, request.claim ∉ s.returned

section Sharing
variable {ids : BudgetIdentities} {limits : RequestLimits} {s s' : WorkerSystem} {index : Nat}
  {execution : Execution}

theorem PagesOnce.initial : PagesOnce ids limits WorkerSystem.initial where
  budgeted := .initial
  attempts := .initial
  executed execution hexecution := by cases hexecution
  once := List.nodup_nil
  givenBack claim hclaim := by cases hclaim
  ended execution hexecution := by cases hexecution
  standing request hrequest := by cases hrequest

/-- One claim has one execution. -/
theorem PagesOnce.index_eq (h : PagesOnce ids limits s) {other : Nat} {execution' : Execution}
    (hindex : s.executions[index]? = some execution)
    (hother : s.executions[other]? = some execution')
    (hclaim : execution.claim = execution'.claim) : index = other := by
  have hmap : ∀ {i : Nat} {e : Execution}, s.executions[i]? = some e →
      (s.executions.map (·.claim))[i]? = some e.claim := by
    intro i e he
    rw [List.getElem?_map, he, Option.map_some]
  obtain ⟨_, hget⟩ := List.getElem?_eq_some_iff.mp (hmap hindex)
  obtain ⟨_, hget'⟩ := List.getElem?_eq_some_iff.mp (hmap hother)
  exact h.once.getElem_inj_iff.mp (hget.trans (hclaim.trans hget'.symm))

/-- Two requests for one page identity are one request. -/
theorem PagesOnce.unshared (hids : ids.Separating) (h : PagesOnce ids limits s) :
    Unshared ids s := by
  have hsame : ∀ request ∈ s.requests, ∀ other ∈ s.requests,
      ids.digest request.document = ids.digest other.document →
        (request.execution, request.page) = (other.execution, other.page) := by
    intro request hrequest other hother hdigest
    have hdocument := hids.digest hdigest
    obtain ⟨execution, hexecution, hclaim, _⟩ := h.budgeted.logged request hrequest
    obtain ⟨execution', hexecution', hclaim', _⟩ := h.budgeted.logged other hother
    have hstanding : ∀ {e : Execution} {r : PageRequest}, r ∈ s.requests → e ∈ s.executions →
        e.claim = r.claim → Standing s.issued s.returned r.claim := by
      intro e r hr he heq
      exact ⟨heq ▸ h.executed e he, h.standing r hr⟩
    simp only [PageRequest.document, BudgetDocument.mk.injEq, PageIdentity.mk.injEq] at hdocument
    obtain ⟨htask, _, _, hattempt, hpage⟩ := hdocument
    have hclaims := h.attempts.distinct _ _
      (hstanding hrequest (List.mem_of_getElem? hexecution) hclaim)
      (hstanding hother (List.mem_of_getElem? hexecution') hclaim') htask hattempt
    rw [h.index_eq hexecution hexecution' (hclaim.trans (hclaims.trans hclaim'.symm)), hpage]
  have hpages := h.budgeted.own.pages
  rw [Unshared, List.nodup_iff_pairwise_ne, List.pairwise_map]
  rw [List.nodup_iff_pairwise_ne, List.pairwise_map] at hpages
  exact hpages.imp_of_mem fun hrequest hother hne heq => hne (hsame _ hrequest _ hother heq)

/-- An execution that has not ended enters a phase, over a queue with dropped leases. -/
theorem PagesOnce.entered (h : PagesOnce ids limits s)
    (hindex : s.executions[index]? = some execution) (phase : ExecutionPhase)
    (hbudgeted : Budgeted ids limits s') (hattempts : AttemptsKept s'.tasks s.issued s.returned)
    (hissued : s'.issued = s.issued) (hreturned : s'.returned = s.returned)
    (hexecutions : s'.executions = s.executions.set index { execution with phase := phase })
    (hrequests : ∀ request ∈ s'.requests, request ∈ s.requests ∨ request.claim = execution.claim)
    (hopen : execution.phase ≠ .ended ∨ (phase = .ended ∧ s'.requests = s.requests)) :
    PagesOnce ids limits s' := by
  have hmem := List.mem_of_getElem? hindex
  have hclaims : s'.executions.map (·.claim) = s.executions.map (·.claim) := by
    have hlt : index < s.executions.length := (List.getElem?_eq_some_iff.mp hindex).1
    rw [hexecutions]
    refine List.ext_getElem? fun i => ?_
    rw [List.getElem?_map, List.getElem?_map, List.getElem?_set]
    by_cases heq : index = i
    · subst heq
      rw [if_pos rfl, if_pos hlt, hindex]
      rfl
    · rw [if_neg heq]
  have hexecutions' : ∀ other ∈ s'.executions, (other ∈ s.executions ∨
      (other.claim = execution.claim ∧ other.phase = phase)) := by
    intro other hother
    rw [hexecutions] at hother
    cases List.mem_or_eq_of_mem_set hother with
    | inl hold => exact .inl hold
    | inr hnew => exact .inr ⟨by rw [hnew], by rw [hnew]⟩
  refine ⟨hbudgeted, by rw [hissued, hreturned]; exact hattempts, ?_, by rw [hclaims]; exact h.once,
    ?_, ?_, ?_⟩
  · intro other hother
    rw [hissued]
    cases hexecutions' other hother with
    | inl hold => exact h.executed other hold
    | inr hnew => exact hnew.1 ▸ h.executed execution hmem
  · intro claim hclaim
    rw [hreturned] at hclaim
    obtain ⟨other, hother, hclaimed⟩ := h.givenBack claim hclaim
    have hin : claim ∈ s'.executions.map (·.claim) := by
      rw [hclaims, ← hclaimed]
      exact List.mem_map_of_mem hother
    exact List.mem_map.mp hin
  · intro other hother hgiven
    rw [hreturned] at hgiven
    cases hexecutions' other hother with
    | inl hold => exact h.ended other hold hgiven
    | inr hnew =>
      rw [hnew.2]
      cases hopen with
      | inl hopen => exact absurd (h.ended execution hmem (hnew.1 ▸ hgiven)) hopen
      | inr hended => exact hended.1
  · intro request hrequest
    rw [hreturned]
    cases hrequests request hrequest with
    | inl hold => exact h.standing request hold
    | inr hnew =>
      cases hopen with
      | inl hopen => exact fun hgiven => hopen (h.ended execution hmem (hnew ▸ hgiven))
      | inr hended => exact h.standing request (hended.2 ▸ hrequest)

theorem PagesOnce.moved (hids : ids.Separating) (h : PagesOnce ids limits s)
    (hindex : s.executions[index]? = some execution)
    (hmoved : Moved ids limits index execution s s') : PagesOnce ids limits s' := by
  have hbudgeted := h.budgeted.moved hids hindex hmoved
  have hmem := List.mem_of_getElem? hindex
  cases hmoved with
  | same => exact h
  | admitted page phase stored =>
    exact h.entered hindex _ hbudgeted h.attempts rfl rfl rfl (fun _ hold => .inl hold)
      (.inl (by rw [phase]; simp))
  | looked page phase =>
    exact h.entered hindex _ hbudgeted h.attempts rfl rfl rfl (fun _ hold => .inl hold)
      (.inl (by rw [phase]; simp))
  | reserved page universalDue phase next admits refuses =>
    exact h.entered hindex _ hbudgeted h.attempts rfl rfl rfl (fun _ hold => .inl hold)
      (.inl (by rw [phase]; simp))
  | requested page phase =>
    refine h.entered hindex _ hbudgeted h.attempts rfl rfl rfl ?_ (.inl (by rw [phase]; simp))
    intro request hrequest
    cases List.mem_append.mp hrequest with
    | inl hold => exact .inl hold
    | inr hnew => exact .inr (by rw [List.mem_singleton.mp hnew])
  | next page phase =>
    exact h.entered hindex _ hbudgeted h.attempts rfl rfl rfl (fun _ hold => .inl hold)
      (.inl (by rw [phase]; simp))
  | closed page phase =>
    exact h.entered hindex _ hbudgeted h.attempts rfl rfl rfl (fun _ hold => .inl hold)
      (.inl (by rw [phase]; simp))
  | ended tasks settles =>
    exact h.entered hindex _ hbudgeted (h.attempts.dropped settles.related) rfl rfl rfl
      (fun _ hold => .inl hold) (.inr ⟨rfl, rfl⟩)
  | deferred tasks phase given =>
    have hended : PagesOnce ids limits (s.enter index execution .ended) :=
      h.entered hindex .ended (h.budgeted.moved hids hindex (.ended s.tasks (.inl rfl)))
        h.attempts rfl rfl rfl (fun _ hold => .inl hold) (.inr ⟨rfl, rfl⟩)
    have hlt : index < s.executions.length := (List.getElem?_eq_some_iff.mp hindex).1
    have hself : (s.enter index execution .ended).executions[index]? =
        some { execution with phase := .ended } := List.getElem?_set_self hlt
    refine ⟨hbudgeted, h.attempts.deferred (h.executed execution hmem) given, hended.executed,
      hended.once, ?_, ?_, ?_⟩
    · intro claim hclaim
      cases List.mem_append.mp hclaim with
      | inl hold => exact hended.givenBack claim hold
      | inr hnew =>
        rw [List.mem_singleton.mp hnew]
        exact ⟨_, List.mem_of_getElem? hself, rfl⟩
    · intro other hother hgiven
      cases List.mem_append.mp hgiven with
      | inl hold => exact hended.ended other hother hold
      | inr hnew =>
        obtain ⟨i, hi⟩ := List.mem_iff_getElem?.mp hother
        obtain rfl := hended.index_eq hself hi (List.mem_singleton.mp hnew).symm
        rw [hself] at hi
        exact (Option.some.inj hi) ▸ rfl
    · intro request hrequest hgiven
      cases List.mem_append.mp hgiven with
      | inl hold => exact h.standing request hrequest hold
      | inr hnew =>
        -- a refused execution has asked for nothing
        obtain ⟨found, hfound, hclaim, hpassed⟩ := h.budgeted.logged request hrequest
        obtain rfl := h.index_eq hindex hfound
          ((List.mem_singleton.mp hnew).symm.trans hclaim.symm)
        rw [hindex] at hfound
        cases hfound
        rw [phase] at hpassed
        exact hpassed

theorem createTask_attempts {identity : TaskIdentity} {candidate : TaskSource}
    {tier : CandidateTier} {analysisType : String} {maxAttempts : Nat} {now : Int}
    (h : AttemptsKept s.tasks s.issued s.returned) :
    AttemptsKept (Candidates.committed
      (createTask identity candidate tier analysisType maxAttempts now s.tasks) s.tasks)
      s.issued s.returned := by
  unfold createTask
  dsimp only
  split
  · split
    · exact h
    · exact h.created rfl
  · exact h

theorem PagesOnce.step (hids : ids.Separating) (s : WorkerSystem) (action : WorkerAction)
    (h : PagesOnce ids limits s) (hok : FreshLeases s action ∧ ExecutedOnce s action) :
    PagesOnce ids limits (workerStep ids limits s action) := by
  have hbudgeted := h.budgeted.step hids s action
  cases action with
  | create identity candidate tier analysisType maxAttempts now =>
    exact ⟨hbudgeted, createTask_attempts h.attempts, h.executed, h.once, h.givenBack, h.ended,
      h.standing⟩
  | claim request locked leaseIds =>
    exact ⟨hbudgeted, h.attempts.claimed hok.1,
      fun execution hexecution => List.mem_append_left _ (h.executed execution hexecution), h.once,
      h.givenBack, h.ended, h.standing⟩
  | processClaim claim provider now =>
    unfold workerStep at hbudgeted ⊢
    dsimp only at hbudgeted ⊢
    by_cases hissued : claim ∈ s.issued
    · rw [if_pos hissued] at hbudgeted ⊢
      have hunexecuted := hok.2
      refine ⟨hbudgeted, h.attempts, ?_, ?_, ?_, ?_, h.standing⟩
      · intro execution hexecution
        cases List.mem_append.mp hexecution with
        | inl hold => exact h.executed execution hold
        | inr hnew => rwa [List.mem_singleton.mp hnew]
      · rw [List.map_append, List.map_singleton]
        refine List.nodup_append.mpr ⟨h.once, List.nodup_singleton _, ?_⟩
        intro claimed hclaimed other hother heq
        obtain ⟨execution, hexecution, rfl⟩ := List.mem_map.mp hclaimed
        exact hunexecuted execution hexecution (heq.trans (List.mem_singleton.mp hother))
      · intro given hgiven
        obtain ⟨execution, hexecution, hrest⟩ := h.givenBack given hgiven
        exact ⟨execution, List.mem_append_left _ hexecution, hrest⟩
      · intro execution hexecution hgiven
        cases List.mem_append.mp hexecution with
        | inl hold => exact h.ended execution hold hgiven
        | inr hnew =>
          rw [List.mem_singleton.mp hnew] at hgiven
          obtain ⟨earlier, hearlier, hclaimed⟩ := h.givenBack _ hgiven
          exact absurd hclaimed (hunexecuted earlier hearlier)
    · rw [if_neg hissued]
      exact h
  | move index move =>
    unfold workerStep
    dsimp only
    split
    · exact h
    · next execution hindex => exact h.moved hids hindex (moveStep_moved index execution s move)

/-! ### The budget over runs -/

/-- In every run the limits hold in every minute and every page is asked for behind a reservation
of its own attempt, once by its execution. No two requests share a reservation when claims draw
fresh leases and none is executed twice. -/
theorem provider_budget (hids : ids.Separating) (actions : List WorkerAction) :
    Always (workerStep ids limits) (fun s => WithinLimits limits s.reservations ∧
      OwnReservations ids s) WorkerSystem.initial actions ∧
    (Steps (workerStep ids limits) FreshLeases WorkerSystem.initial actions →
      Steps (workerStep ids limits) ExecutedOnce WorkerSystem.initial actions →
        Always (workerStep ids limits) (Unshared ids) WorkerSystem.initial actions) := by
  refine ⟨?_, fun hfresh honce => ?_⟩
  · exact (always_of_kept (Budgeted.step hids) Budgeted.initial actions).mono
      fun s h => ⟨h.within, h.own⟩
  · exact (always_of_invariant (PagesOnce.step hids) (hfresh.and honce) PagesOnce.initial).mono
      fun s h => h.unshared hids

end Sharing

/-! ### One claim, executed once and twice -/

def budgetIdentities : BudgetIdentities where
  digest document := String.ofList (countedText [document.task, document.page.attempt,
    document.page.page, document.provider.toList.length]
    (document.provider.toList ++ document.budgetClass.toList))
  uuid5 := Encodable.encode

theorem budgetIdentities_separating : budgetIdentities.Separating where
  digest document other h := by
    have hlists := String.ofList_injective (show String.ofList _ = String.ofList _ from h)
    obtain ⟨hnumbers, htexts⟩ := countedText_inj (by simp) hlists
    simp only [List.cons.injEq, and_true] at hnumbers
    obtain ⟨htask, hattempt, hpage, hlength⟩ := hnumbers
    obtain ⟨hprovider, hclass⟩ := List.append_inj htexts hlength
    obtain ⟨task, provider, budgetClass, attempt, page⟩ := document
    obtain ⟨task', provider', budgetClass', attempt', page'⟩ := other
    dsimp only at htask hattempt hpage hprovider hclass
    rw [htask, hattempt, hpage, String.toList_injective hprovider, String.toList_injective hclass]
  uuid5 := Encodable.encode_injective

def sampleLimits : RequestLimits := ⟨10, 5, 5, 5, 4⟩

/-- A task for traders and its first claim. -/
def issueTrader : List WorkerAction :=
  [.create analysisIdentity ⟨1, 2, 3, 0, "evidence"⟩ .tier1Interesting "TRADER_DISTRIBUTION" 4 0,
   .claim ⟨0, "worker", none, 1, 12, seconds 300, none⟩ [] fun _ => 7]

def traderClaim : TaskClaim := ⟨48, 7, 1, 2, .tier1Interesting, "TRADER_DISTRIBUTION", 0, "evidence", 1⟩

/-- The first page of an execution. -/
def firstPage (index : Nat) : List WorkerAction :=
  [.move index .lookUp, .move index (.reserve false), .move index .request]

theorem provider_budget_trader :
    Always (workerStep budgetIdentities sampleLimits) (Unshared budgetIdentities)
      WorkerSystem.initial
      (issueTrader ++ [.processClaim traderClaim "helius" 0] ++ firstPage 0) :=
  (provider_budget budgetIdentities_separating _).2
    ⟨trivial, fun _ _ _ hclaim => (by cases hclaim), trivial, trivial, trivial, trivial, trivial⟩
    ⟨trivial, trivial, fun _ hexecution => (by cases hexecution), trivial, trivial, trivial, trivial⟩

/-- A claim that is executed twice asks for its first page twice behind one reservation. -/
theorem provider_budget_shared : ∃ actions,
    Steps (workerStep budgetIdentities sampleLimits) FreshLeases WorkerSystem.initial actions ∧
    ¬ Always (workerStep budgetIdentities sampleLimits) (Unshared budgetIdentities)
      WorkerSystem.initial actions := by
  refine ⟨issueTrader ++ [.processClaim traderClaim "helius" 0, .processClaim traderClaim "helius" 0]
    ++ firstPage 0 ++ firstPage 1, ?_, fun h => ?_⟩
  · exact ⟨trivial, fun _ _ _ hclaim => (by cases hclaim), trivial, trivial, trivial, trivial,
      trivial, trivial, trivial, trivial, trivial⟩
  · have hlast := h.final
    revert hlast
    unfold Unshared
    decide +kernel

end PumpResearch.SecurityEnrichment
