import PumpResearch.Discovery.Contracts
import PumpResearch.Discovery.PayloadSafety
import PumpResearch.Instants
import PumpResearch.Library.KeyedTable
import PumpResearch.Library.Results

/-! From discovery to the first DEX pair: the tasks of admitted tokens, their batch leases, and the
transactions of `DexAvailabilityWorkflow`. -/
namespace PumpResearch.Collection
open Discovery KeyedOrder KeyedTable PythonJson PythonText Results Utf8

/-! ### Rows -/

inductive AvailabilityState where
  | pendingDex
  | new
deriving DecidableEq, Repr

structure DiscoveredAddress where
  id : Uuid
  chain : Text
  address : Text
  firstDiscoveredAt : Option Int
deriving DecidableEq

def DiscoveredAddress.identity (token : DiscoveredAddress) : Text × Text :=
  (token.chain, token.address)

structure DexAvailabilityTask where
  tokenId : Uuid
  state : AvailabilityState
  nextCheckAt : Int
  lastCheckedAt : Option Int
  attemptCount : Nat
  leaseId : Option Uuid
  leaseExpiresAt : Option Int
  updatedAt : Int
deriving DecidableEq

structure DexAvailabilityClaim where
  tokenId : Uuid
  chain : Text
  address : Text
  leaseId : Uuid
deriving DecidableEq

/-- The parts of a request's idempotency key. They also stand for its identifier. -/
structure RequestKey where
  failed : Bool
  leaseId : Uuid
  chain : Text
deriving DecidableEq

/-- Why a batch has no answer. Only an HTTP error has a status code. -/
structure FetchError where
  errorType : String
  message : String
  statusCode : Option Nat
  attemptCount : Nat
deriving DecidableEq

inductive CheckOutcome where
  | empty
  | succeeded
  | partialMatch
  | throttled
  | failed
deriving DecidableEq

structure CheckRequest where
  idempotencyKey : RequestKey
  collectorRunId : Option Uuid
  requestedAt : Int
  receivedAt : Int
  outcome : CheckOutcome
  httpStatusCode : Option Nat
  tokenAddresses : List Text
  providerAttemptCount : Nat
  responsePayload : Option (List JsonValue)
  unmatchedAddresses : List Text
  error : Option FetchError

/-- The parts of a lifecycle event's idempotency key. -/
inductive AvailabilityEventKey where
  | initialPending (tokenId : Uuid)
  | retry (request : RequestKey) (tokenId : Uuid)
  | new (request : RequestKey) (tokenId : Uuid)
  | failed (request : RequestKey) (tokenId : Uuid)
deriving DecidableEq

inductive ReasonDetail where
  | discovery (provider : Text)
  | nextCheck (request : RequestKey) (nextCheckAt : Int)
  | pairPresent (request : RequestKey) (matchingPairCount : Nat)
deriving DecidableEq

structure AvailabilityEvent where
  tokenId : Uuid
  collectorRunId : Option Uuid
  idempotencyKey : AvailabilityEventKey
  previousState : Option AvailabilityState
  newState : AvailabilityState
  decidedAt : Int
  inputWatermark : Int
  reasonCode : String
  reasonDetail : ReasonDetail
deriving DecidableEq

structure AvailabilityStore where
  tokens : Table DiscoveredAddress.identity
  tasks : Table DexAvailabilityTask.tokenId
  requests : Table CheckRequest.idempotencyKey
  events : Table AvailabilityEvent.idempotencyKey

def emptyAvailability : AvailabilityStore := ⟨.empty, .empty, .empty, .empty⟩

inductive AvailabilityError where
  | value (message : String)
  | runtime (message : String)
  | data (message : String)
deriving DecidableEq

/-! ### Admission -/

/-- The row that `create_pending_if_absent` inserts. -/
def pendingTask (tokenId : Uuid) (dueAt : Int) : DexAvailabilityTask where
  tokenId := tokenId
  state := .pendingDex
  nextCheckAt := dueAt
  lastCheckedAt := none
  attemptCount := 0
  leaseId := none
  leaseExpiresAt := none
  updatedAt := dueAt

def initialEvent (tokenId : Uuid) (event : DiscoveredToken) (runId : Option Uuid) :
    AvailabilityEvent where
  tokenId := tokenId
  collectorRunId := runId
  idempotencyKey := .initialPending tokenId
  previousState := none
  newState := .pendingDex
  decidedAt := event.receivedAt
  inputWatermark := event.receivedAt
  reasonCode := "discovered_awaiting_dex"
  reasonDetail := .discovery event.sourceName

/-- `admit_discovery_in_session`, with the identifier drawn for a new token. -/
def admitDiscoveryInSession (drawn : Uuid) (event : DiscoveredToken) (runId : Option Uuid)
    (store : AvailabilityStore) : AvailabilityStore :=
  let created : DiscoveredAddress := ⟨drawn, event.chain, event.address, event.sourceEventAt⟩
  let token := (store.tokens.find? created.identity).getD created
  { store with
    tokens := store.tokens.insertNew created
    tasks := store.tasks.insertNew (pendingTask token.id event.receivedAt)
    events := if (store.tasks.find? token.id).isSome then store.events
      else store.events.insertNew (initialEvent token.id event runId) }

/-! ### Claims -/

/-- The conditions of `claim_due`. -/
def ClaimableAt (now : Int) (task : DexAvailabilityTask) : Prop :=
  task.state = .pendingDex ∧ task.nextCheckAt ≤ now ∧
    (task.leaseId = none ∨ ∃ expiresAt ∈ task.leaseExpiresAt, expiresAt ≤ now)

instance decidableClaimableAt (now : Int) : DecidablePred (ClaimableAt now) :=
  fun task => inferInstanceAs (Decidable (_ ∧ _ ∧ (_ ∨ ∃ expiresAt ∈ task.leaseExpiresAt, _)))

def dueOrder (row : DexAvailabilityTask × DiscoveredAddress) : Int ×ₗ Nat :=
  toLex (row.1.nextCheckAt, row.1.tokenId)

/-- Tasks joined with their tokens. -/
def tasksWithTokens (store : AvailabilityStore) : List (DexAvailabilityTask × DiscoveredAddress) :=
  store.tasks.rows.filterMap fun task =>
    (store.tokens.rows.find? (·.id = task.tokenId)).map fun token => (task, token)

/-- The rows of a claim, less those that other transactions hold locked. -/
def dueRows (now : Int) (limit : Nat) (locked : List Uuid) (store : AvailabilityStore) :
    List (DexAvailabilityTask × DiscoveredAddress) :=
  ((sortOn dueOrder ((tasksWithTokens store).filter fun row => ClaimableAt now row.1)).filter
    fun row => row.1.tokenId ∉ locked).take limit

def leasedTask (leaseId : Uuid) (expiresAt now : Int) (task : DexAvailabilityTask) :
    DexAvailabilityTask :=
  { task with leaseId := some leaseId, leaseExpiresAt := some expiresAt, updatedAt := now }

/-- `claim_due`, with the lease it draws. -/
def claimDue (now : Int) (limit : Nat) (leaseDuration : Int) (leaseId : Uuid)
    (locked : List Uuid) (store : AvailabilityStore) :
    Except AvailabilityError (AvailabilityStore × List DexAvailabilityClaim) :=
  if limit < 1 then .error (.value "limit must be at least one")
  else if leaseDuration ≤ 0 then .error (.value "lease_duration must be positive")
  else
    let rows := dueRows now limit locked store
    .ok ({ store with
        tasks := store.tasks.write
          (rows.map fun row => leasedTask leaseId (now + leaseDuration) now row.1) },
      rows.map fun row => ⟨row.1.tokenId, row.2.chain, row.2.address, leaseId⟩)

/-! ### Completions -/

def completedTask (checkedAt : Int) (nextState : AvailabilityState) (nextCheckAt : Int)
    (task : DexAvailabilityTask) : DexAvailabilityTask :=
  { task with
    state := nextState
    nextCheckAt := nextCheckAt
    lastCheckedAt := some checkedAt
    attemptCount := task.attemptCount + 1
    leaseId := none
    leaseExpiresAt := none
    updatedAt := checkedAt }

def OwnedBy (tokenIds : List Uuid) (leaseId : Uuid) (task : DexAvailabilityTask) : Prop :=
  task.tokenId ∈ tokenIds ∧ task.leaseId = some leaseId ∧ task.state = .pendingDex

instance decidableOwnedBy (tokenIds : List Uuid) (leaseId : Uuid) :
    DecidablePred (OwnedBy tokenIds leaseId) :=
  fun _ => inferInstanceAs (Decidable (_ ∧ _ ∧ _))

/-- `_complete`: all the tasks of the batch, or none. -/
def completeTasks (tokenIds : List Uuid) (leaseId : Uuid) (checkedAt : Int)
    (nextState : AvailabilityState) (nextCheckAt : Int) (store : AvailabilityStore) :
    Except AvailabilityError AvailabilityStore :=
  if tokenIds = [] then .ok store
  else
    let tasks := store.tasks.rows.filter (OwnedBy tokenIds leaseId ·)
    if tasks.length ≠ tokenIds.length then
      .error (.runtime "DEX availability lease is no longer owned by this worker")
    else .ok { store with
      tasks := store.tasks.write (tasks.map (completedTask checkedAt nextState nextCheckAt)) }

/-! ### Answers -/

/-- The fields of a `DexScreenerPair` that the workflow reads. -/
structure DexPair where
  chainId : Option Text
  baseToken : Option Text
  quoteToken : Option Text
deriving DecidableEq

/-- `DexScreenerBatchResult`. -/
structure DexBatchResult where
  chainId : Text
  requestedAddresses : List Text
  pairs : List DexPair
  receivedAt : Int
  rawResponse : List JsonValue
  attemptCount : Nat

/-- `DexScreenerTokenPairsResult`. -/
structure TokenPairsResult where
  chainId : Text
  requestedAddresses : List Text
  batches : List DexBatchResult

def TokenPairsResult.pairs (result : TokenPairsResult) : List DexPair :=
  result.batches.flatMap (·.pairs)

/-- `_validate_batch_result`: the one batch of the answer. -/
def validateBatchResult (result : TokenPairsResult) (chain : Text) (addresses : List Text) :
    Except FetchError DexBatchResult :=
  match result.batches with
  | [batch] =>
    if result.chainId ≠ chain ∨ result.requestedAddresses ≠ addresses then
      .error ⟨"ValueError",
        "DEX availability source returned a result that does not match the claimed batch", none, 1⟩
    else .ok batch
  | _ =>
    .error ⟨"ValueError",
      "DEX availability source returned a result that does not match the claimed batch", none, 1⟩

/-- `_matching_pairs`. -/
def matchingPairs (pairs : List DexPair) (chain address : Text) : List DexPair :=
  pairs.filter fun pair =>
    pair.chainId = some chain ∧ (pair.baseToken = some address ∨ pair.quoteToken = some address)

/-- What JSONB stores: no string with a NUL or half of a surrogate pair, no constant that JSON
does not have. -/
def jsonbFailure (payload : JsonValue) : Option String :=
  match postgresJsonStringFailure payload with
  | some reason => some reason
  | none => if payload.floats.all (·.isFinite) then none else some "invalid input syntax for json"

/-- `ApiRequestLogRepository.record`: a request of a known key is kept as it is. -/
def recordRequest (request : CheckRequest) (store : AvailabilityStore) :
    Except AvailabilityError AvailabilityStore :=
  match request.responsePayload.bind fun payload => jsonbFailure (.list payload) with
  | some reason => .error (.data reason)
  | none => .ok { store with requests := store.requests.insertNew request }

/-- `LifecycleEventRepository.record`, for the events of a batch one after another. -/
def recordLifecycle (events : List AvailabilityEvent) (store : AvailabilityStore) :
    AvailabilityStore :=
  { store with events := events.foldl (fun table event => table.insertNew event) store.events }

/-! ### One batch -/

/-- What a check of one batch has besides its claims: its clocks and its settings. -/
structure BatchCheck where
  leaseId : Uuid
  chain : Text
  requestedAt : Int
  failedAt : Int
  retryInterval : Int
  collectorRunId : Option Uuid

section Batch
variable (check : BatchCheck) (claims : List DexAvailabilityClaim)

def BatchCheck.requestKey (failed : Bool) : RequestKey := ⟨failed, check.leaseId, check.chain⟩

def checkEvent (key : AvailabilityEventKey) (claim : DexAvailabilityClaim)
    (newState : AvailabilityState) (decidedAt : Int) (reasonCode : String)
    (reasonDetail : ReasonDetail) : AvailabilityEvent where
  tokenId := claim.tokenId
  collectorRunId := check.collectorRunId
  idempotencyKey := key
  previousState := some .pendingDex
  newState := newState
  decidedAt := decidedAt
  inputWatermark := decidedAt
  reasonCode := reasonCode
  reasonDetail := reasonDetail

def failedEvent (claim : DexAvailabilityClaim) : AvailabilityEvent :=
  checkEvent check (.failed (check.requestKey true) claim.tokenId) claim .pendingDex check.failedAt
    "dex_check_failed_retry_scheduled"
    (.nextCheck (check.requestKey true) (check.failedAt + check.retryInterval))

def retryEvent (batch : DexBatchResult) (claim : DexAvailabilityClaim) : AvailabilityEvent :=
  checkEvent check (.retry (check.requestKey false) claim.tokenId) claim .pendingDex
    batch.receivedAt "dex_not_present_retry_scheduled"
    (.nextCheck (check.requestKey false) (batch.receivedAt + check.retryInterval))

def newEvent (batch : DexBatchResult) (claim : DexAvailabilityClaim) : AvailabilityEvent :=
  checkEvent check (.new (check.requestKey false) claim.tokenId) claim .new batch.receivedAt
    "dex_pair_present"
    (.pairPresent (check.requestKey false)
      (matchingPairs batch.pairs check.chain claim.address).length)

def failedRequest (error : FetchError) : CheckRequest where
  idempotencyKey := check.requestKey true
  collectorRunId := check.collectorRunId
  requestedAt := check.requestedAt
  receivedAt := check.failedAt
  outcome := if error.statusCode = some 429 then .throttled else .failed
  httpStatusCode := error.statusCode
  tokenAddresses := claims.map (·.address)
  providerAttemptCount := error.attemptCount
  responsePayload := none
  unmatchedAddresses := []
  error := some error

/-- `_record_failed_batch`. -/
def recordFailedBatch (error : FetchError) (store : AvailabilityStore) :
    Except AvailabilityError AvailabilityStore := do
  let requested ← recordRequest (failedRequest check claims error) store
  let completed ← completeTasks (claims.map (·.tokenId)) check.leaseId check.failedAt .pendingDex
    (check.failedAt + check.retryInterval) requested
  return recordLifecycle (claims.map (failedEvent check)) completed

/-- The answer has a pair of the token. -/
def Present (batch : DexBatchResult) (claim : DexAvailabilityClaim) : Prop :=
  matchingPairs batch.pairs check.chain claim.address ≠ []

instance decidablePresent (batch : DexBatchResult) : DecidablePred (Present check batch) :=
  fun _ => inferInstanceAs (Decidable (_ ≠ _))

def presentClaims (batch : DexBatchResult) : List DexAvailabilityClaim :=
  claims.filter (Present check batch ·)

def absentClaims (batch : DexBatchResult) : List DexAvailabilityClaim :=
  claims.filter fun claim => ¬ Present check batch claim

def successfulRequest (batch : DexBatchResult) : CheckRequest where
  idempotencyKey := check.requestKey false
  collectorRunId := check.collectorRunId
  requestedAt := check.requestedAt
  receivedAt := batch.receivedAt
  outcome :=
    if presentClaims check claims batch = [] then .empty
    else if absentClaims check claims batch = [] then .succeeded else .partialMatch
  httpStatusCode := some 200
  tokenAddresses := claims.map (·.address)
  providerAttemptCount := batch.attemptCount
  responsePayload := some batch.rawResponse
  unmatchedAddresses :=
    if presentClaims check claims batch = [] then []
    else (absentClaims check claims batch).map (·.address)
  error := none

/-- The transaction of an answered batch: absent tokens are retried, present tokens are new. -/
def recordAnsweredBatch (batch : DexBatchResult) (store : AvailabilityStore) :
    Except AvailabilityError AvailabilityStore := do
  let requested ← recordRequest (successfulRequest check claims batch) store
  let absent := absentClaims check claims batch
  let present := presentClaims check claims batch
  let retried ← completeTasks (absent.map (·.tokenId)) check.leaseId batch.receivedAt .pendingDex
    (batch.receivedAt + check.retryInterval) requested
  let released := recordLifecycle (absent.map (retryEvent check batch)) retried
  let promoted ← completeTasks (present.map (·.tokenId)) check.leaseId batch.receivedAt .new
    batch.receivedAt released
  return recordLifecycle (present.map (newEvent check batch)) promoted

/-- The one batch of an answer that matches the claims. -/
def matchedAnswer (fetched : Except FetchError TokenPairsResult) :
    Except FetchError DexBatchResult := do
  validateBatchResult (← fetched) check.chain (claims.map (·.address))

/-- `_check_claim_batch`, with what the DEX source returns. -/
def checkClaimBatch (fetched : Except FetchError TokenPairsResult) (store : AvailabilityStore) :
    Except AvailabilityError AvailabilityStore :=
  match matchedAnswer check claims fetched with
  | .error error => recordFailedBatch check claims error store
  | .ok batch => recordAnsweredBatch check claims batch store

end Batch

end PumpResearch.Collection
