import PumpResearch.Library.Runs
import PumpResearch.MarketData.RateLimiter

/-! Concurrent calls of the DEX client. Their requests share the limiters and the counters, and a
call that fails is retried until its attempts are spent. -/
namespace PumpResearch.MarketData

open Runs TimeWindows

/-! ### Answers -/

/-- How one HTTP request ends: with a response, its body parsed into so many records or not, with a
transport error, or with another exception, such as a cancellation. -/
inductive HttpOutcome where
  | response (statusCode : Nat) (retryAfter : Option ℚ) (records : Option Nat)
  | transportError
  | otherError
deriving DecidableEq

inductive RequestError where
  | http (statusCode : Nat) (retryAfterSeconds : Option ℚ)
  | transport
  | parse
  | other
deriving DecidableEq

/-- `Response.raise_for_status`. -/
def isSuccess (statusCode : Nat) : Bool := 200 ≤ statusCode && statusCode < 300

/-- What `_send_batch_request` and `_send_boost_request` return or raise. -/
def HttpOutcome.result : HttpOutcome → Except RequestError Nat
  | .response statusCode retryAfter records =>
    if isSuccess statusCode then
      match records with
      | some count => .ok count
      | none => .error .parse
    else .error (.http statusCode (retryAfter.map (max 0)))
  | .transportError => .error .transport
  | .otherError => .error .other

/-- `_is_retryable`. -/
def RequestError.isRetryable : RequestError → Bool
  | .http statusCode _ => statusCode = 429 || (500 ≤ statusCode && statusCode < 600)
  | .transport => true
  | .parse => false
  | .other => false

/-- An error that counts as a failed request. -/
def RequestError.isCounted : RequestError → Bool
  | .other => false
  | _ => true

/-- `_WaitForRetryAfter`, over `wait_exponential` from 0 to 30 seconds. -/
def RequestError.retryWait (backoff : ℚ) (number : Nat) : RequestError → ℚ
  | .http _ (some seconds) => seconds
  | _ => max 0 (min 30 (backoff * 2 ^ (number - 1)))

/-! ### The client -/

inductive Endpoint where
  | tokenPairs (addresses : Nat)
  | boostFeed
deriving DecidableEq

structure DexScreenerMetrics where
  batchesRequested : Nat := 0
  addressesRequested : Nat := 0
  httpRequestsStarted : Nat := 0
  httpRequestsSucceeded : Nat := 0
  httpRequestsFailed : Nat := 0
  httpRequestsThrottled : Nat := 0
  retries : Nat := 0
  parseFailures : Nat := 0
  pairsReturned : Nat := 0
  rateLimiterWaitSeconds : ℚ := 0
  requestLatencySeconds : ℚ := 0

inductive Ending where
  | returned (records : Nat)
  | raised (error : RequestError)
  | cancelled
deriving DecidableEq

/-- Where a call stands: asleep behind a limiter until its slot, with the wait so far, waiting for
the response or for the next attempt, or over. -/
inductive Phase where
  | routed (slot waited : ℚ)
  | queued (slot waited : ℚ)
  | sent (sentAt : ℚ)
  | resting (resumesAt : ℚ)
  | ended (ending : Ending)

/-- A call of `_fetch_batch` or `fetch_boost_feed`; the number is its `attempt_count`. -/
structure Call where
  endpoint : Endpoint
  number : Nat
  phase : Phase

structure Reservation where
  call : Nat
  number : Nat
  slot : ℚ
deriving DecidableEq

/-- A request on the wire, and its wait behind the limiters. -/
structure SentRequest extends Reservation where
  waited : ℚ
  sentAt : ℚ

structure Answer where
  call : Nat
  number : Nat
  endpoint : Endpoint
  sentAt : ℚ
  receivedAt : ℚ
  outcome : HttpOutcome

/-- A `DexScreenerClient` with its calls, and the log of what they did. -/
structure ApiClient where
  rateLimiter : AsyncRateLimiter
  boostRateLimiter : AsyncRateLimiter
  metrics : DexScreenerMetrics
  calls : Nat → Option Call
  begun : List Endpoint
  reserved : List Reservation
  sent : List SentRequest
  answers : List Answer

inductive ApiAction where
  | fetch (id : Nat) (endpoint : Endpoint) (now : ℚ)
  | wake (id : Nat) (now : ℚ)
  | answer (id : Nat) (outcome : HttpOutcome) (now : ℚ)
  | resume (id : Nat) (now : ℚ)
  | cancel (id : Nat)

/-! ### Counters -/

namespace DexScreenerMetrics

def countCall (metrics : DexScreenerMetrics) : Endpoint → DexScreenerMetrics
  | .tokenPairs addresses =>
    { metrics with
      batchesRequested := metrics.batchesRequested + 1
      addressesRequested := metrics.addressesRequested + addresses }
  | .boostFeed => metrics

def countSent (metrics : DexScreenerMetrics) (waited : ℚ) : DexScreenerMetrics :=
  { metrics with
    rateLimiterWaitSeconds := metrics.rateLimiterWaitSeconds + waited
    httpRequestsStarted := metrics.httpRequestsStarted + 1 }

def countError (metrics : DexScreenerMetrics) : RequestError → DexScreenerMetrics
  | .http statusCode _ =>
    { metrics with
      httpRequestsThrottled :=
        metrics.httpRequestsThrottled + if statusCode = 429 then 1 else 0
      httpRequestsFailed := metrics.httpRequestsFailed + 1 }
  | .transport => { metrics with httpRequestsFailed := metrics.httpRequestsFailed + 1 }
  | .parse =>
    { metrics with
      parseFailures := metrics.parseFailures + 1
      httpRequestsFailed := metrics.httpRequestsFailed + 1 }
  | .other => metrics

def countRecords (metrics : DexScreenerMetrics) (records : Nat) :
    Endpoint → DexScreenerMetrics
  | .tokenPairs _ =>
    { metrics with
      httpRequestsSucceeded := metrics.httpRequestsSucceeded + 1
      pairsReturned := metrics.pairsReturned + records }
  | .boostFeed =>
    { metrics with httpRequestsSucceeded := metrics.httpRequestsSucceeded + 1 }

def countLatency (metrics : DexScreenerMetrics) (seconds : ℚ) : DexScreenerMetrics :=
  { metrics with requestLatencySeconds := metrics.requestLatencySeconds + seconds }

/-- `_record_retry`. -/
def recordRetry (metrics : DexScreenerMetrics) : DexScreenerMetrics :=
  { metrics with retries := metrics.retries + 1 }

/-- An attempt and, when another one follows, its retry. -/
def countResult (maxAttempts : Nat) (metrics : DexScreenerMetrics) (endpoint : Endpoint)
    (number : Nat) : Except RequestError Nat → DexScreenerMetrics
  | .ok records => metrics.countRecords records endpoint
  | .error error =>
    if error.isRetryable && number < maxAttempts then (metrics.countError error).recordRetry
    else metrics.countError error

end DexScreenerMetrics

/-! ### Steps -/

namespace ApiClient

def setCall (s : ApiClient) (id : Nat) (call : Call) : ApiClient :=
  { s with calls := Function.update s.calls id (some call) }

/-- `acquire` of the global limiter, up to its sleep. -/
def queue (s : ApiClient) (id : Nat) (endpoint : Endpoint) (number : Nat) (waited now : ℚ) :
    ApiClient :=
  { s.setCall id ⟨endpoint, number,
      .queued (s.rateLimiter.release now) (waited + s.rateLimiter.waitSeconds now)⟩ with
    rateLimiter := s.rateLimiter.acquire now
    reserved := s.reserved ++ [⟨id, number, s.rateLimiter.release now⟩] }

/-- `acquire` of the route limiter, up to its sleep. -/
def route (s : ApiClient) (id : Nat) (endpoint : Endpoint) (number : Nat) (now : ℚ) : ApiClient :=
  { s.setCall id ⟨endpoint, number,
      .routed (s.boostRateLimiter.release now) (s.boostRateLimiter.waitSeconds now)⟩ with
    boostRateLimiter := s.boostRateLimiter.acquire now }

/-- The request method of the endpoint, up to its first sleep. -/
def startAttempt (s : ApiClient) (id : Nat) (endpoint : Endpoint) (number : Nat) (now : ℚ) :
    ApiClient :=
  match endpoint with
  | .tokenPairs _ => s.queue id endpoint number 0 now
  | .boostFeed => s.route id endpoint number now

/-- The request goes out. -/
def send (s : ApiClient) (id : Nat) (endpoint : Endpoint) (number : Nat) (slot waited now : ℚ) :
    ApiClient :=
  { s.setCall id ⟨endpoint, number, .sent now⟩ with
    metrics := s.metrics.countSent waited
    sent := s.sent ++ [⟨⟨id, number, slot⟩, waited, now⟩] }

section Attempts
variable (maxAttempts : Nat) (backoff : ℚ)

/-- The retry loop after an attempt: the call is over, or sleeps before the next one. -/
def nextPhase (number : Nat) (now : ℚ) : Except RequestError Nat → Phase
  | .ok records => .ended (.returned records)
  | .error error =>
    if error.isRetryable && number < maxAttempts then
      .resting (now + error.retryWait backoff number)
    else .ended (.raised error)

/-- The request method returns or raises. -/
def receive (s : ApiClient) (id : Nat) (endpoint : Endpoint) (number : Nat) (sentAt : ℚ)
    (outcome : HttpOutcome) (now : ℚ) : ApiClient :=
  { s.setCall id ⟨endpoint, number, nextPhase maxAttempts backoff number now outcome.result⟩ with
    metrics := (s.metrics.countLatency (now - sentAt)).countResult maxAttempts endpoint number
      outcome.result
    answers := s.answers ++ [⟨id, number, endpoint, sentAt, now, outcome⟩] }

/-- What happens between two suspensions of one call. An action that is not due changes nothing. -/
def apiStep (s : ApiClient) : ApiAction → ApiClient
  | .fetch id endpoint now =>
    match s.calls id with
    | none =>
      { s with
        metrics := s.metrics.countCall endpoint
        begun := s.begun ++ [endpoint] }.startAttempt id endpoint 1 now
    | some _ => s
  | .wake id now =>
    match s.calls id with
    | some ⟨endpoint, number, .routed slot waited⟩ =>
      if slot ≤ now then s.queue id endpoint number waited now else s
    | some ⟨endpoint, number, .queued slot waited⟩ =>
      if slot ≤ now then s.send id endpoint number slot waited now else s
    | _ => s
  | .answer id outcome now =>
    match s.calls id with
    | some ⟨endpoint, number, .sent sentAt⟩ =>
      s.receive maxAttempts backoff id endpoint number sentAt outcome now
    | _ => s
  | .resume id now =>
    match s.calls id with
    | some ⟨endpoint, number, .resting resumesAt⟩ =>
      if resumesAt ≤ now then s.startAttempt id endpoint (number + 1) now else s
    | _ => s
  | .cancel id =>
    match s.calls id with
    | some ⟨_, _, .sent _⟩ | some ⟨_, _, .ended _⟩ | none => s
    | some ⟨endpoint, number, _⟩ => s.setCall id ⟨endpoint, number, .ended .cancelled⟩

end Attempts

end ApiClient

/-! ### The log -/

/-- The answer is followed by another attempt. -/
def Answer.isRetried (maxAttempts : Nat) (answer : Answer) : Bool :=
  match answer.outcome.result with
  | .ok _ => false
  | .error error => error.isRetryable && answer.number < maxAttempts

/-- The earliest time of the next attempt. -/
def Answer.retryAt (backoff : ℚ) (answer : Answer) : ℚ :=
  match answer.outcome.result with
  | .ok _ => answer.receivedAt
  | .error error => answer.receivedAt + error.retryWait backoff answer.number

def Answer.error? (answer : Answer) : Option RequestError :=
  match answer.outcome.result with
  | .ok _ => none
  | .error error => some error

def Answer.records (answer : Answer) : Nat :=
  match answer.outcome.result, answer.endpoint with
  | .ok records, .tokenPairs _ => records
  | _, _ => 0

def RequestError.isThrottled : RequestError → Bool
  | .http statusCode _ => statusCode = 429
  | _ => false

def Endpoint.addresses : Endpoint → Nat
  | .tokenPairs addresses => addresses
  | .boostFeed => 0

def Endpoint.isBatch : Endpoint → Bool
  | .tokenPairs _ => true
  | .boostFeed => false

/-- The counters that the log amounts to. -/
def tally (maxAttempts : Nat) (begun : List Endpoint) (sent : List SentRequest)
    (answers : List Answer) : DexScreenerMetrics where
  batchesRequested := begun.countP Endpoint.isBatch
  addressesRequested := (begun.map Endpoint.addresses).sum
  httpRequestsStarted := sent.length
  httpRequestsSucceeded := answers.countP fun answer => answer.error? = none
  httpRequestsFailed := answers.countP fun answer => answer.error?.any RequestError.isCounted
  httpRequestsThrottled := answers.countP fun answer => answer.error?.any RequestError.isThrottled
  retries := answers.countP (Answer.isRetried maxAttempts)
  parseFailures := answers.countP fun answer => answer.error? = some .parse
  pairsReturned := (answers.map Answer.records).sum
  rateLimiterWaitSeconds := (sent.map (·.waited)).sum
  requestLatencySeconds := (answers.map fun answer => answer.receivedAt - answer.sentAt).sum

section Tally
variable {maxAttempts : Nat} {begun : List Endpoint} {sent : List SentRequest}
  {answers : List Answer}

theorem tally_begun (endpoint : Endpoint) :
    tally maxAttempts (begun ++ [endpoint]) sent answers =
      (tally maxAttempts begun sent answers).countCall endpoint := by
  cases endpoint with
  | tokenPairs addresses =>
    simp [tally, DexScreenerMetrics.countCall, Endpoint.isBatch, Endpoint.addresses]
  | boostFeed => simp [tally, DexScreenerMetrics.countCall, Endpoint.isBatch, Endpoint.addresses]

theorem tally_sent (request : SentRequest) :
    tally maxAttempts begun (sent ++ [request]) answers =
      (tally maxAttempts begun sent answers).countSent request.waited := by
  simp [tally, DexScreenerMetrics.countSent]

theorem tally_answer (answer : Answer) :
    tally maxAttempts begun sent (answers ++ [answer]) =
      ((tally maxAttempts begun sent answers).countLatency
        (answer.receivedAt - answer.sentAt)).countResult maxAttempts answer.endpoint answer.number
          answer.outcome.result := by
  cases hresult : answer.outcome.result with
  | ok records =>
    cases hendpoint : answer.endpoint with
    | tokenPairs addresses =>
      simp [tally, DexScreenerMetrics.countResult, DexScreenerMetrics.countRecords,
        DexScreenerMetrics.countLatency, Answer.error?, Answer.isRetried, Answer.records, hresult,
        hendpoint]
    | boostFeed =>
      simp [tally, DexScreenerMetrics.countResult, DexScreenerMetrics.countRecords,
        DexScreenerMetrics.countLatency, Answer.error?, Answer.isRetried, Answer.records, hresult,
        hendpoint]
  | error error =>
    have hretried : answer.isRetried maxAttempts =
        (error.isRetryable && decide (answer.number < maxAttempts)) := by
      rw [Answer.isRetried, hresult]
    have herror : answer.error? = some error := by rw [Answer.error?, hresult]
    have hrecords : answer.records = 0 := by rw [Answer.records, hresult]
    rw [DexScreenerMetrics.countResult]
    cases hnext : error.isRetryable && decide (answer.number < maxAttempts) with
    | true =>
      rw [hnext] at hretried
      cases error <;>
        simp [tally, DexScreenerMetrics.countError, DexScreenerMetrics.recordRetry,
          DexScreenerMetrics.countLatency, herror, hretried, hrecords, RequestError.isCounted,
          RequestError.isThrottled, List.countP_append, List.countP_singleton]
    | false =>
      rw [hnext] at hretried
      cases error <;>
        simp [tally, DexScreenerMetrics.countError, DexScreenerMetrics.countLatency, herror,
          hretried, hrecords, RequestError.isCounted, RequestError.isThrottled,
          List.countP_append, List.countP_singleton]

end Tally

/-! ### The invariant -/

/-- The attempt of a call is its first, or the one before it failed and its wait is over. -/
def ApiClient.Due (maxAttempts : Nat) (backoff : ℚ) (s : ApiClient) (id number : Nat) (t : ℚ) :
    Prop :=
  number = 1 ∨ ∃ answer ∈ s.answers, answer.call = id ∧ answer.number + 1 = number ∧
    answer.isRetried maxAttempts = true ∧ answer.retryAt backoff ≤ t

/-- How many requests of a call are sent and answered. -/
def Phase.Counts (number sent answered : Nat) : Phase → Prop
  | .routed _ _ | .queued _ _ => sent + 1 = number ∧ answered = sent
  | .sent _ => sent = number ∧ answered + 1 = sent
  | .ended .cancelled => sent ≤ number ∧ answered = sent
  | .resting _ | .ended _ => sent = number ∧ answered = sent

/-- What a phase says about the log. -/
def Phase.Sound (maxAttempts : Nat) (backoff : ℚ) (s : ApiClient) (id number : Nat) : Phase → Prop
  | .routed slot _ => s.Due maxAttempts backoff id number slot
  | .queued slot _ => s.Due maxAttempts backoff id number slot ∧ ⟨id, number, slot⟩ ∈ s.reserved
  | .resting resumesAt =>
    number < maxAttempts ∧ s.Due maxAttempts backoff id (number + 1) resumesAt
  | .ended (.returned records) => ∃ answer ∈ s.answers, answer.call = id ∧ answer.number = number ∧
      answer.outcome.result = .ok records
  | .ended (.raised error) => ∃ answer ∈ s.answers, answer.call = id ∧ answer.number = number ∧
      answer.outcome.result = .error error ∧ (error.isRetryable = true → number = maxAttempts)
  | .sent _ | .ended .cancelled => True

/-- A call that has begun. -/
structure Call.Sound (maxAttempts : Nat) (backoff : ℚ) (s : ApiClient) (id : Nat) (call : Call) :
    Prop where
  positive : 1 ≤ call.number
  bounded : call.number ≤ maxAttempts
  counts : ∃ sent answered, call.phase.Counts call.number sent answered ∧
    (s.sent.filter fun request => request.call = id).map (·.number) = List.range' 1 sent ∧
    (s.answers.filter fun answer => answer.call = id).map (·.number) = List.range' 1 answered
  phase : call.phase.Sound maxAttempts backoff s id call.number

/-- A call that has not begun left nothing in the log. -/
def ApiClient.CallSound (maxAttempts : Nat) (backoff : ℚ) (s : ApiClient) (id : Nat) : Prop :=
  match s.calls id with
  | none => (s.sent.filter fun request => request.call = id) = [] ∧
      (s.answers.filter fun answer => answer.call = id) = []
  | some call => call.Sound maxAttempts backoff s id

/-- A step on behalf of a call: the log grows by entries of the call. -/
structure ApiClient.Grows (id : Nat) (s s' : ApiClient) : Prop where
  calls : ∀ other, other ≠ id → s'.calls other = s.calls other
  reserved : s.reserved ⊆ s'.reserved
  sent : ∃ added, s'.sent = s.sent ++ added ∧ ∀ request ∈ added, request.call = id
  answers : ∃ added, s'.answers = s.answers ++ added ∧ ∀ answer ∈ added, answer.call = id

section Growth
variable {maxAttempts : Nat} {backoff : ℚ} {s s' : ApiClient} {id : Nat}

theorem ApiClient.Grows.mem_answers (h : s.Grows id s') {answer : Answer}
    (hmem : answer ∈ s.answers) : answer ∈ s'.answers := by
  obtain ⟨added, heq, _⟩ := h.answers
  rw [heq]
  exact List.mem_append_left _ hmem

theorem ApiClient.Due.grows {call number : Nat} {t : ℚ}
    (hdue : s.Due maxAttempts backoff call number t) (h : s.Grows id s') :
    s'.Due maxAttempts backoff call number t := by
  cases hdue with
  | inl hfirst => exact .inl hfirst
  | inr hretry =>
    obtain ⟨answer, hmem, hanswer⟩ := hretry
    exact .inr ⟨answer, h.mem_answers hmem, hanswer⟩

theorem ApiClient.Due.mono {call number : Nat} {t u : ℚ}
    (hdue : s.Due maxAttempts backoff call number t) (h : t ≤ u) :
    s.Due maxAttempts backoff call number u := by
  cases hdue with
  | inl hfirst => exact .inl hfirst
  | inr hretry =>
    obtain ⟨answer, hmem, hcall, hnumber, hretried, hle⟩ := hretry
    exact .inr ⟨answer, hmem, hcall, hnumber, hretried, hle.trans h⟩

theorem Phase.Sound.grows {call number : Nat} {phase : Phase}
    (hphase : phase.Sound maxAttempts backoff s call number) (h : s.Grows id s') :
    phase.Sound maxAttempts backoff s' call number := by
  cases phase with
  | routed slot waited => exact ApiClient.Due.grows hphase h
  | queued slot waited => exact ⟨hphase.1.grows h, h.reserved hphase.2⟩
  | sent sentAt => trivial
  | resting resumesAt => exact ⟨hphase.1, hphase.2.grows h⟩
  | ended ending =>
    cases ending with
    | returned records =>
      obtain ⟨answer, hmem, hanswer⟩ := hphase
      exact ⟨answer, h.mem_answers hmem, hanswer⟩
    | raised error =>
      obtain ⟨answer, hmem, hanswer⟩ := hphase
      exact ⟨answer, h.mem_answers hmem, hanswer⟩
    | cancelled => trivial

/-- The entries of another call stay as they are. -/
theorem filter_other {α : Type} {call : α → Nat} {l l' added : List α} {other : Nat}
    (heq : l' = l ++ added) (hadded : ∀ a ∈ added, call a = id) (hne : other ≠ id) :
    (l'.filter fun a => call a = other) = l.filter fun a => call a = other := by
  have hnil : (added.filter fun a => call a = other) = [] := by
    rw [List.filter_eq_nil_iff]
    intro a ha hcall
    exact hne ((of_decide_eq_true hcall).symm.trans (hadded a ha))
  rw [heq, List.filter_append, hnil, List.append_nil]

/-- The next entry of a call. -/
theorem numbers_concat {α : Type} {call number : α → Nat} {l : List α} {a : α} {k : Nat}
    (h : (l.filter fun a => call a = id).map number = List.range' 1 k) (hcall : call a = id)
    (hnumber : number a = k + 1) :
    ((l ++ [a]).filter fun a => call a = id).map number = List.range' 1 (k + 1) := by
  have hown : ([a].filter fun a => call a = id) = [a] := List.filter_eq_self.mpr (by simpa using hcall)
  rw [List.filter_append, hown, List.map_append, h, List.range'_concat, List.map_singleton, hnumber,
    Nat.one_mul, Nat.add_comm]

theorem ApiClient.Grows.other (h : s.Grows id s') {other : Nat} (hne : other ≠ id)
    (hsound : s.CallSound maxAttempts backoff other) : s'.CallSound maxAttempts backoff other := by
  obtain ⟨_, hsent, hsentOwn⟩ := h.sent
  obtain ⟨_, hanswers, hanswersOwn⟩ := h.answers
  rw [ApiClient.CallSound, h.calls other hne, filter_other hsent hsentOwn hne,
    filter_other hanswers hanswersOwn hne]
  rw [ApiClient.CallSound] at hsound
  cases hcall : s.calls other with
  | none =>
    rw [hcall] at hsound
    exact hsound
  | some call =>
    rw [hcall] at hsound
    obtain ⟨hpositive, hbounded, hcounts, hphase⟩ := hsound
    refine ⟨hpositive, hbounded, ?_, hphase.grows h⟩
    rw [filter_other hsent hsentOwn hne, filter_other hanswers hanswersOwn hne]
    exact hcounts

end Growth

/-! ### Steps of one call -/

/-- A call may start its next attempt. -/
structure ApiClient.Ready (maxAttempts : Nat) (backoff : ℚ) (s : ApiClient) (id number : Nat)
    (t : ℚ) : Prop where
  positive : 1 ≤ number
  bounded : number ≤ maxAttempts
  due : s.Due maxAttempts backoff id number t
  counts : ∃ sent, sent + 1 = number ∧
    (s.sent.filter fun request => request.call = id).map (·.number) = List.range' 1 sent ∧
    (s.answers.filter fun answer => answer.call = id).map (·.number) = List.range' 1 sent

/-- The slots given by the global limiter are an interval apart. -/
structure ApiClient.Paced (interval : ℚ) (s : ApiClient) : Prop where
  interval_eq : s.rateLimiter.intervalSeconds = interval
  apart : (s.reserved.map (·.slot)).Pairwise fun a b => a + interval ≤ b
  slot_le : ∀ reservation ∈ s.reserved, reservation.slot + interval ≤ s.rateLimiter.nextPermittedAt

/-- A request goes out on its own slot, when its attempt is due. -/
def ApiClient.SentSound (maxAttempts : Nat) (backoff : ℚ) (s : ApiClient) : Prop :=
  ∀ request ∈ s.sent, request.toReservation ∈ s.reserved ∧ request.slot ≤ request.sentAt ∧
    s.Due maxAttempts backoff request.call request.number request.sentAt

structure ApiClient.Invariant (maxAttempts : Nat) (backoff interval : ℚ) (s : ApiClient) : Prop where
  calls : ∀ id, s.CallSound maxAttempts backoff id
  paced : s.Paced interval
  sent : s.SentSound maxAttempts backoff
  metrics : s.metrics = tally maxAttempts s.begun s.sent s.answers

section Primitives
variable {maxAttempts : Nat} {backoff interval : ℚ} {s s' : ApiClient} {id number : Nat}
  {endpoint : Endpoint} {t slot waited now sentAt : ℚ}

theorem ApiClient.SentSound.grows (h : s.SentSound maxAttempts backoff) (hgrows : s.Grows id s')
    (hsent : s'.sent = s.sent) : s'.SentSound maxAttempts backoff := by
  intro request hmem
  rw [hsent] at hmem
  obtain ⟨hreserved, hslot, hdue⟩ := h request hmem
  exact ⟨hgrows.reserved hreserved, hslot, hdue.grows hgrows⟩

/-- A step leaves every call sound when it leaves its own sound. -/
theorem ApiClient.Grows.calls_sound (h : s.Grows id s')
    (hcalls : ∀ other, s.CallSound maxAttempts backoff other)
    (hown : s'.CallSound maxAttempts backoff id) (other : Nat) :
    s'.CallSound maxAttempts backoff other := by
  by_cases hne : other = id
  · rw [hne]
    exact hown
  · exact h.other hne (hcalls other)

theorem ApiClient.grows_of_calls {call : Call}
    (hcalls : s'.calls = Function.update s.calls id (some call)) (hreserved : s.reserved ⊆ s'.reserved)
    (hsent : s'.sent = s.sent) (hanswers : s'.answers = s.answers) : s.Grows id s' where
  calls _ hne := by rw [hcalls, Function.update_of_ne hne]
  reserved := hreserved
  sent := ⟨[], by rw [hsent, List.append_nil], fun _ hmem => by cases hmem⟩
  answers := ⟨[], by rw [hanswers, List.append_nil], fun _ hmem => by cases hmem⟩

theorem ApiClient.grows_send : s.Grows id (s.send id endpoint number slot waited now) where
  calls _ hne := Function.update_of_ne hne _ _
  reserved := fun _ hmem => hmem
  sent := ⟨_, rfl, fun request hmem => by rw [List.mem_singleton.mp hmem]⟩
  answers := ⟨[], (List.append_nil _).symm, fun _ hmem => by cases hmem⟩

theorem ApiClient.grows_receive (outcome : HttpOutcome) :
    s.Grows id (s.receive maxAttempts backoff id endpoint number sentAt outcome now) where
  calls _ hne := Function.update_of_ne hne _ _
  reserved := fun _ hmem => hmem
  sent := ⟨[], (List.append_nil _).symm, fun _ hmem => by cases hmem⟩
  answers := ⟨_, rfl, fun answer hmem => by rw [List.mem_singleton.mp hmem]⟩

/-- The call of a step, when the step gives it a new record. -/
theorem ApiClient.callSound_of_update {call : Call}
    (hcall : s'.calls id = some call) (hsound : call.Sound maxAttempts backoff s' id) :
    s'.CallSound maxAttempts backoff id := by
  rw [ApiClient.CallSound, hcall]
  exact hsound

theorem ApiClient.Paced.queue (hpositive : 0 ≤ interval) (h : s.Paced interval) :
    (s.queue id endpoint number waited now).Paced interval := by
  have hnext := s.rateLimiter.nextPermittedAt_le_release now
  have hacquired : (s.rateLimiter.acquire now).nextPermittedAt =
      s.rateLimiter.release now + interval := by
    rw [AsyncRateLimiter.acquire_nextPermittedAt, h.interval_eq]
  refine ⟨h.interval_eq, ?_, ?_⟩
  · rw [ApiClient.queue, List.map_append, List.pairwise_append]
    refine ⟨h.apart, List.pairwise_singleton _ _, ?_⟩
    intro x hx y hy
    obtain ⟨reservation, hmem, rfl⟩ := List.mem_map.mp hx
    rw [List.map_singleton, List.mem_singleton] at hy
    rw [hy]
    exact (h.slot_le reservation hmem).trans hnext
  · intro reservation hmem
    show _ ≤ (s.rateLimiter.acquire now).nextPermittedAt
    rw [hacquired]
    cases List.mem_append.mp hmem with
    | inl hold =>
      have hle := h.slot_le reservation hold
      linarith
    | inr hnew => rw [List.mem_singleton.mp hnew]

theorem ApiClient.Invariant.queue (hpositive : 0 ≤ interval)
    (h : s.Invariant maxAttempts backoff interval)
    (hready : s.Ready maxAttempts backoff id number t) (ht : t ≤ now) :
    (s.queue id endpoint number waited now).Invariant maxAttempts backoff interval := by
  have hgrows : s.Grows id (s.queue id endpoint number waited now) :=
    ApiClient.grows_of_calls rfl (List.subset_append_left _ _) rfl rfl
  refine ⟨hgrows.calls_sound h.calls ?_, h.paced.queue hpositive, h.sent.grows hgrows rfl,
    h.metrics⟩
  refine ApiClient.callSound_of_update (Function.update_self _ _ _) ⟨hready.positive,
    hready.bounded, ?_, ?_, ?_⟩
  · obtain ⟨sent, hnumber, hsent, hanswers⟩ := hready.counts
    exact ⟨sent, sent, ⟨hnumber, rfl⟩, hsent, hanswers⟩
  · refine (hready.due.mono ?_).grows hgrows
    rw [AsyncRateLimiter.release_eq]
    exact ht.trans (le_max_left _ _)
  · exact List.mem_append_right _ (List.mem_singleton.mpr rfl)

theorem ApiClient.Invariant.route (h : s.Invariant maxAttempts backoff interval)
    (hready : s.Ready maxAttempts backoff id number t) (ht : t ≤ now) :
    (s.route id endpoint number now).Invariant maxAttempts backoff interval := by
  have hgrows : s.Grows id (s.route id endpoint number now) :=
    ApiClient.grows_of_calls rfl (List.Subset.refl _) rfl rfl
  refine ⟨hgrows.calls_sound h.calls ?_, ⟨h.paced.interval_eq, h.paced.apart, h.paced.slot_le⟩,
    h.sent.grows hgrows rfl, h.metrics⟩
  refine ApiClient.callSound_of_update (Function.update_self _ _ _) ⟨hready.positive,
    hready.bounded, ?_, ?_⟩
  · obtain ⟨sent, hnumber, hsent, hanswers⟩ := hready.counts
    exact ⟨sent, sent, ⟨hnumber, rfl⟩, hsent, hanswers⟩
  · refine (hready.due.mono ?_).grows hgrows
    rw [AsyncRateLimiter.release_eq]
    exact ht.trans (le_max_left _ _)

theorem ApiClient.Invariant.startAttempt (hpositive : 0 ≤ interval)
    (h : s.Invariant maxAttempts backoff interval)
    (hready : s.Ready maxAttempts backoff id number t) (ht : t ≤ now) :
    (s.startAttempt id endpoint number now).Invariant maxAttempts backoff interval := by
  cases endpoint with
  | tokenPairs addresses => exact h.queue hpositive hready ht
  | boostFeed => exact h.route hready ht

theorem ApiClient.CallSound.of_some {call : Call} (h : s.CallSound maxAttempts backoff id)
    (hcall : s.calls id = some call) : call.Sound maxAttempts backoff s id := by
  rw [ApiClient.CallSound, hcall] at h
  exact h

theorem ApiClient.Invariant.send (h : s.Invariant maxAttempts backoff interval)
    (hcall : s.calls id = some ⟨endpoint, number, .queued slot waited⟩) (hslot : slot ≤ now) :
    (s.send id endpoint number slot waited now).Invariant maxAttempts backoff interval := by
  obtain ⟨hpositive, hbounded, ⟨sent, answered, ⟨hnumber, hanswered⟩, hsent, hanswers⟩, hdue,
    hreserved⟩ := (h.calls id).of_some hcall
  have hgrows : s.Grows id (s.send id endpoint number slot waited now) := ApiClient.grows_send
  refine ⟨hgrows.calls_sound h.calls ?_, ⟨h.paced.interval_eq, h.paced.apart, h.paced.slot_le⟩,
    ?_, ?_⟩
  · refine ApiClient.callSound_of_update (Function.update_self _ _ _) ⟨hpositive, hbounded, ?_,
      trivial⟩
    exact ⟨sent + 1, answered, ⟨hnumber, by rw [hanswered]⟩,
      numbers_concat hsent rfl hnumber.symm, hanswers⟩
  · intro request hmem
    cases List.mem_append.mp hmem with
    | inl hold =>
      obtain ⟨hin, hle, hearlier⟩ := h.sent request hold
      exact ⟨hin, hle, hearlier.grows hgrows⟩
    | inr hnew =>
      rw [List.mem_singleton.mp hnew]
      exact ⟨hreserved, hslot, (hdue.mono hslot).grows hgrows⟩
  · show s.metrics.countSent waited = tally maxAttempts s.begun (s.sent ++ [_]) s.answers
    rw [h.metrics, tally_sent]

theorem ApiClient.Invariant.receive (h : s.Invariant maxAttempts backoff interval)
    (hcall : s.calls id = some ⟨endpoint, number, .sent sentAt⟩) (outcome : HttpOutcome) :
    (s.receive maxAttempts backoff id endpoint number sentAt outcome now).Invariant maxAttempts
      backoff interval := by
  obtain ⟨hpositive, hbounded, ⟨sent, answered, ⟨hnumber, hanswered⟩, hsent, hanswers⟩, _⟩ :=
    (h.calls id).of_some hcall
  have hgrows : s.Grows id (s.receive maxAttempts backoff id endpoint number sentAt outcome now) :=
    ApiClient.grows_receive outcome
  have hanswer : (⟨id, number, endpoint, sentAt, now, outcome⟩ : Answer) ∈
      (s.receive maxAttempts backoff id endpoint number sentAt outcome now).answers :=
    List.mem_append_right _ (List.mem_singleton.mpr rfl)
  have hphase : ((nextPhase maxAttempts backoff number now outcome.result).Counts number sent sent) ∧
      (nextPhase maxAttempts backoff number now outcome.result).Sound maxAttempts backoff
        (s.receive maxAttempts backoff id endpoint number sentAt outcome now) id number := by
    cases hresult : outcome.result with
    | ok records => exact ⟨⟨hnumber, rfl⟩, _, hanswer, rfl, rfl, hresult⟩
    | error error =>
      rw [nextPhase]
      split
      · next hnext =>
        obtain ⟨hretryable, hlt⟩ := Bool.and_eq_true_iff.mp hnext
        refine ⟨⟨hnumber, rfl⟩, of_decide_eq_true hlt, .inr ⟨_, hanswer, rfl, rfl, ?_, ?_⟩⟩
        · rw [Answer.isRetried, hresult]
          exact hnext
        · rw [Answer.retryAt, hresult]
      · next hlast =>
        refine ⟨⟨hnumber, rfl⟩, _, hanswer, rfl, rfl, hresult, fun hretryable => ?_⟩
        rw [hretryable, Bool.true_and, decide_eq_true_eq] at hlast
        exact le_antisymm hbounded (Nat.le_of_not_lt hlast)
  refine ⟨hgrows.calls_sound h.calls ?_, ⟨h.paced.interval_eq, h.paced.apart, h.paced.slot_le⟩,
    h.sent.grows hgrows rfl, ?_⟩
  · refine ApiClient.callSound_of_update (Function.update_self _ _ _) ⟨hpositive, hbounded,
      ⟨sent, sent, hphase.1, hsent, ?_⟩, hphase.2⟩
    rw [← hanswered]
    exact numbers_concat hanswers rfl (hnumber.symm.trans hanswered.symm)
  · show (s.metrics.countLatency _).countResult maxAttempts endpoint number outcome.result =
      tally maxAttempts s.begun s.sent (s.answers ++ [_])
    rw [h.metrics, tally_answer]

theorem ApiClient.Invariant.cancel (h : s.Invariant maxAttempts backoff interval) {phase : Phase}
    (hcall : s.calls id = some ⟨endpoint, number, phase⟩)
    (hphase : ∀ sent answered, phase.Counts number sent answered →
      sent ≤ number ∧ answered = sent) :
    (s.setCall id ⟨endpoint, number, .ended .cancelled⟩).Invariant maxAttempts backoff interval := by
  obtain ⟨hpositive, hbounded, ⟨sent, answered, hcounts, hsent, hanswers⟩, _⟩ :=
    (h.calls id).of_some hcall
  have hgrows : s.Grows id (s.setCall id ⟨endpoint, number, .ended .cancelled⟩) :=
    ApiClient.grows_of_calls rfl (List.Subset.refl _) rfl rfl
  refine ⟨hgrows.calls_sound h.calls ?_, ⟨h.paced.interval_eq, h.paced.apart, h.paced.slot_le⟩,
    h.sent.grows hgrows rfl, h.metrics⟩
  exact ApiClient.callSound_of_update (Function.update_self _ _ _) ⟨hpositive, hbounded,
    ⟨sent, answered, hphase sent answered hcounts, hsent, hanswers⟩, trivial⟩

/-- A step keeps the invariant. -/
theorem ApiClient.Invariant.step (hattempts : 1 ≤ maxAttempts) (hpositive : 0 ≤ interval)
    (h : s.Invariant maxAttempts backoff interval) (a : ApiAction) :
    (s.apiStep maxAttempts backoff a).Invariant maxAttempts backoff interval := by
  cases a with
  | fetch id endpoint now =>
    rw [apiStep]
    cases hcall : s.calls id with
    | some call => exact h
    | none =>
      have hnone := h.calls id
      rw [ApiClient.CallSound, hcall] at hnone
      have hbegun : ApiClient.Invariant maxAttempts backoff interval { s with
          metrics := s.metrics.countCall endpoint
          begun := s.begun ++ [endpoint] } := by
        have hgrows : s.Grows id { s with
            metrics := s.metrics.countCall endpoint
            begun := s.begun ++ [endpoint] } :=
          ⟨fun _ _ => rfl, List.Subset.refl _, ⟨[], (List.append_nil _).symm, by simp⟩,
            ⟨[], (List.append_nil _).symm, by simp⟩⟩
        refine ⟨hgrows.calls_sound h.calls ?_, ⟨h.paced.interval_eq, h.paced.apart,
          h.paced.slot_le⟩, h.sent.grows hgrows rfl, ?_⟩
        · rw [ApiClient.CallSound, hcall]
          exact hnone
        show s.metrics.countCall endpoint = tally maxAttempts (s.begun ++ [_]) s.sent s.answers
        rw [h.metrics, tally_begun]
      refine hbegun.startAttempt hpositive ⟨le_rfl, hattempts, .inl rfl, 0, rfl, ?_, ?_⟩ (le_refl now)
      · exact congrArg _ hnone.1
      · exact congrArg _ hnone.2
  | wake id now =>
    rw [apiStep]
    split
    · next endpoint number slot waited hcall =>
      split
      · next hslot =>
        obtain ⟨hfirst, hbounded, ⟨sent, answered, ⟨hnumber, hanswered⟩, hsent, hanswers⟩, hdue⟩ :=
          (h.calls id).of_some hcall
        rw [hanswered] at hanswers
        exact h.queue hpositive ⟨hfirst, hbounded, hdue, sent, hnumber, hsent, hanswers⟩ hslot
      · exact h
    · next endpoint number slot waited hcall =>
      split
      · next hslot => exact h.send hcall hslot
      · exact h
    · exact h
  | answer id outcome now =>
    rw [apiStep]
    split
    · next endpoint number sentAt hcall => exact h.receive hcall outcome
    · exact h
  | resume id now =>
    rw [apiStep]
    split
    · next endpoint number resumesAt hcall =>
      split
      · next hresumes =>
        obtain ⟨hfirst, hbounded, ⟨sent, answered, ⟨hnumber, hanswered⟩, hsent, hanswers⟩, hlt,
          hdue⟩ := (h.calls id).of_some hcall
        rw [hanswered] at hanswers
        exact h.startAttempt hpositive ⟨Nat.le_add_left _ _, hlt, hdue, sent,
          congrArg (· + 1) hnumber, hsent, hanswers⟩ hresumes
      · exact h
    · exact h
  | cancel id =>
    rw [apiStep]
    split
    · exact h
    · exact h
    · exact h
    · next endpoint number phase hsent hended hcall =>
      refine h.cancel hcall ?_
      intro sent answered hcounts
      cases phase with
      | routed slot waited => exact ⟨by have := hcounts.1; omega, hcounts.2⟩
      | queued slot waited => exact ⟨by have := hcounts.1; omega, hcounts.2⟩
      | sent sentAt => exact absurd rfl (hsent sentAt)
      | resting resumesAt => exact ⟨hcounts.1.le, hcounts.2⟩
      | ended ending => exact absurd rfl (hended ending)

end Primitives

/-! ### Runs -/

/-- What a client did so far: its requests keep the global rate, each call numbers its own, none
past its attempts, retries only what failed, after the wait, and reports how it ended, and the
counters are those of the log. -/
structure ApiClient.Accounted (requestsPerMinute : Int) (maxAttempts : Nat) (backoff : ℚ)
    (s : ApiClient) : Prop where
  paced : ∀ t, (inWindow 60 t (s.sent.map (·.slot)) : Int) ≤ requestsPerMinute
  on_slot : ∀ request ∈ s.sent, request.slot ≤ request.sentAt
  numbered : ∀ id, ∃ sent answered, sent ≤ maxAttempts ∧ answered ≤ sent ∧ sent ≤ answered + 1 ∧
    (s.sent.filter fun request => request.call = id).map (·.number) = List.range' 1 sent ∧
    (s.answers.filter fun answer => answer.call = id).map (·.number) = List.range' 1 answered
  retried : ∀ request ∈ s.sent, request.number = 1 ∨ ∃ answer ∈ s.answers,
    answer.call = request.call ∧ answer.number + 1 = request.number ∧
      answer.isRetried maxAttempts = true ∧ answer.retryAt backoff ≤ request.sentAt
  returned : ∀ id endpoint number records,
    s.calls id = some ⟨endpoint, number, .ended (.returned records)⟩ →
      ((s.sent.filter fun request => request.call = id).length = number ∧ ∃ answer ∈ s.answers,
        answer.call = id ∧ answer.number = number ∧ answer.outcome.result = .ok records)
  raised : ∀ id endpoint number error,
    s.calls id = some ⟨endpoint, number, .ended (.raised error)⟩ →
      ((s.sent.filter fun request => request.call = id).length = number ∧
        (error.isRetryable = true → number = maxAttempts) ∧ ∃ answer ∈ s.answers,
          answer.call = id ∧ answer.number = number ∧ answer.outcome.result = .error error)
  metrics : s.metrics = tally maxAttempts s.begun s.sent s.answers

section Runs
variable {maxAttempts : Nat} {backoff interval : ℚ} {s : ApiClient}

/-- Entries numbered call by call are distinct. -/
theorem nodup_of_numbers {α : Type} {call number : α → Nat} {l : List α}
    (h : ∀ id, ((l.filter fun a => call a = id).map number).Nodup) :
    l.Pairwise fun a b => (call a, number a) ≠ (call b, number b) := by
  induction l with
  | nil => exact .nil
  | cons a l ih =>
    refine List.pairwise_cons.mpr ⟨?_, ih fun id => ?_⟩
    · intro b hb heq
      have hown := h (call a)
      rw [List.filter_cons_of_pos (by simp), List.map_cons, List.nodup_cons] at hown
      obtain ⟨hcall, hnumber⟩ := Prod.mk.inj heq
      exact hown.1 (hnumber ▸ List.mem_map_of_mem
        (List.mem_filter.mpr ⟨hb, decide_eq_true hcall.symm⟩))
    · exact (h id).sublist (((List.sublist_cons_self a l).filter _).map _)

theorem Phase.Counts.bounds {phase : Phase} {number sent answered : Nat}
    (h : phase.Counts number sent answered) :
    sent ≤ number ∧ answered ≤ sent ∧ sent ≤ answered + 1 := by
  cases phase with
  | ended ending =>
    cases ending with
    | cancelled => exact ⟨h.1, h.2.le, by have := h.2; omega⟩
    | _ => exact ⟨h.1.le, h.2.le, by have := h.2; omega⟩
  | _ =>
    obtain ⟨hnumber, hanswered⟩ := h
    omega

theorem ApiClient.Invariant.numbered (h : s.Invariant maxAttempts backoff interval) (id : Nat) :
    ∃ sent answered, sent ≤ maxAttempts ∧ answered ≤ sent ∧ sent ≤ answered + 1 ∧
      (s.sent.filter fun request => request.call = id).map (·.number) = List.range' 1 sent ∧
      (s.answers.filter fun answer => answer.call = id).map (·.number) = List.range' 1 answered := by
  have hcall := h.calls id
  rw [ApiClient.CallSound] at hcall
  cases hfound : s.calls id with
  | none =>
    rw [hfound] at hcall
    exact ⟨0, 0, Nat.zero_le _, le_rfl, Nat.zero_le _, congrArg _ hcall.1, congrArg _ hcall.2⟩
  | some call =>
    rw [hfound] at hcall
    obtain ⟨sent, answered, hcounts, hsent, hanswers⟩ := hcall.counts
    obtain ⟨hle, hanswered, hsentLe⟩ := hcounts.bounds
    exact ⟨sent, answered, hle.trans hcall.bounded, hanswered, hsentLe, hsent, hanswers⟩

/-- No reservation is used twice. -/
theorem ApiClient.Invariant.requests_nodup (h : s.Invariant maxAttempts backoff interval) :
    (s.sent.map (·.toReservation)).Nodup := by
  have hnumbers (id : Nat) :
      ((s.sent.filter fun request => request.call = id).map (·.number)).Nodup := by
    obtain ⟨sent, _, _, _, _, hsent, _⟩ := h.numbered id
    rw [hsent]
    exact List.nodup_range'
  refine List.pairwise_map.mpr ((nodup_of_numbers hnumbers).imp ?_)
  intro a b hne heq
  exact hne (by rw [heq])

theorem ApiClient.Invariant.accounted {requestsPerMinute : Int} (hrate : 0 < requestsPerMinute)
    (h : s.Invariant maxAttempts backoff (60 / requestsPerMinute)) :
    s.Accounted requestsPerMinute maxAttempts backoff where
  paced t := by
    have hcast : (0 : ℚ) < requestsPerMinute := by exact_mod_cast hrate
    have hinterval : (0 : ℚ) < 60 / requestsPerMinute := by positivity
    have hsorted := h.paced.apart.imp fun hab => (le_add_of_nonneg_right hinterval.le).trans hab
    have hapart := apart_of_gap h.paced.apart requestsPerMinute.toNat hinterval.le
    rw [AsyncRateLimiter.interval_mul hrate] at hapart
    have hreserved := (forall_inWindow_le_iff (by norm_num) hsorted).mpr hapart t
    have hsubset : s.sent.map (·.toReservation) ⊆ s.reserved := by
      intro reservation hmem
      obtain ⟨request, hrequest, rfl⟩ := List.mem_map.mp hmem
      exact (h.sent request hrequest).1
    have hsubperm := (List.subperm_of_subset h.requests_nodup hsubset).countP_le
      ((fun x => t ≤ x && x < t + 60) ∘ Reservation.slot)
    have hle : inWindow 60 t (s.sent.map (·.slot)) ≤ inWindow 60 t (s.reserved.map (·.slot)) := by
      rw [List.countP_map] at hsubperm
      rw [inWindow, inWindow, List.countP_map, List.countP_map]
      exact hsubperm
    omega
  on_slot request hmem := (h.sent request hmem).2.1
  numbered := h.numbered
  retried request hmem := (h.sent request hmem).2.2
  returned id endpoint number records hcall := by
    obtain ⟨_, _, ⟨sent, answered, ⟨hnumber, _⟩, hsent, _⟩, hanswer⟩ := (h.calls id).of_some hcall
    refine ⟨?_, hanswer⟩
    rw [← List.length_map, hsent, List.length_range']
    exact hnumber
  raised id endpoint number error hcall := by
    obtain ⟨_, _, ⟨sent, answered, ⟨hnumber, _⟩, hsent, _⟩, answer, hmem, hown, hlast, hresult,
      hretryable⟩ := (h.calls id).of_some hcall
    refine ⟨?_, hretryable, answer, hmem, hown, hlast, hresult⟩
    rw [← List.length_map, hsent, List.length_range']
    exact hnumber
  metrics := h.metrics

end Runs

end PumpResearch.MarketData
