import PumpResearch.Discovery.PumpPortalMessage

/-! The push source: a reader that turns a reconnecting stream into a queue of envelopes, and the
batches that one coordinator fetches from it and acknowledges. -/
namespace PumpResearch.Discovery
open Utf8 PythonJson

/-! ### Envelopes and batches -/

/-- `DiscoveryConnectivityEvent`. -/
structure DiscoveryConnectivityEvent where
  sourceName : Text
  gapId : Text
  eventType : DiscoveryConnectivityEventType
  observedAt : Int
  reason : Text
  detail : List (Text × JsonValue)
  idempotencyKey : HexDigest

inductive Envelope where
  | token (event : DiscoveredToken)
  | connectivity (event : DiscoveryConnectivityEvent)
  | failure (message : String)
  | rejected (event : RejectedDiscoveryMessage)

/-- `DiscoveryBatch`. Two batches are the same object when they have the same `id`. -/
structure DiscoveryBatch where
  id : Nat
  events : List DiscoveredToken
  connectivityEvents : List DiscoveryConnectivityEvent
  rejectedMessages : List RejectedDiscoveryMessage
  receivedAt : Int

structure Reader where
  started : Bool
  stopped : Bool
  connected : Bool
  attempt : Nat
  openGapId : Option Text

/-- `PumpPortalDiscoverySource`, with whether a fetch is suspended on the empty queue, and the
number of batches it has made. -/
structure PushSource where
  queue : List Envelope
  deferred : List Envelope
  unacknowledged : Option DiscoveryBatch
  waiting : Bool
  batches : Nat
  reader : Reader

/-! ### Fetching -/

/-- `_next_envelope_nowait`. -/
def nextEnvelopeNowait (source : PushSource) : Option (Envelope × PushSource) :=
  match source.deferred with
  | envelope :: deferred => some (envelope, { source with deferred })
  | [] =>
    match source.queue with
    | envelope :: queue => some (envelope, { source with queue })
    | [] => none

/-- At most this many envelopes that are there. -/
def takeEnvelopes : Nat → PushSource → List Envelope × PushSource
  | 0, source => ([], source)
  | n + 1, source =>
    match nextEnvelopeNowait source with
    | none => ([], source)
    | some (envelope, source) =>
      let (envelopes, source) := takeEnvelopes n source
      (envelope :: envelopes, source)

/-- What a fetch has sorted so far. -/
structure Sorted where
  events : List DiscoveredToken
  connectivityEvents : List DiscoveryConnectivityEvent
  rejectedMessages : List RejectedDiscoveryMessage

def Sorted.isEmpty (sorted : Sorted) : Bool :=
  sorted.events.isEmpty && sorted.connectivityEvents.isEmpty && sorted.rejectedMessages.isEmpty

/-- `deque.extendleft`. -/
def extendLeft (deferred envelopes : List Envelope) : List Envelope :=
  envelopes.foldl (fun deferred envelope => envelope :: deferred) deferred

inductive Fetched where
  | batch (sorted : Sorted) (deferred : List Envelope)
  | raised (message : String) (deferred : List Envelope)

/-- The loop over the envelopes. A failure ends the batch before it, or is raised. -/
def sortEnvelopes (deferred : List Envelope) : Sorted → List Envelope → Fetched
  | sorted, [] => .batch sorted deferred
  | sorted, .failure message :: rest =>
    if sorted.isEmpty then .raised message (extendLeft deferred rest.reverse)
    else .batch sorted (extendLeft deferred (.failure message :: rest).reverse)
  | sorted, .token event :: rest =>
    sortEnvelopes deferred { sorted with events := sorted.events ++ [event] } rest
  | sorted, .rejected event :: rest =>
    sortEnvelopes deferred
      { sorted with rejectedMessages := sorted.rejectedMessages ++ [event] } rest
  | sorted, .connectivity event :: rest =>
    sortEnvelopes deferred
      { sorted with connectivityEvents := sorted.connectivityEvents ++ [event] } rest

/-- What a call leaves behind, and the failure it raises. -/
structure Settled where
  source : PushSource
  raised : Option String

/-- `fetch`, once it has its first envelope. -/
def finishFetch (batchSize : Nat) (receivedAt : Int) (first : Envelope) (source : PushSource) :
    Settled :=
  let (envelopes, source) := takeEnvelopes (batchSize - 1) source
  match sortEnvelopes source.deferred ⟨[], [], []⟩ (first :: envelopes) with
  | .raised message deferred => ⟨{ source with deferred }, some message⟩
  | .batch sorted deferred =>
    let batch : DiscoveryBatch := ⟨source.batches, sorted.events, sorted.connectivityEvents,
      sorted.rejectedMessages, receivedAt⟩
    ⟨{ source with
      deferred
      batches := source.batches + 1
      unacknowledged := if sorted.isEmpty then source.unacknowledged else some batch }, none⟩

/-- A call of `fetch` by the coordinator. A pending batch is returned again, a stopped reader
raises, and without an envelope the call is suspended. -/
def startFetch (batchSize : Nat) (receivedAt : Int) (source : PushSource) : Settled :=
  if source.waiting then ⟨source, none⟩
  else if source.unacknowledged.isSome then ⟨source, none⟩
  else if source.reader.stopped then ⟨source, none⟩
  else
    let source := { source with reader := { source.reader with started := true } }
    match source.deferred with
    | first :: deferred => finishFetch batchSize receivedAt first { source with deferred }
    | [] => ⟨{ source with waiting := true }, none⟩

/-- The suspended call goes on with an envelope, or its time is over: it returns an empty batch or
raises that the reader has stopped. -/
def resumeFetch (batchSize : Nat) (receivedAt : Int) (timedOut : Bool) (source : PushSource) :
    Settled :=
  if ¬ source.waiting then ⟨source, none⟩
  else if timedOut then ⟨{ source with waiting := false, batches := source.batches + 1 }, none⟩
  else
    match source.queue with
    | [] => ⟨source, none⟩
    | first :: queue =>
      finishFetch batchSize receivedAt first { source with queue, waiting := false }

/-- `acknowledge`. Another batch than the pending one is refused. -/
def acknowledge (id : Nat) (source : PushSource) : PushSource × Option DiscoveryBatch :=
  match source.unacknowledged with
  | none => (source, none)
  | some pending =>
    if pending.id ≠ id then (source, none)
    else ({ source with unacknowledged := none }, some pending)

/-! ### Reading -/

/-- `_put_connectivity_event`, the event. -/
def connectivityEvent (py : Python) (gapId : Text) (eventType : DiscoveryConnectivityEventType)
    (reason : Text) (detail : List (Text × JsonValue)) (observedAt : Int) :
    DiscoveryConnectivityEvent where
  sourceName := sourceName
  gapId := gapId
  eventType := eventType
  observedAt := observedAt
  reason := reason
  detail := detail
  idempotencyKey := py.sha256 (encode (sourceName ++ text ":" ++ gapId ++ text ":" ++
    match eventType with
    | .disconnected => text "disconnected"
    | .reconnected => text "reconnected"))

/-- What one message makes the reader put on the queue, or the exception that leaves the
connection. -/
def receive (py : Python) (raw : RawMessage) (receivedAt : Int) :
    Except PythonError (Option Envelope) :=
  match parseNewTokenMessage py raw receivedAt with
  | .ok none => .ok none
  | .ok (some event) => .ok (some (.token event))
  | .error (.unsafePayload event) => .ok (some (.rejected event))
  | .error (.response message) => .ok (some (.failure message))
  | .error (.escaped error) => .error error

def PythonError.typeName : PythonError → Text
  | .recursionError => text "RecursionError"
  | .valueError _ => text "ValueError"
  | .overflowError => text "OverflowError"
  | .unicodeEncodeError => text "UnicodeEncodeError"

/-! ### The source and its history -/

/-- The source with what was put on its queue, acknowledged and raised, and the gaps drawn. -/
structure PushState where
  source : PushSource
  enqueued : List Envelope
  acknowledged : List DiscoveryBatch
  raised : List String
  gaps : List Text

def emptyPush : PushState :=
  ⟨⟨[], [], none, false, 0, ⟨false, false, false, 0, none⟩⟩, [], [], [], []⟩

section Steps
variable (py : Python) (batchSize capacity : Nat)

def PushState.settle (s : PushState) (result : Settled) : PushState :=
  { s with source := result.source, raised := s.raised ++ result.raised.toList }

/-- `put`. On a full queue the reader waits, so its step is yet to come. -/
def PushState.put (s : PushState) (envelope : Envelope) (reader : Reader) (gaps : List Text) :
    PushState :=
  if s.source.queue.length < capacity then
    { s with
      source := { s.source with queue := s.source.queue ++ [envelope], reader }
      enqueued := s.enqueued ++ [envelope]
      gaps }
  else s

/-- The reader runs: its task was started and has not stopped. -/
def PushState.reads (s : PushState) : Bool := s.source.reader.started && !s.source.reader.stopped

def PushState.setReader (s : PushState) (reader : Reader) : PushState :=
  { s with source := { s.source with reader } }

/-- What the reader notes of an exception: the identifier it would draw for a gap, the message of
the exception and the clock. -/
structure Loss where
  gapId : Text
  message : Text
  observedAt : Int

/-- A connection is lost, or an attempt to connect fails. The first one of a gap is recorded under
an identifier that has not been drawn before. -/
def disconnect (reason : Text) (loss : Loss) (s : PushState) : PushState :=
  let reader := s.source.reader
  match reader.openGapId with
  | some _ => s.setReader { reader with connected := false, attempt := reader.attempt + 1 }
  | none =>
    if loss.gapId ∈ s.gaps then s
    else
      s.put capacity
        (.connectivity (connectivityEvent py loss.gapId .disconnected reason
          [(text "message", .str (loss.message.take 1000))] loss.observedAt))
        { reader with
          connected := false, attempt := reader.attempt + 1, openGapId := some loss.gapId }
        (s.gaps ++ [loss.gapId])

/-- A connection is established and subscribed. An open gap ends. -/
def connect (observedAt : Int) (s : PushState) : PushState :=
  let reader := s.source.reader
  let connected := { reader with connected := true, attempt := 0, openGapId := none }
  match reader.openGapId with
  | none => s.setReader connected
  | some gapId =>
    s.put capacity
      (.connectivity (connectivityEvent py gapId .reconnected
        (text "subscription_reestablished")
        [(text "failed_connection_attempts", .int reader.attempt)] observedAt))
      connected s.gaps

/-- A message arrives on the connection. -/
def readMessage (raw : RawMessage) (receivedAt : Int) (loss : Loss) (s : PushState) : PushState :=
  match receive py raw receivedAt with
  | .ok none => s
  | .ok (some envelope) => s.put capacity envelope s.source.reader s.gaps
  | .error error => disconnect py capacity error.typeName loss s

inductive PushAction where
  | fetch (receivedAt : Int)
  | resume (receivedAt : Int) (timedOut : Bool)
  | persistFails
  | acknowledge (id : Nat)
  | connect (observedAt : Int)
  | message (raw : RawMessage) (receivedAt : Int) (loss : Loss)
  | disconnect (reason : Text) (loss : Loss)
  | readerStops

/-- One step of the coordinator or of the reader. A failed transaction leaves the source alone. -/
def pushStep (s : PushState) : PushAction → PushState
  | .fetch receivedAt => s.settle (startFetch batchSize receivedAt s.source)
  | .resume receivedAt timedOut => s.settle (resumeFetch batchSize receivedAt timedOut s.source)
  | .persistFails => s
  | .acknowledge id =>
    let (source, released) := acknowledge id s.source
    { s with source, acknowledged := s.acknowledged ++ released.toList }
  | .connect observedAt =>
    if s.reads && !s.source.reader.connected then connect py capacity observedAt s else s
  | .message raw receivedAt loss =>
    if s.reads && s.source.reader.connected then readMessage py capacity raw receivedAt loss s
    else s
  | .disconnect reason loss => if s.reads then disconnect py capacity reason loss s else s
  | .readerStops => s.setReader { s.source.reader with stopped := true }

end Steps

end PumpResearch.Discovery
