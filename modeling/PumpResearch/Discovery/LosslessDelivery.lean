import PumpResearch.Discovery.PushSource
import PumpResearch.Library.Runs

/-! What is put on the queue is in an acknowledged batch, in the pending one, or still to be
fetched, in the order in which it was put there; and the gaps of the stream are recorded in pairs. -/
namespace PumpResearch.Discovery
open Utf8 Runs

/-! ### The property -/

def Envelope.token? : Envelope → Option DiscoveredToken
  | .token event => some event
  | _ => none

def Envelope.connectivity? : Envelope → Option DiscoveryConnectivityEvent
  | .connectivity event => some event
  | _ => none

def Envelope.rejected? : Envelope → Option RejectedDiscoveryMessage
  | .rejected event => some event
  | _ => none

def Envelope.failure? : Envelope → Option String
  | .failure message => some message
  | _ => none

/-- The envelopes that are still to be fetched. -/
def PushSource.remaining (source : PushSource) : List Envelope := source.deferred ++ source.queue

/-- One kind of envelope is delivered once and in order: those of the acknowledged batches, then
those of the pending batch, then those to be fetched. -/
def InOrder {α : Type} (s : PushState) (items : DiscoveryBatch → List α)
    (kind : Envelope → Option α) : Prop :=
  s.acknowledged.flatMap items ++ s.source.unacknowledged.toList.flatMap items ++
    s.source.remaining.filterMap kind = s.enqueued.filterMap kind

/-- The events of the closed gaps and of the open one. -/
def gapEvents (closed : List Text) (openGapId : Option Text) :
    List (DiscoveryConnectivityEventType × Text) :=
  closed.flatMap (fun gapId => [(.disconnected, gapId), (.reconnected, gapId)]) ++
    openGapId.toList.map fun gapId => (.disconnected, gapId)

/-- Nothing is lost, repeated or reordered before it is acknowledged. -/
structure Lossless (s : PushState) : Prop where
  tokens : InOrder s (·.events) Envelope.token?
  connectivity : InOrder s (·.connectivityEvents) Envelope.connectivity?
  rejected : InOrder s (·.rejectedMessages) Envelope.rejected?
  failures : s.raised ++ s.source.remaining.filterMap Envelope.failure? =
    s.enqueued.filterMap Envelope.failure?
  gaps : ∃ closed openGapId, (closed ++ openGapId.toList).Nodup ∧
    (s.enqueued.filterMap Envelope.connectivity?).map (fun event => (event.eventType, event.gapId)) =
      gapEvents closed openGapId

/-! ### Fetching -/

theorem extendLeft_reverse (deferred envelopes : List Envelope) :
    extendLeft deferred envelopes.reverse = envelopes ++ deferred := by
  have hfold : ∀ xs : List Envelope, extendLeft deferred xs = xs.reverse ++ deferred := by
    intro xs
    unfold extendLeft
    induction xs generalizing deferred with
    | nil => rfl
    | cons x xs ih => simp [ih]
  rw [hfold, List.reverse_reverse]

/-- Taking envelopes takes them off the front of what remains, and changes nothing else. -/
theorem takeEnvelopes_eq (n : Nat) (source : PushSource) :
    (takeEnvelopes n source).1 ++ (takeEnvelopes n source).2.remaining = source.remaining ∧
      (takeEnvelopes n source).2 = { source with
        queue := (takeEnvelopes n source).2.queue
        deferred := (takeEnvelopes n source).2.deferred } := by
  induction n generalizing source with
  | zero => exact ⟨rfl, rfl⟩
  | succ n ih =>
    obtain ⟨queue, deferred, unacknowledged, waiting, batches, reader⟩ := source
    cases deferred with
    | cons envelope deferred =>
      obtain ⟨hremaining, hsame⟩ := ih ⟨queue, deferred, unacknowledged, waiting, batches, reader⟩
      simp only [takeEnvelopes, nextEnvelopeNowait]
      refine ⟨?_, ?_⟩
      · simp only [List.cons_append, hremaining]
        rfl
      · rw [hsame]
    | nil =>
      cases queue with
      | nil => exact ⟨rfl, rfl⟩
      | cons envelope queue =>
        obtain ⟨hremaining, hsame⟩ := ih ⟨queue, [], unacknowledged, waiting, batches, reader⟩
        simp only [takeEnvelopes, nextEnvelopeNowait]
        refine ⟨?_, ?_⟩
        · simp only [List.cons_append, hremaining]
          rfl
        · rw [hsame]

/-- What was sorted is the three kinds of these envelopes. -/
structure Sorts (sorted : Sorted) (kept : List Envelope) : Prop where
  events : sorted.events = kept.filterMap Envelope.token?
  connectivityEvents : sorted.connectivityEvents = kept.filterMap Envelope.connectivity?
  rejectedMessages : sorted.rejectedMessages = kept.filterMap Envelope.rejected?
  noFailure : kept.filterMap Envelope.failure? = []
  isEmpty_iff : sorted.isEmpty = true ↔ kept = []

theorem Sorts.token {sorted : Sorted} {kept : List Envelope} (h : Sorts sorted kept)
    (event : DiscoveredToken) :
    Sorts { sorted with events := sorted.events ++ [event] } (kept ++ [.token event]) where
  events := by simp [h.events, Envelope.token?]
  connectivityEvents := by simp [h.connectivityEvents, Envelope.connectivity?]
  rejectedMessages := by simp [h.rejectedMessages, Envelope.rejected?]
  noFailure := by simp [h.noFailure, Envelope.failure?]
  isEmpty_iff := by simp [Sorted.isEmpty]

theorem Sorts.connectivity {sorted : Sorted} {kept : List Envelope} (h : Sorts sorted kept)
    (event : DiscoveryConnectivityEvent) :
    Sorts { sorted with connectivityEvents := sorted.connectivityEvents ++ [event] }
      (kept ++ [.connectivity event]) where
  events := by simp [h.events, Envelope.token?]
  connectivityEvents := by simp [h.connectivityEvents, Envelope.connectivity?]
  rejectedMessages := by simp [h.rejectedMessages, Envelope.rejected?]
  noFailure := by simp [h.noFailure, Envelope.failure?]
  isEmpty_iff := by simp [Sorted.isEmpty]

theorem Sorts.rejected {sorted : Sorted} {kept : List Envelope} (h : Sorts sorted kept)
    (event : RejectedDiscoveryMessage) :
    Sorts { sorted with rejectedMessages := sorted.rejectedMessages ++ [event] }
      (kept ++ [.rejected event]) where
  events := by simp [h.events, Envelope.token?]
  connectivityEvents := by simp [h.connectivityEvents, Envelope.connectivity?]
  rejectedMessages := by simp [h.rejectedMessages, Envelope.rejected?]
  noFailure := by simp [h.noFailure, Envelope.failure?]
  isEmpty_iff := by simp [Sorted.isEmpty]

theorem sorts_nil : Sorts ⟨[], [], []⟩ [] where
  events := rfl
  connectivityEvents := rfl
  rejectedMessages := rfl
  noFailure := rfl
  isEmpty_iff := by simp [Sorted.isEmpty]

/-- What sorting does: the envelopes are split into those of the batch and those that are put
back, or the first one is a failure that is raised. -/
def SortCases (deferred kept envelopes : List Envelope) (fetched : Fetched) : Prop :=
  (∃ sorted kept' rest, fetched = .batch sorted (rest ++ deferred) ∧ Sorts sorted kept' ∧
    kept' ++ rest = kept ++ envelopes ∧ (kept' = [] → kept ++ envelopes = [])) ∨
  ∃ message rest, kept = [] ∧ envelopes = .failure message :: rest ∧
    fetched = .raised message (rest ++ deferred)

theorem SortCases.snoc {deferred kept envelopes : List Envelope} {envelope : Envelope}
    {fetched : Fetched} (h : SortCases deferred (kept ++ [envelope]) envelopes fetched) :
    SortCases deferred kept (envelope :: envelopes) fetched := by
  cases h with
  | inl hbatch =>
    obtain ⟨sorted, kept', rest, hfetched, hsorts, happend, hnil⟩ := hbatch
    have hassoc : kept ++ [envelope] ++ envelopes = kept ++ envelope :: envelopes := by simp
    rw [hassoc] at happend hnil
    exact .inl ⟨sorted, kept', rest, hfetched, hsorts, happend, hnil⟩
  | inr hraised =>
    obtain ⟨_, _, hnil, _⟩ := hraised
    simp at hnil

theorem sortEnvelopes_cases (deferred : List Envelope) {sorted : Sorted} {kept : List Envelope}
    (h : Sorts sorted kept) (envelopes : List Envelope) :
    SortCases deferred kept envelopes (sortEnvelopes deferred sorted envelopes) := by
  induction envelopes generalizing sorted kept with
  | nil => exact .inl ⟨sorted, kept, [], rfl, h, rfl, fun hnil => by simp [hnil]⟩
  | cons envelope rest ih =>
    cases envelope with
    | token event => exact (ih (h.token event)).snoc
    | connectivity event => exact (ih (h.connectivity event)).snoc
    | rejected event => exact (ih (h.rejected event)).snoc
    | failure message =>
      simp only [sortEnvelopes, extendLeft_reverse]
      split
      · next hempty => exact .inr ⟨message, rest, h.isEmpty_iff.mp hempty, rfl, rfl⟩
      · next hempty =>
        exact .inl ⟨sorted, kept, .failure message :: rest, rfl, h, rfl,
          fun hnil => absurd (h.isEmpty_iff.mpr hnil) hempty⟩

/-! ### What a step changes -/

/-- A fetch that gets an envelope: it moves envelopes to a pending batch, or raises one. -/
inductive FetchCases (source : PushSource) (settled : Settled) : Prop where
  | batched {batch : DiscoveryBatch} {kept : List Envelope} (hraised : settled.raised = none)
      (hpending : settled.source.unacknowledged = some batch)
      (hevents : batch.events = kept.filterMap Envelope.token?)
      (hconnectivity : batch.connectivityEvents = kept.filterMap Envelope.connectivity?)
      (hrejected : batch.rejectedMessages = kept.filterMap Envelope.rejected?)
      (hfailure : kept.filterMap Envelope.failure? = [])
      (hremaining : kept ++ settled.source.remaining = source.remaining)
  | raised {message : String} (hraised : settled.raised = some message)
      (hpending : settled.source.unacknowledged = source.unacknowledged)
      (hremaining : .failure message :: settled.source.remaining = source.remaining)

theorem finishFetch_cases (batchSize : Nat) (receivedAt : Int) (first : Envelope)
    (source before : PushSource) (hbefore : before.remaining = first :: source.remaining)
    (hpending : source.unacknowledged = before.unacknowledged) :
    FetchCases before (finishFetch batchSize receivedAt first source) ∧
      (finishFetch batchSize receivedAt first source).source.waiting = source.waiting ∧
      (finishFetch batchSize receivedAt first source).source.reader = source.reader := by
  obtain ⟨htaken, hsame⟩ := takeEnvelopes_eq (batchSize - 1) source
  unfold finishFetch
  generalize takeEnvelopes (batchSize - 1) source = taken at htaken hsame
  obtain ⟨envelopes, after⟩ := taken
  simp only at htaken hsame
  have hall : before.remaining = first :: (envelopes ++ after.remaining) := by
    rw [hbefore, ← htaken]
  have hunacknowledged : after.unacknowledged = before.unacknowledged := by
    rw [hsame, ← hpending]
  cases sortEnvelopes_cases after.deferred sorts_nil (first :: envelopes) with
  | inl hbatch =>
    obtain ⟨sorted, kept, rest, hfetched, hsorts, happend, hnil⟩ := hbatch
    have hnonempty : sorted.isEmpty = false := by
      rw [← Bool.not_eq_true, hsorts.isEmpty_iff]
      intro hkept
      cases hnil hkept
    simp only [hfetched, hnonempty, Bool.false_eq_true, if_false]
    refine ⟨.batched rfl rfl hsorts.events hsorts.connectivityEvents hsorts.rejectedMessages
      hsorts.noFailure ?_, by rw [hsame], by rw [hsame]⟩
    rw [hall, ← List.cons_append, ← List.nil_append (first :: envelopes), ← happend]
    simp [PushSource.remaining]
  | inr hraised =>
    obtain ⟨message, rest, _, henvelopes, hfetched⟩ := hraised
    simp only [hfetched]
    refine ⟨.raised rfl hunacknowledged ?_, by rw [hsame], by rw [hsame]⟩
    rw [hall, ← List.cons_append, henvelopes]
    simp [PushSource.remaining]

/-! ### The invariant -/

/-- The connectivity events on record, as type and gap. -/
def recordedGaps (enqueued : List Envelope) : List (DiscoveryConnectivityEventType × Text) :=
  (enqueued.filterMap Envelope.connectivity?).map fun event => (event.eventType, event.gapId)

/-- What holds between any two steps. -/
structure PushInvariant (s : PushState) : Prop where
  tokens : InOrder s (·.events) Envelope.token?
  connectivity : InOrder s (·.connectivityEvents) Envelope.connectivity?
  rejected : InOrder s (·.rejectedMessages) Envelope.rejected?
  failures : s.raised ++ s.source.remaining.filterMap Envelope.failure? =
    s.enqueued.filterMap Envelope.failure?
  suspended : s.source.waiting = true →
    s.source.unacknowledged = none ∧ s.source.deferred = []
  drawn : s.gaps.Nodup
  gaps : ∃ closed, s.gaps = closed ++ s.source.reader.openGapId.toList ∧
    recordedGaps s.enqueued = gapEvents closed s.source.reader.openGapId

theorem PushInvariant.lossless {s : PushState} (h : PushInvariant s) : Lossless s := by
  obtain ⟨closed, hgaps, hrecorded⟩ := h.gaps
  exact ⟨h.tokens, h.connectivity, h.rejected, h.failures, closed, _, hgaps ▸ h.drawn, hrecorded⟩

section Steps
variable {py : Python} {batchSize capacity : Nat} {s : PushState}

/-- A kind of envelope stays in order when a fetch makes a batch or raises. -/
theorem InOrder.settle {α : Type} {items : DiscoveryBatch → List α} {kind : Envelope → Option α}
    (h : InOrder s items kind) (hpending : s.source.unacknowledged = none) {settled : Settled}
    (hcases : FetchCases s.source settled)
    (hitems : ∀ batch : DiscoveryBatch, ∀ kept : List Envelope,
      batch.events = kept.filterMap Envelope.token? →
      batch.connectivityEvents = kept.filterMap Envelope.connectivity? →
      batch.rejectedMessages = kept.filterMap Envelope.rejected? →
      items batch = kept.filterMap kind)
    (hfailure : ∀ message, kind (.failure message) = none) :
    InOrder (s.settle settled) items kind := by
  unfold InOrder at h ⊢
  rw [hpending] at h
  cases hcases with
  | batched _ hbatch hevents hconnectivity hrejected _ hremaining =>
    rw [← hremaining] at h
    simpa [PushState.settle, hbatch, hitems _ _ hevents hconnectivity hrejected] using h
  | raised _ hsame hremaining =>
    rw [← hremaining] at h
    simpa [PushState.settle, hsame, hpending, hfailure] using h

theorem invariant_settle (h : PushInvariant s) (hpending : s.source.unacknowledged = none)
    {settled : Settled} (hcases : FetchCases s.source settled)
    (hwaiting : settled.source.waiting = false)
    (hreader : settled.source.reader.openGapId = s.source.reader.openGapId) :
    PushInvariant (s.settle settled) where
  tokens := h.tokens.settle hpending hcases (fun _ _ hevents _ _ => hevents) fun _ => rfl
  connectivity := h.connectivity.settle hpending hcases (fun _ _ _ hconnectivity _ => hconnectivity)
    fun _ => rfl
  rejected := h.rejected.settle hpending hcases (fun _ _ _ _ hrejected => hrejected) fun _ => rfl
  failures := by
    have hfailures := h.failures
    cases hcases with
    | batched hraised _ _ _ _ hfailure hremaining =>
      rw [← hremaining] at hfailures
      simpa [PushState.settle, hraised, hfailure] using hfailures
    | raised hraised _ hremaining =>
      rw [← hremaining] at hfailures
      simpa [PushState.settle, hraised, Envelope.failure?] using hfailures
  suspended hsuspended := by
    have hfalse : settled.source.waiting = true := hsuspended
    rw [hwaiting] at hfalse
    cases hfalse
  drawn := h.drawn
  gaps := by
    simp only [PushState.settle, hreader]
    exact h.gaps

/-- A step that leaves the envelopes and the open gap alone. -/
theorem invariant_same {source : PushSource} (h : PushInvariant s)
    (hpending : source.unacknowledged = s.source.unacknowledged)
    (hremaining : source.remaining = s.source.remaining)
    (hsuspended : source.waiting = true → source.unacknowledged = none ∧ source.deferred = [])
    (hreader : source.reader.openGapId = s.source.reader.openGapId) :
    PushInvariant { s with source } where
  tokens := by
    have htokens := h.tokens
    simpa only [InOrder, hpending, hremaining] using htokens
  connectivity := by
    have hconnectivity := h.connectivity
    simpa only [InOrder, hpending, hremaining] using hconnectivity
  rejected := by
    have hrejected := h.rejected
    simpa only [InOrder, hpending, hremaining] using hrejected
  failures := by
    have hfailures := h.failures
    simpa only [hremaining] using hfailures
  suspended := hsuspended
  drawn := h.drawn
  gaps := by
    simp only [hreader]
    exact h.gaps

theorem settle_none (source : PushSource) : s.settle ⟨source, none⟩ = { s with source } := by
  simp [PushState.settle]

theorem invariant_startFetch (h : PushInvariant s) (receivedAt : Int) :
    PushInvariant (s.settle (startFetch batchSize receivedAt s.source)) := by
  have hsame : PushInvariant (s.settle ⟨s.source, none⟩) := by
    rw [settle_none]
    exact h
  unfold startFetch
  split
  · exact hsame
  · next hwaiting =>
    split
    · exact hsame
    · next hpending =>
      have hnone : s.source.unacknowledged = none := Option.not_isSome_iff_eq_none.mp hpending
      split
      · exact hsame
      · simp only
        split
        · next first deferred hdeferred =>
          obtain ⟨hcases, hstill, hreader⟩ := finishFetch_cases batchSize receivedAt first
            ({ s.source with deferred, reader := { s.source.reader with started := true } } : PushSource)
            s.source (by simp [PushSource.remaining, hdeferred]) rfl
          refine invariant_settle h hnone hcases ?_ ?_
          · rw [hstill]
            exact Bool.not_eq_true _ ▸ hwaiting
          · rw [hreader]
        · next hdeferred =>
          rw [settle_none]
          exact invariant_same h rfl rfl (fun _ => ⟨hnone, hdeferred⟩) rfl

theorem invariant_resumeFetch (h : PushInvariant s) (receivedAt : Int) (timedOut : Bool) :
    PushInvariant (s.settle (resumeFetch batchSize receivedAt timedOut s.source)) := by
  have hsame : PushInvariant (s.settle ⟨s.source, none⟩) := by
    rw [settle_none]
    exact h
  unfold resumeFetch
  split
  · exact hsame
  · next hwaiting =>
    rw [not_not] at hwaiting
    obtain ⟨hpending, hdeferred⟩ := h.suspended hwaiting
    split
    · rw [settle_none]
      exact invariant_same h rfl rfl (fun hfalse => by cases hfalse) rfl
    · split
      · exact hsame
      · next first queue hqueue =>
        obtain ⟨hcases, hstill, hreader⟩ := finishFetch_cases batchSize receivedAt first
          ({ s.source with queue, waiting := false } : PushSource) s.source (by simp [PushSource.remaining, hdeferred, hqueue]) rfl
        exact invariant_settle h hpending hcases hstill (by rw [hreader])

theorem invariant_acknowledge (h : PushInvariant s) (id : Nat) :
    PushInvariant (pushStep py batchSize capacity s (.acknowledge id)) := by
  simp only [pushStep, acknowledge]
  split
  · simpa using h
  · next pending hpending =>
    split
    · simpa using h
    · have hnot : s.source.waiting ≠ true := by
        intro hwaiting
        rw [(h.suspended hwaiting).1] at hpending
        cases hpending
      have htokens := h.tokens
      have hconnectivity := h.connectivity
      have hrejected := h.rejected
      unfold InOrder at htokens hconnectivity hrejected
      rw [hpending] at htokens hconnectivity hrejected
      refine ⟨?_, ?_, ?_, h.failures, fun hwaiting => absurd hwaiting hnot, h.drawn, h.gaps⟩
      · simpa [InOrder, PushSource.remaining] using htokens
      · simpa [InOrder, PushSource.remaining] using hconnectivity
      · simpa [InOrder, PushSource.remaining] using hrejected

theorem InOrder.put {α : Type} {items : DiscoveryBatch → List α} {kind : Envelope → Option α}
    (h : InOrder s items kind) (envelope : Envelope) (reader : Reader) (gaps : List Text) :
    InOrder (s.put capacity envelope reader gaps) items kind := by
  unfold PushState.put
  split
  · unfold InOrder at h ⊢
    simp only [PushSource.remaining, List.filterMap_append] at h ⊢
    rw [← h]
    simp only [List.append_assoc]
  · exact h

/-- Putting an envelope keeps the invariant when the gaps still match what is recorded. -/
theorem invariant_put (h : PushInvariant s) (envelope : Envelope) (reader : Reader)
    (gaps : List Text) (hdrawn : gaps.Nodup)
    (hgaps : ∃ closed, gaps = closed ++ reader.openGapId.toList ∧
      recordedGaps (s.enqueued ++ [envelope]) = gapEvents closed reader.openGapId) :
    PushInvariant (s.put capacity envelope reader gaps) where
  tokens := h.tokens.put envelope reader gaps
  connectivity := h.connectivity.put envelope reader gaps
  rejected := h.rejected.put envelope reader gaps
  failures := by
    have hfailures := h.failures
    unfold PushState.put
    split
    · simp only [PushSource.remaining, List.filterMap_append] at hfailures ⊢
      rw [← hfailures]
      simp only [List.append_assoc]
    · exact hfailures
  suspended := by
    unfold PushState.put
    split
    · exact h.suspended
    · exact h.suspended
  drawn := by
    unfold PushState.put
    split
    · exact hdrawn
    · exact h.drawn
  gaps := by
    unfold PushState.put
    split
    · exact hgaps
    · exact h.gaps

theorem invariant_setReader (h : PushInvariant s) (reader : Reader)
    (hreader : reader.openGapId = s.source.reader.openGapId) :
    PushInvariant (s.setReader reader) := invariant_same h rfl rfl h.suspended hreader

/-- The first loss opens a gap, and no other loss is recorded in it. -/
theorem invariant_disconnect (h : PushInvariant s) (reason : Text) (loss : Loss) :
    PushInvariant (disconnect py capacity reason loss s) := by
  unfold disconnect
  simp only
  split
  · exact invariant_setReader h _ rfl
  · next hclosed =>
    split
    · exact h
    · next hfresh =>
      obtain ⟨closed, hgaps, hrecorded⟩ := h.gaps
      rw [hclosed] at hgaps hrecorded
      simp only [Option.toList_none, List.append_nil] at hgaps
      refine invariant_put h _ _ _ ?_ ⟨closed, by rw [hgaps]; rfl, ?_⟩
      · exact List.nodup_append.mpr ⟨h.drawn, List.nodup_singleton _, fun gapId hgap other hother => by
          rw [List.mem_singleton.mp hother]
          exact fun hsame => hfresh (hsame ▸ hgap)⟩
      · rw [recordedGaps, List.filterMap_append, List.map_append]
        rw [recordedGaps] at hrecorded
        rw [hrecorded]
        simp [gapEvents, Envelope.connectivity?, connectivityEvent]

theorem invariant_connect (h : PushInvariant s) (observedAt : Int) :
    PushInvariant (connect py capacity observedAt s) := by
  unfold connect
  simp only
  split
  · next hclosed => exact invariant_setReader h _ hclosed.symm
  · next gapId hopen =>
    obtain ⟨closed, hgaps, hrecorded⟩ := h.gaps
    rw [hopen] at hgaps hrecorded
    refine invariant_put h _ _ _ h.drawn ⟨closed ++ [gapId], by simpa using hgaps, ?_⟩
    rw [recordedGaps, List.filterMap_append, List.map_append]
    rw [recordedGaps] at hrecorded
    rw [hrecorded]
    simp [gapEvents, Envelope.connectivity?, connectivityEvent]

theorem receive_ne_connectivity {raw : RawMessage} {receivedAt : Int} {envelope : Envelope}
    (h : receive py raw receivedAt = .ok (some envelope)) : envelope.connectivity? = none := by
  unfold receive at h
  split at h
  all_goals cases h
  all_goals rfl

theorem invariant_readMessage (h : PushInvariant s) (raw : RawMessage) (receivedAt : Int)
    (loss : Loss) : PushInvariant (readMessage py capacity raw receivedAt loss s) := by
  unfold readMessage
  split
  · exact h
  · next envelope hreceived =>
    obtain ⟨closed, hgaps, hrecorded⟩ := h.gaps
    refine invariant_put h _ _ _ h.drawn ⟨closed, hgaps, ?_⟩
    rw [← hrecorded]
    simp [recordedGaps, receive_ne_connectivity hreceived]
  · exact invariant_disconnect h _ _

theorem invariant_pushStep (h : PushInvariant s) (action : PushAction) :
    PushInvariant (pushStep py batchSize capacity s action) := by
  cases action with
  | fetch receivedAt => exact invariant_startFetch h receivedAt
  | resume receivedAt timedOut => exact invariant_resumeFetch h receivedAt timedOut
  | persistFails => exact h
  | acknowledge id => exact invariant_acknowledge h id
  | connect observedAt =>
    simp only [pushStep]
    split
    · exact invariant_connect h observedAt
    · exact h
  | message raw receivedAt loss =>
    simp only [pushStep]
    split
    · exact invariant_readMessage h raw receivedAt loss
    · exact h
  | disconnect reason loss =>
    simp only [pushStep]
    split
    · exact invariant_disconnect h reason loss
    · exact h
  | readerStops => exact invariant_setReader h _ rfl

end Steps

theorem invariant_empty : PushInvariant emptyPush where
  tokens := rfl
  connectivity := rfl
  rejected := rfl
  failures := rfl
  suspended h := by cases h
  drawn := List.nodup_nil
  gaps := ⟨[], rfl, rfl⟩

/-- Push discovery is lossless until it is acknowledged, whatever the reader, the transactions and
the coordinator do in between. -/
theorem push_discovery_lossless (py : Python) (batchSize capacity : Nat)
    (actions : List PushAction) :
    Always (pushStep py batchSize capacity) Lossless emptyPush actions := by
  have hkept : ∀ s action, PushInvariant s → PushInvariant (pushStep py batchSize capacity s action) :=
    fun _ action h => invariant_pushStep h action
  exact (always_of_kept hkept invariant_empty actions).mono fun _ => PushInvariant.lossless

end PumpResearch.Discovery
