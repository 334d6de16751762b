import PumpResearch.Collection.DiscoveryEvidence
import PumpResearch.Discovery.LosslessDelivery

/-! The discovery coordinator between the push source and the database: a batch is committed with
all of its evidence before it is acknowledged, across cancelled calls and restarts. -/
namespace PumpResearch.Collection
open Discovery KeyedTable PythonJson Results Runs Utf8

/-! ### Rows -/

structure RejectedMessageRow where
  message : RejectedDiscoveryMessage
  collectorRunId : Option Uuid

def RejectedMessageRow.key (row : RejectedMessageRow) : HexDigest := row.message.idempotencyKey

/-- The tables of a batch. -/
structure CoordinatorStore (Digest : Type) extends AdmissionStore Digest where
  rejected : Table RejectedMessageRow.key
  connectivity : Table DiscoveryConnectivityEvent.idempotencyKey

def emptyCoordinatorStore {Digest : Type} : CoordinatorStore Digest :=
  ⟨emptyAdmission, .empty, .empty⟩

inductive CoordinatorError where
  | value (message : String)
  | data
  | admission (error : AdmissionError)

/-- The columns of `discovery_rejected_messages`. -/
def rejectedFits (message : RejectedDiscoveryMessage) : Bool :=
  fitsText 64 (some message.sourceName) && fitsText 256 (some message.endpoint) &&
    decide (message.reasonCode.length ≤ 64) &&
    decide (message.messageEncoding ∈ [text "binary", text "utf8-surrogatepass"])

/-- The columns of `discovery_connectivity_events`. -/
def connectivityFits (event : DiscoveryConnectivityEvent) : Bool :=
  fitsText 64 (some event.sourceName) && fitsText 128 (some event.reason) &&
    (jsonbFailure (.dict event.detail)).isNone

/-! ### Committing a batch -/

/-- `DiscoveryRejectedMessageRepository.record`. -/
def recordRejected (collectorRunId : Option Uuid) (rows : Table RejectedMessageRow.key)
    (message : RejectedDiscoveryMessage) :
    Except CoordinatorError (Table RejectedMessageRow.key) :=
  if rejectedFits message then .ok (rows.insertNew ⟨message, collectorRunId⟩) else .error .data

/-- `DiscoveryConnectivityEventRepository.record`. -/
def recordConnectivity (rows : Table DiscoveryConnectivityEvent.idempotencyKey)
    (event : DiscoveryConnectivityEvent) :
    Except CoordinatorError (Table DiscoveryConnectivityEvent.idempotencyKey) :=
  if connectivityFits event then .ok (rows.insertNew event) else .error .data

/-- The namespace checks of `run_once`. -/
def checkNamespace (batch : DiscoveryBatch) : Except CoordinatorError Unit :=
  if batch.events.any (·.sourceName ≠ sourceName) then
    .error (.value "Discovery source returned an event under another provider namespace")
  else if batch.connectivityEvents.any (·.sourceName ≠ sourceName) then
    .error (.value "Discovery source returned connectivity evidence under another namespace")
  else if batch.rejectedMessages.any (·.sourceName ≠ sourceName) then
    .error (.value "Discovery source returned rejection evidence under another namespace")
  else .ok ()

section Commit
variable {Digest : Type} [DecidableEq Digest] (hashing : EnrichmentHashing Digest)

/-- The admission of one event, with the identifiers that it draws. -/
def admitEvent (store : AdmissionStore Digest) (admission : DiscoveredToken × AdmissionIds) :
    Except CoordinatorError (AdmissionStore Digest) :=
  (recordAdmission admission.2 admission.1 hashing store).mapError .admission

/-- `run_once`, once it has its batch: the checks and the transaction. -/
def commitBatch (collectorRunId : Option Uuid) (draws : Nat → Uuid × Uuid) (batch : DiscoveryBatch)
    (store : CoordinatorStore Digest) : Except CoordinatorError (CoordinatorStore Digest) := do
  checkNamespace batch
  let rejected ← batch.rejectedMessages.foldlM (recordRejected collectorRunId) store.rejected
  let admitted ← (batch.events.zipIdx.map fun event =>
      (event.1, AdmissionIds.mk (draws event.2).1 (draws event.2).2 collectorRunId)).foldlM
    (admitEvent hashing) store.toAdmissionStore
  let connectivity ← batch.connectivityEvents.foldlM recordConnectivity store.connectivity
  return ⟨admitted, rejected, connectivity⟩

end Commit

/-! ### The system -/

/-- The database, the source of the running process, and those of the processes before it. -/
structure CoordinatorSystem (Digest : Type) where
  store : CoordinatorStore Digest
  push : PushState
  ended : List PushState

inductive CoordinatorAction where
  /-- A step of the reader or of a fetch. -/
  | source (action : PushAction)
  /-- The pending batch is committed, and acknowledged unless the call is cancelled in between. -/
  | persist (collectorRunId : Option Uuid) (draws : Nat → Uuid × Uuid) (acknowledged : Bool)
  /-- The process ends, with what its source holds, and another one starts. -/
  | restart

section System
variable {Digest : Type} [DecidableEq Digest] (py : Python) (batchSize capacity : Nat)
  (hashing : EnrichmentHashing Digest)

/-- Only the coordinator acknowledges. A commit that raises leaves the batch pending. -/
def coordinatorStep (s : CoordinatorSystem Digest) : CoordinatorAction → CoordinatorSystem Digest
  | .source (.acknowledge _) => s
  | .source action => { s with push := pushStep py batchSize capacity s.push action }
  | .persist collectorRunId draws acknowledged =>
    match s.push.source.unacknowledged with
    | none => s
    | some batch =>
      match commitBatch hashing collectorRunId draws batch s.store with
      | .error _ => s
      | .ok store =>
        { s with
          store := store
          push := if acknowledged then
              pushStep py batchSize capacity s.push (.acknowledge batch.id)
            else s.push }
  | .restart => { s with push := emptyPush, ended := s.ended ++ [s.push] }

end System

def startCoordinator {Digest : Type} : CoordinatorSystem Digest :=
  ⟨emptyCoordinatorStore, emptyPush, []⟩

/-- The sources of all processes. -/
def CoordinatorSystem.processes {Digest : Type} (s : CoordinatorSystem Digest) : List PushState :=
  s.ended ++ [s.push]

/-! ### What is durable -/

/-- An event with its row, its token and the token's task. -/
structure EventDurable {Digest : Type} (store : AdmissionStore Digest) (event : DiscoveredToken) :
    Prop where
  discovery : ∃ row ∈ store.discoveries.rows, row.idempotencyKey = event.idempotencyKey
  task : ∃ token ∈ store.tokens.rows, token.identity = (event.chain, event.address) ∧
    ∃ task ∈ store.tasks.rows, task.tokenId = token.id

/-- Every item of a batch has its row. -/
structure Durable {Digest : Type} (store : CoordinatorStore Digest) (batch : DiscoveryBatch) :
    Prop where
  events : ∀ event ∈ batch.events, EventDurable store.toAdmissionStore event
  connectivity : ∀ event ∈ batch.connectivityEvents,
    ∃ row ∈ store.connectivity.rows, row.idempotencyKey = event.idempotencyKey
  rejected : ∀ message ∈ batch.rejectedMessages,
    ∃ row ∈ store.rejected.rows, row.key = message.idempotencyKey

/-- Tokens, discovery events and tasks are those of these events. -/
structure Admitted {Digest : Type} (events : List DiscoveredToken) (store : AdmissionStore Digest) :
    Prop where
  tokens : ∀ token ∈ store.tokens.rows, ∃ event ∈ events,
    token.identity = (event.chain, event.address)
  discoveries : ∀ row ∈ store.discoveries.rows, ∃ event ∈ events, ∃ token ∈ store.tokens.rows,
    token.identity = (event.chain, event.address) ∧ ∃ ids, row = discoveryValues ids event token.id
  tasks : ∀ task ∈ store.tasks.rows, ∃ token ∈ store.tokens.rows, task.tokenId = token.id

/-- Every row is of one of these envelopes. -/
structure Received {Digest : Type} (envelopes : List Envelope) (store : CoordinatorStore Digest) :
    Prop where
  admitted : Admitted (envelopes.filterMap Envelope.token?) store.toAdmissionStore
  connectivity : ∀ row ∈ store.connectivity.rows, row ∈ envelopes.filterMap Envelope.connectivity?
  rejected : ∀ row ∈ store.rejected.rows, row.message ∈ envelopes.filterMap Envelope.rejected?

/-- What a process has received is acknowledged, pending or still to be fetched; what any process
acknowledged is in the database; and the database holds nothing but what was received. -/
structure CoordinatorSystem.Accounted {Digest : Type} (s : CoordinatorSystem Digest) : Prop where
  lossless : ∀ process ∈ s.processes, Discovery.Lossless process
  durable : ∀ process ∈ s.processes, ∀ batch ∈ process.acknowledged, Durable s.store batch
  received : Received (s.processes.flatMap (·.enqueued)) s.store

/-! ### One batch -/

section Admissions
variable {Digest : Type} {store store' : AdmissionStore Digest}

/-- No row of the evidence is lost. -/
structure Grows (store store' : AdmissionStore Digest) : Prop where
  tokens : ∀ token ∈ store.tokens.rows, token ∈ store'.tokens.rows
  discoveries : ∀ row ∈ store.discoveries.rows, row ∈ store'.discoveries.rows
  tasks : ∀ task ∈ store.tasks.rows, task ∈ store'.tasks.rows

theorem EventDurable.grows {event : DiscoveredToken} (h : EventDurable store event)
    (hgrows : Grows store store') : EventDurable store' event := by
  obtain ⟨row, hrow, hkey⟩ := h.discovery
  obtain ⟨token, htoken, hidentity, task, htask, hid⟩ := h.task
  exact ⟨⟨row, hgrows.discoveries row hrow, hkey⟩, token, hgrows.tokens token htoken, hidentity,
    task, hgrows.tasks task htask, hid⟩

theorem Admitted.mono {events events' : List DiscoveredToken} (h : Admitted events store)
    (hsub : ∀ event ∈ events, event ∈ events') : Admitted events' store where
  tokens token htoken := by
    obtain ⟨event, hevent, hidentity⟩ := h.tokens token htoken
    exact ⟨event, hsub event hevent, hidentity⟩
  discoveries row hrow := by
    obtain ⟨event, hevent, hrest⟩ := h.discoveries row hrow
    exact ⟨event, hsub event hevent, hrest⟩
  tasks := h.tasks

variable [DecidableEq Digest] {hashing : EnrichmentHashing Digest}
  {event : DiscoveredToken} {ids : AdmissionIds}

theorem recordAdmission_grows (h : recordAdmission ids event hashing store = .ok store') :
    Grows store store' := by
  obtain ⟨token, discovery, hadmits⟩ := recordAdmission_eq_ok h
  refine ⟨?_, ?_, ?_⟩
  · intro other hother
    exact (hadmits.mem_tokens (d := ⟨.text [], 0, ids⟩)).mpr (.inl hother)
  · intro row hrow
    exact (hadmits.mem_discoveries (d := ⟨.text [], 0, ids⟩)).mpr (.inl hrow)
  · intro task htask
    simp only [recordAdmission, bind_eq_ok, pure_eq_ok, mapError_eq_ok] at h
    obtain ⟨_, _, _, _, _, _, hstore⟩ := h
    subst hstore
    exact Table.mem_insertNew_of_mem htask

theorem recordAdmission_durable (h : recordAdmission ids event hashing store = .ok store') :
    EventDurable store' event := by
  obtain ⟨token, discovery, hadmits⟩ := recordAdmission_eq_ok h
  obtain ⟨task, htask, hid⟩ := hadmits.task
  have htoken := (hadmits.mem_tokens (d := ⟨.text [], 0, ids⟩)).mpr (.inr rfl)
  have hdiscovery := (hadmits.mem_discoveries (d := ⟨.text [], 0, ids⟩)).mpr (.inr rfl)
  exact ⟨⟨discovery, hdiscovery, hadmits.key⟩, token, htoken, hadmits.identity, task, htask, hid⟩

theorem Admitted.admission {events : List DiscoveredToken} (hstore : Admitted events store)
    (h : recordAdmission ids event hashing store = .ok store') :
    Admitted (events ++ [event]) store' := by
  have hgrows := recordAdmission_grows h
  obtain ⟨token, discovery, hadmits⟩ := recordAdmission_eq_ok h
  have hmono : Admitted (events ++ [event]) store :=
    hstore.mono fun other hother => List.mem_append_left _ hother
  have hlast : event ∈ events ++ [event] := by simp
  have htoken : token ∈ store'.tokens.rows :=
    (hadmits.mem_tokens (d := ⟨.text [], 0, ids⟩)).mpr (.inr rfl)
  have hold : ∀ row ∈ store.discoveries.rows, ∃ other ∈ events ++ [event],
      ∃ known ∈ store'.tokens.rows, known.identity = (other.chain, other.address) ∧
        ∃ ids, row = discoveryValues ids other known.id := by
    intro row hrow
    obtain ⟨other, hother, known, hknown, hrest⟩ := hmono.discoveries row hrow
    exact ⟨other, hother, known, hgrows.tokens known hknown, hrest⟩
  refine ⟨?_, ?_, ?_⟩
  · intro other hother
    cases (hadmits.mem_tokens (d := ⟨.text [], 0, ids⟩)).mp hother with
    | inl hold => exact hmono.tokens other hold
    | inr hnew => exact ⟨event, hlast, hnew ▸ hadmits.identity⟩
  · intro row hrow
    cases hadmits.discoveries with
    | inl hknown =>
      rw [hknown.2] at hrow
      exact hold row hrow
    | inr hinserted =>
      rw [hinserted.2, List.mem_append, List.mem_singleton] at hrow
      cases hrow with
      | inl hearlier => exact hold row hearlier
      | inr hnew =>
        exact ⟨event, hlast, token, htoken, hadmits.identity, ids, hnew.trans hinserted.1⟩
  · intro task htask
    cases hadmits.tasks task htask with
    | inl hearlier =>
      obtain ⟨known, hknown, hid⟩ := hmono.tasks task hearlier
      exact ⟨known, hgrows.tokens known hknown, hid⟩
    | inr hnew => exact ⟨token, htoken, hnew⟩

/-- The loop over the events of a batch. -/
theorem admitEvents_eq_ok {admissions : List (DiscoveredToken × AdmissionIds)}
    {events : List DiscoveredToken} (h : admissions.foldlM (admitEvent hashing) store = .ok store')
    (hstore : Admitted events store) :
    Grows store store' ∧ (∀ a ∈ admissions, EventDurable store' a.1) ∧
      Admitted (events ++ admissions.map (·.1)) store' := by
  refine foldlM_invariant
    (fun done s => Grows store s ∧ (∀ a ∈ done, EventDurable s a.1) ∧
      Admitted (events ++ done.map (·.1)) s) ?_ h
    ⟨⟨fun _ h => h, fun _ h => h, fun _ h => h⟩, ?_, ?_⟩
  · intro done a s s' hdone hstep
    obtain ⟨hgrows, hdurable, hadmitted⟩ := hdone
    have hadmission := mapError_eq_ok.mp hstep
    have hnext := recordAdmission_grows hadmission
    refine ⟨⟨?_, ?_, ?_⟩, ?_, ?_⟩
    · exact fun token htoken => hnext.tokens token (hgrows.tokens token htoken)
    · exact fun row hrow => hnext.discoveries row (hgrows.discoveries row hrow)
    · exact fun task htask => hnext.tasks task (hgrows.tasks task htask)
    · intro b hb
      cases List.mem_append.mp hb with
      | inl hearlier => exact (hdurable b hearlier).grows hnext
      | inr hlast =>
        rw [List.mem_singleton.mp hlast]
        exact recordAdmission_durable hadmission
    · rw [List.map_append, ← List.append_assoc]
      exact hadmitted.admission hadmission
  · intro a ha
    cases ha
  · simpa using hstore

end Admissions

section Batches
variable {Digest : Type} {store store' : CoordinatorStore Digest} {batch : DiscoveryBatch}

/-- No row is lost. -/
structure CoordinatorStore.Grows (store store' : CoordinatorStore Digest) : Prop where
  evidence : Collection.Grows store.toAdmissionStore store'.toAdmissionStore
  connectivity : ∀ row ∈ store.connectivity.rows, row ∈ store'.connectivity.rows
  rejected : ∀ row ∈ store.rejected.rows, row ∈ store'.rejected.rows

theorem Durable.grows (h : Durable store batch) (hgrows : store.Grows store') :
    Durable store' batch where
  events event hevent := (h.events event hevent).grows hgrows.evidence
  connectivity event hevent := by
    obtain ⟨row, hrow, hkey⟩ := h.connectivity event hevent
    exact ⟨row, hgrows.connectivity row hrow, hkey⟩
  rejected message hmessage := by
    obtain ⟨row, hrow, hkey⟩ := h.rejected message hmessage
    exact ⟨row, hgrows.rejected row hrow, hkey⟩

/-- The items of a batch are among these envelopes. -/
structure BatchOf (envelopes : List Envelope) (batch : DiscoveryBatch) : Prop where
  events : ∀ event ∈ batch.events, event ∈ envelopes.filterMap Envelope.token?
  connectivity : ∀ event ∈ batch.connectivityEvents,
    event ∈ envelopes.filterMap Envelope.connectivity?
  rejected : ∀ message ∈ batch.rejectedMessages, message ∈ envelopes.filterMap Envelope.rejected?

theorem BatchOf.mono {envelopes envelopes' : List Envelope} (h : BatchOf envelopes batch)
    (hsub : envelopes ⊆ envelopes') : BatchOf envelopes' batch where
  events event hevent := List.filterMap_subset _ hsub (h.events event hevent)
  connectivity event hevent := List.filterMap_subset _ hsub (h.connectivity event hevent)
  rejected message hmessage := List.filterMap_subset _ hsub (h.rejected message hmessage)

theorem Received.mono {envelopes envelopes' : List Envelope} (h : Received envelopes store)
    (hsub : envelopes ⊆ envelopes') : Received envelopes' store where
  admitted := h.admitted.mono fun _ hevent => List.filterMap_subset _ hsub hevent
  connectivity row hrow := List.filterMap_subset _ hsub (h.connectivity row hrow)
  rejected row hrow := List.filterMap_subset _ hsub (h.rejected row hrow)

variable [DecidableEq Digest] {hashing : EnrichmentHashing Digest} {collectorRunId : Option Uuid}
  {draws : Nat → Uuid × Uuid}

/-- A committed batch: no row is lost, every item has its row, and every row has its envelope. -/
theorem commitBatch_eq_ok {envelopes : List Envelope}
    (h : commitBatch hashing collectorRunId draws batch store = .ok store')
    (hstore : Received envelopes store) (hbatch : BatchOf envelopes batch) :
    store.Grows store' ∧ Durable store' batch ∧ Received envelopes store' := by
  simp only [commitBatch, bind_eq_ok, pure_eq_ok] at h
  obtain ⟨_, _, rejected, hrejected, admitted, hadmitted, connectivity, hconnectivity, hstore'⟩ := h
  subst hstore'
  obtain ⟨hrejectedKept, hrejectedKeyed, hrejectedFrom⟩ := insertLoop_eq_ok
    (fun message : RejectedDiscoveryMessage => ⟨message, collectorRunId⟩)
    (fun t message t' hstep => by
      unfold recordRejected at hstep
      split at hstep
      · exact (Except.ok.inj hstep).symm
      · cases hstep) hrejected
  obtain ⟨hconnectivityKept, hconnectivityKeyed, hconnectivityFrom⟩ := insertLoop_eq_ok id
    (fun t event t' hstep => by
      unfold recordConnectivity at hstep
      split at hstep
      · exact (Except.ok.inj hstep).symm
      · cases hstep) hconnectivity
  obtain ⟨hgrows, hdurable, hreceived⟩ := admitEvents_eq_ok hadmitted hstore.admitted
  refine ⟨⟨hgrows, hconnectivityKept, hrejectedKept⟩, ⟨?_, hconnectivityKeyed, hrejectedKeyed⟩,
    ?_, ?_, ?_⟩
  · intro event hevent
    obtain ⟨i, hi, hget⟩ := List.getElem_of_mem hevent
    have hmem : (event, i) ∈ batch.events.zipIdx :=
      List.mem_zipIdx_iff_getElem?.mpr (List.getElem?_eq_some_iff.mpr ⟨hi, hget⟩)
    exact hdurable _ (List.mem_map_of_mem hmem)
  · refine hreceived.mono fun event hevent => ?_
    cases List.mem_append.mp hevent with
    | inl hold => exact hold
    | inr hnew =>
      obtain ⟨a, ha, haevent⟩ := List.mem_map.mp hnew
      obtain ⟨indexed, hindexed, hadmission⟩ := List.mem_map.mp ha
      subst haevent hadmission
      exact hbatch.events _ (List.fst_mem_of_mem_zipIdx hindexed)
  · intro row hrow
    cases hconnectivityFrom row hrow with
    | inl hold => exact hstore.connectivity row hold
    | inr hnew =>
      obtain ⟨event, hevent, hrow⟩ := hnew
      exact hrow ▸ hbatch.connectivity event hevent
  · intro row hrow
    cases hrejectedFrom row hrow with
    | inl hold => exact hstore.rejected row hold
    | inr hnew =>
      obtain ⟨message, hmessage, hrow⟩ := hnew
      exact hrow ▸ hbatch.rejected message hmessage

end Batches

/-! ### The source -/

section Source
variable {py : Python} {batchSize capacity : Nat} {s : PushState}

/-- What a process has received only grows. -/
theorem put_received (envelope : Envelope) (reader : Reader) (gaps : List Text) :
    (s.put capacity envelope reader gaps).acknowledged = s.acknowledged ∧
      s.enqueued <+: (s.put capacity envelope reader gaps).enqueued := by
  unfold PushState.put
  split
  · exact ⟨rfl, List.prefix_append _ _⟩
  · exact ⟨rfl, List.prefix_refl _⟩

theorem disconnect_received (reason : Text) (loss : Loss) :
    (disconnect py capacity reason loss s).acknowledged = s.acknowledged ∧
      s.enqueued <+: (disconnect py capacity reason loss s).enqueued := by
  unfold disconnect
  dsimp only
  split
  · exact ⟨rfl, List.prefix_refl _⟩
  · split
    · exact ⟨rfl, List.prefix_refl _⟩
    · exact put_received _ _ _

/-- Only an acknowledgement acknowledges. -/
theorem pushStep_received {action : PushAction} (haction : ∀ id, action ≠ .acknowledge id) :
    (pushStep py batchSize capacity s action).acknowledged = s.acknowledged ∧
      s.enqueued <+: (pushStep py batchSize capacity s action).enqueued := by
  cases action with
  | fetch receivedAt => exact ⟨rfl, List.prefix_refl _⟩
  | resume receivedAt timedOut => exact ⟨rfl, List.prefix_refl _⟩
  | persistFails => exact ⟨rfl, List.prefix_refl _⟩
  | acknowledge id => exact absurd rfl (haction id)
  | connect observedAt =>
    simp only [pushStep]
    split
    · unfold connect
      dsimp only
      split
      · exact ⟨rfl, List.prefix_refl _⟩
      · exact put_received _ _ _
    · exact ⟨rfl, List.prefix_refl _⟩
  | message raw receivedAt loss =>
    simp only [pushStep]
    split
    · unfold readMessage
      split
      · exact ⟨rfl, List.prefix_refl _⟩
      · exact put_received _ _ _
      · exact disconnect_received _ _
    · exact ⟨rfl, List.prefix_refl _⟩
  | disconnect reason loss =>
    simp only [pushStep]
    split
    · exact disconnect_received _ _
    · exact ⟨rfl, List.prefix_refl _⟩
  | readerStops => exact ⟨rfl, List.prefix_refl _⟩

/-- The pending batch is acknowledged. -/
theorem acknowledge_pending {batch : DiscoveryBatch} (h : s.source.unacknowledged = some batch) :
    (pushStep py batchSize capacity s (.acknowledge batch.id)).acknowledged =
      s.acknowledged ++ [batch] := by
  simp [pushStep, acknowledge, h]

/-- The items of the pending batch were received. -/
theorem batchOf_pending (hs : PushInvariant s) {batch : DiscoveryBatch}
    (h : s.source.unacknowledged = some batch) : BatchOf s.enqueued batch where
  events event hevent := by
    rw [← hs.tokens, h]
    simp [hevent]
  connectivity event hevent := by
    rw [← hs.connectivity, h]
    simp [hevent]
  rejected message hmessage := by
    rw [← hs.rejected, h]
    simp [hmessage]

end Source

/-! ### Runs -/

section Runs
variable {Digest : Type} {py : Python} {batchSize capacity : Nat} {s : CoordinatorSystem Digest}

/-- What every step keeps. -/
structure CoordinatorInvariant (s : CoordinatorSystem Digest) : Prop where
  processes : ∀ process ∈ s.processes, PushInvariant process
  durable : ∀ process ∈ s.processes, ∀ batch ∈ process.acknowledged, Durable s.store batch
  received : Received (s.processes.flatMap (·.enqueued)) s.store

theorem CoordinatorInvariant.accounted (h : CoordinatorInvariant s) : s.Accounted where
  lossless process hprocess := (h.processes process hprocess).lossless
  durable := h.durable
  received := h.received

theorem CoordinatorSystem.mem_processes {process : PushState} :
    process ∈ s.processes ↔ process ∈ s.ended ∨ process = s.push := by
  rw [CoordinatorSystem.processes, List.mem_append, List.mem_singleton]

theorem CoordinatorInvariant.push (h : CoordinatorInvariant s) : PushInvariant s.push :=
  h.processes s.push (CoordinatorSystem.mem_processes.mpr (.inr rfl))

/-- The running process goes on: what it acknowledges in the step is durable. -/
theorem CoordinatorInvariant.advance (h : CoordinatorInvariant s) {push : PushState}
    (hpush : PushInvariant push) (hreceived : s.push.enqueued <+: push.enqueued)
    (hdurable : ∀ batch ∈ push.acknowledged,
      batch ∈ s.push.acknowledged ∨ Durable s.store batch) :
    CoordinatorInvariant { s with push := push } where
  processes process hprocess := by
    cases CoordinatorSystem.mem_processes.mp hprocess with
    | inl hended => exact h.processes process (CoordinatorSystem.mem_processes.mpr (.inl hended))
    | inr hrunning => exact hrunning ▸ hpush
  durable process hprocess batch hbatch := by
    cases CoordinatorSystem.mem_processes.mp hprocess with
    | inl hended =>
      exact h.durable process (CoordinatorSystem.mem_processes.mpr (.inl hended)) batch hbatch
    | inr hrunning =>
      subst hrunning
      cases hdurable batch hbatch with
      | inl hold =>
        exact h.durable s.push (CoordinatorSystem.mem_processes.mpr (.inr rfl)) batch hold
      | inr hnew => exact hnew
  received := by
    refine h.received.mono fun envelope henvelope => ?_
    obtain ⟨process, hprocess, hmem⟩ := List.mem_flatMap.mp henvelope
    cases CoordinatorSystem.mem_processes.mp hprocess with
    | inl hended =>
      exact List.mem_flatMap.mpr
        ⟨process, CoordinatorSystem.mem_processes.mpr (.inl hended), hmem⟩
    | inr hrunning =>
      exact List.mem_flatMap.mpr ⟨push, CoordinatorSystem.mem_processes.mpr (.inr rfl),
        hreceived.subset (hrunning ▸ hmem)⟩

/-- A commit of the pending batch. -/
theorem CoordinatorInvariant.commit (h : CoordinatorInvariant s) {store : CoordinatorStore Digest}
    (hgrows : s.store.Grows store) (hreceived : Received (s.processes.flatMap (·.enqueued)) store) :
    CoordinatorInvariant { s with store := store } where
  processes := h.processes
  durable process hprocess batch hbatch := (h.durable process hprocess batch hbatch).grows hgrows
  received := hreceived

/-- A new process has received nothing. -/
theorem CoordinatorInvariant.restart (h : CoordinatorInvariant s) :
    CoordinatorInvariant { s with push := emptyPush, ended := s.ended ++ [s.push] } := by
  have hmem : ∀ process,
      process ∈ ({ s with push := emptyPush, ended := s.ended ++ [s.push] } :
        CoordinatorSystem Digest).processes ↔ process ∈ s.processes ∨ process = emptyPush := by
    intro process
    rw [CoordinatorSystem.mem_processes]
    rfl
  refine ⟨?_, ?_, ?_⟩
  · intro process hprocess
    cases (hmem process).mp hprocess with
    | inl hold => exact h.processes process hold
    | inr hnew => exact hnew ▸ invariant_empty
  · intro process hprocess batch hbatch
    cases (hmem process).mp hprocess with
    | inl hold => exact h.durable process hold batch hbatch
    | inr hnew =>
      subst hnew
      cases hbatch
  · refine h.received.mono fun envelope henvelope => ?_
    obtain ⟨process, hprocess, henqueued⟩ := List.mem_flatMap.mp henvelope
    exact List.mem_flatMap.mpr ⟨process, (hmem process).mpr (.inl hprocess), henqueued⟩

variable [DecidableEq Digest] {hashing : EnrichmentHashing Digest}

theorem coordinatorStep_source {action : PushAction} (haction : ∀ id, action ≠ .acknowledge id) :
    coordinatorStep py batchSize capacity hashing s (.source action) =
      { s with push := pushStep py batchSize capacity s.push action } := by
  cases action with
  | acknowledge id => exact absurd rfl (haction id)
  | _ => rfl

theorem CoordinatorInvariant.step (h : CoordinatorInvariant s) (action : CoordinatorAction) :
    CoordinatorInvariant (coordinatorStep py batchSize capacity hashing s action) := by
  cases action with
  | source action =>
    by_cases haction : ∃ id, action = .acknowledge id
    · obtain ⟨id, hid⟩ := haction
      subst hid
      exact h
    · have hother : ∀ id, action ≠ .acknowledge id := fun id hid => haction ⟨id, hid⟩
      have hstep : (pushStep py batchSize capacity s.push action).acknowledged =
          s.push.acknowledged ∧
          s.push.enqueued <+: (pushStep py batchSize capacity s.push action).enqueued :=
        pushStep_received hother
      obtain ⟨hacknowledged, hreceived⟩ := hstep
      rw [coordinatorStep_source hother]
      exact h.advance (invariant_pushStep h.push action) hreceived
        fun batch hbatch => .inl (hacknowledged ▸ hbatch)
  | persist collectorRunId draws acknowledged =>
    simp only [coordinatorStep]
    cases hpending : s.push.source.unacknowledged with
    | none => exact h
    | some batch =>
      dsimp only
      cases hcommit : commitBatch hashing collectorRunId draws batch s.store with
      | error error => exact h
      | ok store =>
        have hbatch : BatchOf (s.processes.flatMap (·.enqueued)) batch :=
          (batchOf_pending h.push hpending).mono fun envelope henvelope => List.mem_flatMap.mpr
            ⟨s.push, CoordinatorSystem.mem_processes.mpr (.inr rfl), henvelope⟩
        obtain ⟨hgrows, hdurable, hreceived⟩ := commitBatch_eq_ok hcommit h.received hbatch
        have hcommitted := h.commit hgrows hreceived
        cases acknowledged with
        | false => exact hcommitted
        | true =>
          rw [if_pos rfl]
          refine hcommitted.advance (invariant_pushStep h.push _) (List.prefix_refl _) ?_
          intro other hother
          rw [acknowledge_pending hpending, List.mem_append, List.mem_singleton] at hother
          cases hother with
          | inl hold => exact .inl hold
          | inr hnew => exact .inr (hnew ▸ hdurable)
  | restart => exact h.restart

/-- In every state of every run, across restarts and cancelled calls, what a process has received is
in a batch that it acknowledged, in its pending one or still to be fetched, once and in order; the
acknowledged batches are in the database; and every row of the database is of something received. -/
theorem discovery_delivery_accounted (py : Python) (batchSize capacity : Nat)
    (hashing : EnrichmentHashing Digest) (actions : List CoordinatorAction) :
    Always (coordinatorStep py batchSize capacity hashing) CoordinatorSystem.Accounted
      startCoordinator actions := by
  have hstart : CoordinatorInvariant (startCoordinator : CoordinatorSystem Digest) := by
    refine ⟨?_, ?_, ?_⟩
    · intro process hprocess
      rw [List.mem_singleton.mp hprocess]
      exact invariant_empty
    · intro process hprocess batch hbatch
      rw [List.mem_singleton.mp hprocess] at hbatch
      cases hbatch
    · exact ⟨⟨fun _ h => (by cases h), fun _ h => (by cases h), fun _ h => (by cases h)⟩,
        fun _ h => (by cases h), fun _ h => (by cases h)⟩
  exact (always_of_kept (fun _ action h => h.step action) hstart actions).mono
    fun _ h => h.accounted

end Runs

end PumpResearch.Collection
