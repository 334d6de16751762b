import PumpResearch.Collection.EnrichmentRecords
import PumpResearch.Discovery.PumpPortalMessage
import PumpResearch.Library.Runs

/-! The evidence that admissions leave: discovery events, whose identity is the provider's, and the
metadata that names them. -/
namespace PumpResearch.Collection
open Discovery KeyedTable PythonJson PythonText Results Runs Utf8

/-! ### Rows -/

structure DiscoveryEvent where
  id : Uuid
  collectorRunId : Option Uuid
  tokenId : Uuid
  idempotencyKey : HexDigest
  provider : Text
  providerEventId : Option Text
  eventType : Text
  sourceEventAt : Option Int
  receivedAt : Int
  sourcePayload : List (Text × JsonValue)
  sourcePayloadSha256 : HexDigest

/-- The tables of an admission. -/
structure AdmissionStore (Digest : Type) extends AvailabilityStore where
  discoveries : Table DiscoveryEvent.idempotencyKey
  metadata : List (TokenMetadataEvent Digest)

def emptyAdmission {Digest : Type} : AdmissionStore Digest := ⟨emptyAvailability, .empty, []⟩

inductive AdmissionError where
  | data
  | integrity
  | metadata (error : EnrichmentError)

/-- The columns of `tokens`. -/
def DiscoveredAddress.fits (token : DiscoveredAddress) : Bool :=
  fitsText 32 (some token.chain) && fitsText 128 (some token.address)

/-- The columns of `discovery_events`. -/
def DiscoveryEvent.fits (event : DiscoveryEvent) : Bool :=
  fitsText 64 (some event.provider) && fitsText 256 event.providerEventId &&
    fitsText 64 (some event.eventType) && (jsonbFailure (.dict event.sourcePayload)).isNone

/-! ### Repositories -/

/-- `TokenRepository.get_or_create`. Another token may have the identifier that is drawn. -/
def getOrCreateToken (created : DiscoveredAddress) (tokens : Table DiscoveredAddress.identity) :
    Except AdmissionError DiscoveredAddress :=
  if created.fits then
    match tokens.find? created.identity with
    | some token => .ok token
    | none => if tokens.rows.any (·.id = created.id) then .error .integrity else .ok created
  else .error .data

/-- `DiscoveryEventRepository.record`: the row it inserts, or the earlier row of the same key. -/
def recordDiscovery (values : DiscoveryEvent) (discoveries : Table DiscoveryEvent.idempotencyKey) :
    Except AdmissionError (Table DiscoveryEvent.idempotencyKey × DiscoveryEvent) :=
  if values.fits then
    match discoveries.find? values.idempotencyKey with
    | some stored => .ok (discoveries, stored)
    | none =>
      if discoveries.rows.any (·.id = values.id) then .error .integrity
      else .ok (discoveries.insertNew values, values)
  else .error .data

/-! ### Admission -/

/-- `_optional_text`. -/
def optionalText : Option JsonValue → Option Text
  | some (.str value) => if strip value = [] then none else some value
  | _ => none

/-- What an admission has besides its event: the identifiers it draws and its run. -/
structure AdmissionIds where
  tokenId : Uuid
  discoveryId : Uuid
  collectorRunId : Option Uuid

section Admission
variable (ids : AdmissionIds) (event : DiscoveredToken)

/-- The row of a new token. -/
def createdToken : DiscoveredAddress :=
  ⟨ids.tokenId, event.chain, event.address, event.sourceEventAt⟩

def discoveryValues (tokenId : Uuid) : DiscoveryEvent where
  id := ids.discoveryId
  collectorRunId := ids.collectorRunId
  tokenId := tokenId
  idempotencyKey := event.idempotencyKey
  provider := event.sourceName
  providerEventId := event.sourceEventId
  eventType := event.eventType
  sourceEventAt := event.sourceEventAt
  receivedAt := event.receivedAt
  sourcePayload := event.sourcePayload
  sourcePayloadSha256 := event.sourcePayloadSha256

def discoveredMetadata : MetadataCreate where
  name := optionalText (get? event.sourcePayload "name")
  symbol := optionalText (get? event.sourcePayload "symbol")
  metadataUri := optionalText (get? event.sourcePayload "uri")
  imageUrl := optionalText (get? event.sourcePayload "image")
  headerUrl := none
  websiteUrl := optionalText (get? event.sourcePayload "website")
  twitter := optionalText (get? event.sourcePayload "twitter")
  telegram := optionalText (get? event.sourcePayload "telegram")
  otherLinks := none

def metadataDelivery (tokenId discoveryId : Uuid) : MetadataDelivery where
  tokenId := tokenId
  pairId := none
  collectorRunId := ids.collectorRunId
  apiRequestLogId := none
  discoveryEventId := some discoveryId
  provider := event.sourceName
  sourceKind := .discovery
  sourceObservedAt := event.sourceEventAt
  receivedAt := event.receivedAt
  sourceRecordLocator := text "discovery_event"
  sourceRecordSha256 := event.sourcePayloadSha256.digits
  metadata := discoveredMetadata event

variable {Digest : Type} [DecidableEq Digest] (hashing : EnrichmentHashing Digest)

/-- `admit_discovery_in_session`, with all its tables. -/
def recordAdmission (store : AdmissionStore Digest) :
    Except AdmissionError (AdmissionStore Digest) := do
  let token ← getOrCreateToken (createdToken ids event) store.tokens
  let (discoveries, discovery) ← recordDiscovery (discoveryValues ids event token.id)
    store.discoveries
  let change ← (recordMetadata hashing (metadataDelivery ids event token.id discovery.id)
    store.metadata).mapError .metadata
  return ⟨admitDiscoveryInSession ids.tokenId event ids.collectorRunId store.toAvailabilityStore,
    discoveries, change.rows⟩

end Admission

/-! ### Deliveries -/

/-- A message of the stream, and what its admission draws. -/
structure StreamDelivery where
  raw : RawMessage
  receivedAt : Int
  ids : AdmissionIds

/-- The token that a message announces, if the parser returns one. -/
def announced (py : Python) (d : StreamDelivery) : Option DiscoveredToken :=
  match parseNewTokenMessage py d.raw d.receivedAt with
  | .ok (some event) => some event
  | _ => none

/-- One message: its admission commits, or leaves nothing. -/
def deliver {Digest : Type} [DecidableEq Digest] (py : Python) (hashing : EnrichmentHashing Digest)
    (store : AdmissionStore Digest) (d : StreamDelivery) : AdmissionStore Digest :=
  match announced py d with
  | none => store
  | some event =>
    match recordAdmission d.ids event hashing store with
    | .ok store' => store'
    | .error _ => store

/-- The mint that a payload names. -/
def mintOf (payload : List (Text × JsonValue)) : Option Text :=
  match get? payload "mint" with
  | some (.str mint) => some mint
  | _ => none

/-- A token with a task has a discovery event of its own, and metadata names events of its own
token. -/
structure EvidenceOwned {Digest : Type} (store : AdmissionStore Digest) : Prop where
  tasks : ∀ token ∈ store.tokens.rows, ∀ task ∈ store.tasks.rows, task.tokenId = token.id →
    ∃ event ∈ store.discoveries.rows, event.tokenId = token.id ∧
      mintOf event.sourcePayload = some token.address
  metadata : ∀ row ∈ store.metadata, ∃ event ∈ store.discoveries.rows,
    row.discoveryEventId = some event.id ∧ event.tokenId = row.tokenId

/-- No stored event has the provider's event identifier of the message and another mint. -/
def SoleMint {Digest : Type} (py : Python) (store : AdmissionStore Digest) (d : StreamDelivery) :
    Prop :=
  ∀ event ∈ announced py d, ∀ stored ∈ store.discoveries.rows,
    stored.providerEventId = event.sourceEventId →
      mintOf stored.sourcePayload = some event.address

/-- What the key of an event is the digest of. -/
def eventKeyMaterial (providerEventId : Text) : Text :=
  sourceName ++ text ":token_created:" ++ providerEventId

def eventKeyBytes (py : Python) (d : StreamDelivery) : Option (List UInt8) :=
  (announced py d).bind fun event => event.sourceEventId.bind fun providerEventId =>
    encodeStrict (eventKeyMaterial providerEventId)

/-- The keys of the events of these messages do not collide. -/
def KeysApart (py : Python) (deliveries : List StreamDelivery) : Prop :=
  ∀ a ∈ deliveries.filterMap (eventKeyBytes py), ∀ b ∈ deliveries.filterMap (eventKeyBytes py),
    py.sha256 a = py.sha256 b → a = b

/-! ### What an announcement says -/

section Announcements
variable {py : Python} {d : StreamDelivery} {event : DiscoveredToken}

theorem encodeStrict_injective {a b : Text} {bytes : List UInt8}
    (ha : encodeStrict a = some bytes) (hb : encodeStrict b = some bytes) : a = b := by
  unfold encodeStrict at ha hb
  split at ha
  · cases ha
  · split at hb
    · cases hb
    · exact encode_injective (Option.some.inj (ha.trans hb.symm))

theorem eventKeyMaterial_injective : Function.Injective eventKeyMaterial :=
  fun _ _ h => List.append_cancel_left h

/-- The fields of an announced token that its evidence is made of. -/
structure Announces (py : Python) (d : StreamDelivery) (event : DiscoveredToken) : Prop where
  chain : event.chain = text "solana"
  mint : mintOf event.sourcePayload = some event.address
  key : ∃ bytes, eventKeyBytes py d = some bytes ∧ event.idempotencyKey = py.sha256 bytes
  identified : event.sourceEventId ≠ none

theorem mintOf_valid {payload : List (Text × JsonValue)} {parsed : NewToken}
    (h : validateNewToken payload = some parsed) : mintOf payload = some parsed.mint := by
  unfold validateNewToken at h
  split at h
  · next c mint hmint =>
    have hname : mintOf payload = some (c :: mint) := by
      unfold mintOf
      rw [hmint]
    split at h
    · cases h
      exact hname
    · cases h
      exact hname
    · cases h
      exact hname
    · cases h
  · cases h

theorem announces_of_announced (h : announced py d = some event) : Announces py d event := by
  have hparse : parseNewTokenMessage py d.raw d.receivedAt = .ok (some event) := by
    unfold announced at h
    split at h
    · next heq =>
      cases h
      exact heq
    · cases h
  obtain ⟨payload, parsed, sourceEventAt, hcreates, _, hbuilt⟩ := parse_eq_token hparse
  obtain ⟨haddress, hid, hpayload⟩ := discoveredToken_eq_ok hbuilt
  unfold discoveredToken at hbuilt
  split at hbuilt
  · cases hbuilt
  · simp only at hbuilt
    split at hbuilt
    · next keyBytes hbytes =>
      split at hbuilt
      · cases hbuilt
      · cases hbuilt
        refine ⟨rfl, mintOf_valid hcreates.valid, ⟨keyBytes, ?_, rfl⟩, Option.some_ne_none _⟩
        unfold eventKeyBytes
        rw [h]
        exact hbytes
    · cases hbuilt

/-- Without collisions, a key stands for one identifier of the provider. -/
theorem sourceEventId_of_key {deliveries : List StreamDelivery} (hkeys : KeysApart py deliveries)
    {d' : StreamDelivery} {event' : DiscoveredToken} (hd : d ∈ deliveries) (hd' : d' ∈ deliveries)
    (h : announced py d = some event) (h' : announced py d' = some event')
    (heq : event.idempotencyKey = event'.idempotencyKey) :
    event.sourceEventId = event'.sourceEventId := by
  obtain ⟨bytes, hbytes, hdigest⟩ := (announces_of_announced h).key
  obtain ⟨bytes', hbytes', hdigest'⟩ := (announces_of_announced h').key
  have hsame : bytes = bytes' :=
    hkeys bytes (List.mem_filterMap.mpr ⟨d, hd, hbytes⟩) bytes'
      (List.mem_filterMap.mpr ⟨d', hd', hbytes'⟩) (hdigest.symm.trans (heq.trans hdigest'))
  subst hsame
  rw [eventKeyBytes, h, Option.bind_some] at hbytes
  rw [eventKeyBytes, h', Option.bind_some] at hbytes'
  obtain ⟨providerEventId, hid, hencoded⟩ := Option.bind_eq_some_iff.mp hbytes
  obtain ⟨providerEventId', hid', hencoded'⟩ := Option.bind_eq_some_iff.mp hbytes'
  rw [hid, hid', eventKeyMaterial_injective (encodeStrict_injective hencoded hencoded')]

end Announcements

/-! ### What an admission stores -/

section Effects
variable {Digest : Type} [DecidableEq Digest] {hashing : EnrichmentHashing Digest}

theorem recordChange_rows {Row : Type} {base : Row → EnrichmentRow Digest} {inScope : Row → Bool}
    {accepts : Row → Bool} {conflict : String} {values : Row} {rows : List Row}
    {change : RecordedChange Row}
    (h : recordChange base inScope accepts conflict values rows = .ok change) :
    change.rows = rows ∨ change.rows = rows ++ [values] := by
  unfold recordChange at h
  simp only at h
  split at h
  · cases h
    exact .inl rfl
  · split at h
    · split at h
      · cases h
      · split at h
        · cases h
          dsimp only
          split
          · exact .inr rfl
          · exact .inl rfl
        · cases h
    · cases h

theorem recordMetadata_rows {delivery : MetadataDelivery} {rows : List (TokenMetadataEvent Digest)}
    {change : RecordedChange (TokenMetadataEvent Digest)}
    (h : recordMetadata hashing delivery rows = .ok change) :
    change.rows = rows ∨ change.rows = rows ++ [delivery.values hashing] := by
  unfold recordMetadata at h
  split at h
  · cases h
  · split at h
    · cases h
      exact .inl rfl
    · exact recordChange_rows h

variable {ids : AdmissionIds} {event : DiscoveredToken} {store store' : AdmissionStore Digest}

/-- What a committed admission has: the token of the event, new or known, and the discovery event
that the repository returned for it. -/
structure Admits (ids : AdmissionIds) (event : DiscoveredToken)
    (store store' : AdmissionStore Digest) (token : DiscoveredAddress) (discovery : DiscoveryEvent) :
    Prop where
  identity : token.identity = (event.chain, event.address)
  tokens : token ∈ store.tokens.rows ∧ store'.tokens = store.tokens ∨
    (∀ other ∈ store.tokens.rows, other.id ≠ token.id) ∧
      store'.tokens.rows = store.tokens.rows ++ [token]
  key : discovery.idempotencyKey = event.idempotencyKey
  discoveries : discovery ∈ store.discoveries.rows ∧ store'.discoveries = store.discoveries ∨
    discovery = discoveryValues ids event token.id ∧
      store'.discoveries.rows = store.discoveries.rows ++ [discovery]
  metadata : ∀ row ∈ store'.metadata,
    row ∈ store.metadata ∨ row.tokenId = token.id ∧ row.discoveryEventId = some discovery.id
  tasks : ∀ task ∈ store'.tasks.rows, task ∈ store.tasks.rows ∨ task.tokenId = token.id
  task : ∃ task ∈ store'.tasks.rows, task.tokenId = token.id

theorem getOrCreateToken_eq_ok {created token : DiscoveredAddress}
    {tokens : Table DiscoveredAddress.identity}
    (h : getOrCreateToken created tokens = .ok token) :
    token.identity = created.identity ∧ (tokens.find? created.identity).getD created = token ∧
      (token ∈ tokens.rows ∧ tokens.insertNew created = tokens ∨
        (∀ other ∈ tokens.rows, other.id ≠ token.id) ∧
          (tokens.insertNew created).rows = tokens.rows ++ [token]) := by
  unfold getOrCreateToken at h
  split at h
  · split at h
    · next known hfind =>
      cases h
      have hmem := Table.find?_eq_some_iff.mp hfind
      rw [hfind]
      exact ⟨hmem.2, rfl, .inl ⟨hmem.1, Table.insertNew_eq_self hfind⟩⟩
    · next hfind =>
      split at h
      · cases h
      · next hfree =>
        cases h
        rw [hfind]
        refine ⟨rfl, rfl, .inr ⟨fun other hother hid => hfree ?_,
          Table.rows_insertNew_of_find?_eq_none hfind⟩⟩
        exact List.any_eq_true.mpr ⟨other, hother, decide_eq_true hid⟩
  · cases h

theorem recordDiscovery_eq_ok {values discovery : DiscoveryEvent}
    {discoveries discoveries' : Table DiscoveryEvent.idempotencyKey}
    (h : recordDiscovery values discoveries = .ok (discoveries', discovery)) :
    discovery.idempotencyKey = values.idempotencyKey ∧
      (discovery ∈ discoveries.rows ∧ discoveries' = discoveries ∨
        discovery = values ∧ discoveries'.rows = discoveries.rows ++ [discovery]) := by
  unfold recordDiscovery at h
  split at h
  · split at h
    · next stored hfind =>
      cases h
      have hmem := Table.find?_eq_some_iff.mp hfind
      exact ⟨hmem.2, .inl ⟨hmem.1, rfl⟩⟩
    · next hfind =>
      split at h
      · cases h
      · cases h
        exact ⟨rfl, .inr ⟨rfl, Table.rows_insertNew_of_find?_eq_none hfind⟩⟩
  · cases h

theorem recordAdmission_eq_ok (h : recordAdmission ids event hashing store = .ok store') :
    ∃ token discovery, Admits ids event store store' token discovery := by
  simp only [recordAdmission, bind_eq_ok, pure_eq_ok, mapError_eq_ok] at h
  obtain ⟨token, htoken, ⟨discoveries, discovery⟩, hdiscovery, change, hchange, hstore⟩ := h
  subst hstore
  obtain ⟨hidentity, hget, htokens⟩ := getOrCreateToken_eq_ok htoken
  obtain ⟨hkey, hdiscoveries⟩ := recordDiscovery_eq_ok hdiscovery
  have htasks : (admitDiscoveryInSession ids.tokenId event ids.collectorRunId
      store.toAvailabilityStore).tasks =
      store.tasks.insertNew (pendingTask token.id event.receivedAt) := by
    rw [← hget]
    rfl
  refine ⟨token, discovery, hidentity, htokens, hkey, hdiscoveries, ?_, ?_, ?_⟩
  · intro row hrow
    cases recordMetadata_rows hchange with
    | inl hsame => exact .inl (hsame ▸ hrow)
    | inr happended =>
      have hmem : row ∈ change.rows := hrow
      rw [happended, List.mem_append, List.mem_singleton] at hmem
      cases hmem with
      | inl hold => exact .inl hold
      | inr hnew =>
        subst hnew
        exact .inr ⟨rfl, rfl⟩
  · intro task htask
    have hmem : task ∈ (store.tasks.insertNew (pendingTask token.id event.receivedAt)).rows :=
      htasks ▸ htask
    by_cases hid : task.tokenId = token.id
    · exact .inr hid
    · exact .inl (Table.mem_of_mem_insertNew hmem (Ne.symm hid))
  · have hfind := Table.find?_insertNew store.tasks (pendingTask token.id event.receivedAt) token.id
    have hsome : ((store.tasks.insertNew (pendingTask token.id event.receivedAt)).find?
        token.id).isSome := by
      have hown : (pendingTask token.id event.receivedAt).tokenId = token.id := rfl
      rw [hfind, if_pos hown]
      cases store.tasks.find? token.id <;> rfl
    obtain ⟨task, htask⟩ := Option.isSome_iff_exists.mp hsome
    rw [← htasks] at htask
    exact ⟨task, Table.find?_eq_some_iff.mp htask⟩

end Effects

/-! ### Runs -/

section Runs
variable {Digest : Type} [DecidableEq Digest] {py : Python} {hashing : EnrichmentHashing Digest}
  {deliveries : List StreamDelivery}

/-- What the deliveries have left: tokens of one chain with identifiers of their own, tasks of
tokens, and events that name the mints of their tokens under the keys of their messages. -/
structure Evidenced (py : Python) (deliveries : List StreamDelivery)
    (store : AdmissionStore Digest) : Prop where
  chain : ∀ token ∈ store.tokens.rows, token.chain = text "solana"
  ids : ∀ a ∈ store.tokens.rows, ∀ b ∈ store.tokens.rows, a.id = b.id → a = b
  named : ∀ stored ∈ store.discoveries.rows, ∃ token ∈ store.tokens.rows,
    token.id = stored.tokenId ∧ mintOf stored.sourcePayload = some token.address
  keyed : ∀ stored ∈ store.discoveries.rows, ∃ d ∈ deliveries, ∃ event ∈ announced py d,
    stored.idempotencyKey = event.idempotencyKey ∧ stored.providerEventId = event.sourceEventId
  tasks : ∀ task ∈ store.tasks.rows, ∃ stored ∈ store.discoveries.rows,
    stored.tokenId = task.tokenId
  metadata : ∀ row ∈ store.metadata, ∃ stored ∈ store.discoveries.rows,
    row.discoveryEventId = some stored.id ∧ stored.tokenId = row.tokenId

omit [DecidableEq Digest] in
theorem Evidenced.owned {store : AdmissionStore Digest} (h : Evidenced py deliveries store) :
    EvidenceOwned store where
  tasks token htoken task htask hid := by
    obtain ⟨stored, hstored, htaskId⟩ := h.tasks task htask
    obtain ⟨named, hnamed, hnamedId, hmint⟩ := h.named stored hstored
    have hsame : named = token := h.ids named hnamed token htoken
      (hnamedId.trans (htaskId.trans hid))
    exact ⟨stored, hstored, htaskId.trans hid, hsame ▸ hmint⟩
  metadata := h.metadata

omit [DecidableEq Digest] in
theorem evidenced_empty : Evidenced py deliveries (emptyAdmission : AdmissionStore Digest) where
  chain _ h := by cases h
  ids _ h := by cases h
  named _ h := by cases h
  keyed _ h := by cases h
  tasks _ h := by cases h
  metadata _ h := by cases h

section Step
variable {store store' : AdmissionStore Digest} {d : StreamDelivery} {event : DiscoveredToken}
  {token : DiscoveredAddress} {discovery : DiscoveryEvent}

omit [DecidableEq Digest] in
theorem Admits.mem_tokens (h : Admits d.ids event store store' token discovery)
    {other : DiscoveredAddress} :
    other ∈ store'.tokens.rows ↔ other ∈ store.tokens.rows ∨ other = token := by
  cases h.tokens with
  | inl hknown =>
    rw [hknown.2]
    exact ⟨.inl, fun hor => hor.elim id fun heq => heq ▸ hknown.1⟩
  | inr hnew => rw [hnew.2, List.mem_append, List.mem_singleton]

omit [DecidableEq Digest] in
theorem Admits.mem_discoveries (h : Admits d.ids event store store' token discovery)
    {stored : DiscoveryEvent} :
    stored ∈ store'.discoveries.rows ↔ stored ∈ store.discoveries.rows ∨ stored = discovery := by
  cases h.discoveries with
  | inl hknown =>
    rw [hknown.2]
    exact ⟨.inl, fun hor => hor.elim id fun heq => heq ▸ hknown.1⟩
  | inr hnew => rw [hnew.2, List.mem_append, List.mem_singleton]

omit [DecidableEq Digest] in
/-- The event that an admission returns is one of its own token, and names its mint. -/
theorem Admits.own (h : Admits d.ids event store store' token discovery)
    (hstore : Evidenced py deliveries store) (hkeys : KeysApart py deliveries)
    (hd : d ∈ deliveries) (hevent : announced py d = some event) (hsole : SoleMint py store d) :
    discovery.tokenId = token.id ∧ mintOf discovery.sourcePayload = some token.address := by
  have hannounces := announces_of_announced hevent
  have haddress : token.address = event.address := congrArg Prod.snd h.identity
  cases h.discoveries with
  | inr hnew =>
    rw [hnew.1, haddress]
    exact ⟨rfl, hannounces.mint⟩
  | inl hknown =>
    -- an earlier message left the event, and named the mint of its own token
    obtain ⟨d', hd', event', hevent', hkey, hprovider⟩ := hstore.keyed discovery hknown.1
    have hsame := sourceEventId_of_key hkeys hd' hd hevent' hevent (hkey.symm.trans h.key)
    have hmint := hsole event hevent discovery hknown.1 (hprovider.trans hsame)
    obtain ⟨named, hnamed, hid, hnamedMint⟩ := hstore.named discovery hknown.1
    have hidentity : named.identity = token.identity := by
      rw [h.identity, DiscoveredAddress.identity, hstore.chain named hnamed, hannounces.chain,
        Option.some.inj (hnamedMint.symm.trans hmint)]
    have heq : named = token := store'.tokens.eq_of_key_eq (h.mem_tokens.mpr (.inl hnamed))
      (h.mem_tokens.mpr (.inr rfl)) hidentity
    rw [← heq]
    exact ⟨hid.symm, hnamedMint⟩

omit [DecidableEq Digest] in
/-- A committed admission keeps what the deliveries have left. -/
theorem Evidenced.admits (hstore : Evidenced py deliveries store)
    (h : Admits d.ids event store store' token discovery) (hkeys : KeysApart py deliveries)
    (hd : d ∈ deliveries) (hevent : announced py d = some event) (hsole : SoleMint py store d) :
    Evidenced py deliveries store' := by
  have hown := h.own hstore hkeys hd hevent hsole
  have hmemToken : token ∈ store'.tokens.rows := h.mem_tokens.mpr (.inr rfl)
  have hmemDiscovery : discovery ∈ store'.discoveries.rows := h.mem_discoveries.mpr (.inr rfl)
  constructor
  · intro other hother
    cases h.mem_tokens.mp hother with
    | inl hold => exact hstore.chain other hold
    | inr hnew =>
      have hchain : token.chain = event.chain := congrArg Prod.fst h.identity
      rw [hnew, hchain, (announces_of_announced hevent).chain]
  · intro a ha b hb hid
    cases h.tokens with
    | inl hknown =>
      rw [hknown.2] at ha hb
      exact hstore.ids a ha b hb hid
    | inr hnew =>
      cases h.mem_tokens.mp ha with
      | inl hoa =>
        cases h.mem_tokens.mp hb with
        | inl hob => exact hstore.ids a hoa b hob hid
        | inr heq => exact absurd (heq ▸ hid) (hnew.1 a hoa)
      | inr hea =>
        cases h.mem_tokens.mp hb with
        | inl hob => exact absurd (hea ▸ hid.symm) (hnew.1 b hob)
        | inr heb => rw [hea, heb]
  · intro stored hstored
    cases h.mem_discoveries.mp hstored with
    | inl hold =>
      obtain ⟨named, hnamed, hnames⟩ := hstore.named stored hold
      exact ⟨named, h.mem_tokens.mpr (.inl hnamed), hnames⟩
    | inr hnew =>
      subst hnew
      exact ⟨token, hmemToken, hown.1.symm, hown.2⟩
  · intro stored hstored
    cases h.mem_discoveries.mp hstored with
    | inl hold => exact hstore.keyed stored hold
    | inr hnew =>
      subst hnew
      cases h.discoveries with
      | inl hknown => exact hstore.keyed stored hknown.1
      | inr hvalues => exact ⟨d, hd, event, hevent, h.key, by rw [hvalues.1]; rfl⟩
  · intro task htask
    cases h.tasks task htask with
    | inl hold =>
      obtain ⟨stored, hstored, hid⟩ := hstore.tasks task hold
      exact ⟨stored, h.mem_discoveries.mpr (.inl hstored), hid⟩
    | inr hnew => exact ⟨discovery, hmemDiscovery, hown.1.trans hnew.symm⟩
  · intro row hrow
    cases h.metadata row hrow with
    | inl hold =>
      obtain ⟨stored, hstored, hids⟩ := hstore.metadata row hold
      exact ⟨stored, h.mem_discoveries.mpr (.inl hstored), hids⟩
    | inr hnew => exact ⟨discovery, hmemDiscovery, hnew.2, hown.1.trans hnew.1.symm⟩

/-- One message. -/
theorem Evidenced.deliver (hstore : Evidenced py deliveries store) (hkeys : KeysApart py deliveries)
    (hd : d ∈ deliveries) (hsole : SoleMint py store d) :
    Evidenced py deliveries (deliver py hashing store d) := by
  unfold Collection.deliver
  split
  · exact hstore
  · next event hevent =>
    split
    · next store' hadmitted =>
      obtain ⟨token, discovery, hadmits⟩ := recordAdmission_eq_ok hadmitted
      exact hstore.admits hadmits hkeys hd hevent hsole
    · exact hstore

omit [DecidableEq Digest] in
/-- A new token is left without evidence when the key of its event is taken. -/
theorem Admits.not_owned (h : Admits d.ids event store store' token discovery)
    (hstore : Evidenced py deliveries store)
    (hnew : ∀ other ∈ store.tokens.rows, other.identity ≠ (event.chain, event.address))
    (htaken : ∃ stored ∈ store.discoveries.rows, stored.idempotencyKey = event.idempotencyKey) :
    ¬ EvidenceOwned store' := by
  intro howned
  obtain ⟨task, htask, htaskId⟩ := h.task
  obtain ⟨stored, hstored, hstoredId, _⟩ := howned.tasks token (h.mem_tokens.mpr (.inr rfl)) task
    htask htaskId
  have hfresh : ∀ other ∈ store.tokens.rows, other.id ≠ token.id := by
    cases h.tokens with
    | inl hknown => exact absurd h.identity (hnew token hknown.1)
    | inr hcreated => exact hcreated.1
  have hold : stored ∈ store.discoveries.rows := by
    cases h.discoveries with
    | inl hknown =>
      rw [hknown.2] at hstored
      exact hstored
    | inr hinserted =>
      -- the table has one row of a key
      obtain ⟨earlier, hearlier, hkey⟩ := htaken
      have hsame : earlier = discovery := store'.discoveries.eq_of_key_eq
        (h.mem_discoveries.mpr (.inl hearlier)) (h.mem_discoveries.mpr (.inr rfl))
        (hkey.trans h.key.symm)
      cases h.mem_discoveries.mp hstored with
      | inl hold => exact hold
      | inr hlast => exact hlast ▸ hsame ▸ hearlier
  obtain ⟨named, hnamed, hid, _⟩ := hstore.named stored hold
  exact hfresh named hnamed (hid.trans hstoredId)

end Step

/-- Discovery evidence belongs to its token in every state of a run, as long as no message has the
provider's event identifier of a stored event of another mint. -/
theorem discovery_evidence_owned (py : Python) (hashing : EnrichmentHashing Digest)
    (deliveries : List StreamDelivery) (hkeys : KeysApart py deliveries)
    (hsole : Steps (deliver py hashing) (SoleMint py) emptyAdmission deliveries) :
    Always (deliver py hashing) EvidenceOwned emptyAdmission deliveries := by
  have hmem : Steps (deliver py hashing) (fun _ d => d ∈ deliveries) emptyAdmission deliveries :=
    steps_of_forall fun _ hd => hd
  refine (always_of_invariant (I := Evidenced py deliveries) ?_ (hsole.and hmem)
    evidenced_empty).mono fun _ hstore => hstore.owned
  intro store d hstore hok
  exact hstore.deliver hkeys hok.2 hok.1

end Runs

/-! ### Two tokens of one transaction -/

/-- The creation of a token, as the stream announces it. -/
def creationText (mint name signature : String) : Text :=
  text ("\x7b\"mint\":\"" ++ mint ++ "\",\"name\":\"" ++ name ++ "\",\"signature\":\"" ++
    signature ++ "\"\x7d")

/-- The payloads of the messages below, as they are digested. -/
def creationJson : JsonValue → List UInt8
  | .dict payload =>
    if mintOf payload = some (text "A") then encode (creationText "A" "Alpha" "S")
    else
      match get? payload "signature" with
      | some (.str signature) =>
        if signature = text "S" then encode (creationText "B" "Beta" "S")
        else encode (creationText "B" "Beta" "T")
      | _ => []
  | _ => []

/-- An interpreter with the digests of the messages below and of their events. -/
def creationPython : Python where
  decodeDepth := 1000
  encodeDepth := 1000
  maxStrDigits := 4300
  sha256 bytes :=
    if bytes = encode (text "pumpportal:token_created:S") then
      hexDigest "58b0d627426f512d76fdd3bfeb0d1f8a7c3bcc34b314f1039f51f7186355a7b1"
        (by decide +kernel) (by decide +kernel)
    else if bytes = encode (text "pumpportal:token_created:T") then
      hexDigest "4e2f68143409b67cdfa48b7c566a67f8b7e9639366a64960f6fa5b786345032b"
        (by decide +kernel) (by decide +kernel)
    else if bytes = encode (creationText "A" "Alpha" "S") then
      hexDigest "e2ed34c8e00e549f6380bfa749ec491a26abbc49bea40724dd7815d9b3b0385b"
        (by decide +kernel) (by decide +kernel)
    else if bytes = encode (creationText "B" "Beta" "S") then
      hexDigest "fdc11e0cf6f70ad9f62c93db6d2c35a8e1bf612d86083a4237b7c8c7fa451b5e"
        (by decide +kernel) (by decide +kernel)
    else
      hexDigest "665965c32ef835cd597e8aa0256cd82e8edd7ff6deda7be7afe854ae22057eeb"
        (by decide +kernel) (by decide +kernel)
  canonicalJson := creationJson
  lower t := t
  isoformat _ := text "2026-09-07T08:45:18+00:00"
  fromIsoformat _ := none
  floatOfText _ := none
  fromTimestamp _ := none

/-- Digests that are the names, and identifiers that tell tokens and evidence below 100 apart. -/
def nameDigests : EnrichmentHashing (Option Text) where
  pairFact _ := none
  metadata content := content.name
  boost _ := none
  uuid5
    | .metadata tokenId _ _ _ evidenceId _ => 100 * evidenceId.getD 0 + tokenId
    | _ => 0

def creation (mint name signature : String) (i : Nat) : StreamDelivery :=
  ⟨.text (creationText mint name signature), i, ⟨i, i + 10, none⟩⟩

/-- Two tokens of two transactions, and the first message once more. -/
theorem discovery_evidence_owned_twice :
    Always (deliver creationPython nameDigests) EvidenceOwned emptyAdmission
      [creation "A" "Alpha" "S" 1, creation "B" "Beta" "T" 2, creation "A" "Alpha" "S" 3] := by
  refine discovery_evidence_owned creationPython nameDigests _ ?_ ?_
  · unfold KeysApart
    decide +kernel
  · unfold SoleMint
    decide +kernel

/-- Two tokens of one transaction share its signature: the second one has a task, and the event
that its metadata names is that of the first. -/
theorem second_token_without_evidence :
    KeysApart creationPython [creation "A" "Alpha" "S" 1, creation "B" "Beta" "S" 2] ∧
    ¬ Always (deliver creationPython nameDigests) EvidenceOwned emptyAdmission
      [creation "A" "Alpha" "S" 1, creation "B" "Beta" "S" 2] := by
  constructor
  · unfold KeysApart
    decide +kernel
  · intro halways
    have howned := halways.final
    have htask : pendingTask 2 2 ∈ (run (deliver creationPython nameDigests) emptyAdmission
        [creation "A" "Alpha" "S" 1, creation "B" "Beta" "S" 2]).tasks.rows := by decide +kernel
    have htoken : ⟨2, text "solana", text "B", none⟩ ∈
        (run (deliver creationPython nameDigests) emptyAdmission
          [creation "A" "Alpha" "S" 1, creation "B" "Beta" "S" 2]).tokens.rows := by decide +kernel
    have hnone : ∀ event ∈ (run (deliver creationPython nameDigests) emptyAdmission
        [creation "A" "Alpha" "S" 1, creation "B" "Beta" "S" 2]).discoveries.rows,
        event.tokenId ≠ 2 := by decide +kernel
    obtain ⟨event, hevent, hid, _⟩ := howned.tasks _ htoken _ htask rfl
    exact hnone event hevent hid

end PumpResearch.Collection
