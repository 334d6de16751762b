import PumpResearch.Collection.DexAvailability
import PumpResearch.Library.ChangeLog
import PumpResearch.Library.PyDecimal

/-! The repositories of enrichment facts: pair facts, token metadata and boosts. Each appends a row
only when the content of its scope has changed. -/
namespace PumpResearch.Collection

open Discovery PythonJson Results Utf8

/-! ### Contents -/

/-- `PairFactCreate`. -/
structure PairFactCreate where
  pairCreatedAt : Option Int
  dexIdentifier : Option Text
  labels : Option (List JsonValue)
  baseTokenAddress : Option Text
  baseTokenName : Option Text
  baseTokenSymbol : Option Text
  quoteTokenAddress : Option Text
  quoteTokenName : Option Text
  quoteTokenSymbol : Option Text

/-- `MetadataCreate`. -/
structure MetadataCreate where
  name : Option Text
  symbol : Option Text
  metadataUri : Option Text
  imageUrl : Option Text
  headerUrl : Option Text
  websiteUrl : Option Text
  twitter : Option Text
  telegram : Option Text
  otherLinks : Option (List JsonValue)

/-- `BoostCreate`. -/
structure BoostCreate where
  activeBoostCount : Option Int
  amount : Option PyDecimal
  totalAmount : Option PyDecimal
deriving DecidableEq

def MetadataCreate.isAbsent (content : MetadataCreate) : Bool :=
  content.name.isNone && content.symbol.isNone && content.metadataUri.isNone &&
    content.imageUrl.isNone && content.headerUrl.isNone && content.websiteUrl.isNone &&
    content.twitter.isNone && content.telegram.isNone && content.otherLinks.isNone

def BoostCreate.isAbsent (content : BoostCreate) : Bool :=
  content.activeBoostCount.isNone && content.amount.isNone && content.totalAmount.isNone

/-! ### Columns -/

/-- `bounded_normalized_text`. -/
def boundedNormalizedText (value : Option Text) (maxLength : Nat) : Option Text :=
  value.map (·.take maxLength)

/-- What a `VARCHAR` of this length stores. -/
def fitsText (limit : Nat) (value : Option Text) : Bool :=
  value.all fun s => s.length ≤ limit && !hasNul s && !hasSurrogate s

def fitsJson (value : Option (List JsonValue)) : Bool :=
  value.all fun items => (jsonbFailure (.list items)).isNone

def fitsInteger (value : Option Int) : Bool := value.all fun n => -2 ^ 31 ≤ n && n < 2 ^ 31

/-- A number of `NUMERIC(38, 18)`, in units of its last digit. -/
inductive StoredNumeric where
  | units (n : Int)
  | nan
deriving DecidableEq

/-- The coefficient at a scale of 18, rounded half away from zero. -/
def unitsAtScale (coefficient : Nat) (exponent : Int) : Nat :=
  if -18 ≤ exponent then coefficient * 10 ^ (exponent + 18).toNat
  else
    let divisor := 10 ^ (-18 - exponent).toNat
    (coefficient + divisor / 2) / divisor

/-- What `NUMERIC(38, 18)` stores for a decimal, if it has room for it. -/
def storedNumeric : PyDecimal → Option StoredNumeric
  | .finite negative coefficient exponent =>
    let n := unitsAtScale coefficient exponent
    if n < 10 ^ 38 then some (.units (if negative then -(n : Int) else n)) else none
  | .infinity _ => none
  | .nan => some .nan

def fitsNumeric (value : Option PyDecimal) : Bool := value.all fun d => (storedNumeric d).isSome

/-! ### Rows -/

/-- `ck_token_metadata_events_source_kind`. -/
inductive MetadataSource where
  | discovery
  | pairResponse
  | boostFeed
deriving DecidableEq

/-- `ck_boost_observations_source_kind`. -/
inductive BoostSource where
  | pairResponse
  | latestFeed
  | topFeed
deriving DecidableEq

/-- The parts that an idempotency key is the digest of. -/
inductive EnrichmentKey where
  | pairFact (pairId requestId : Uuid) (locator : Text)
  | metadata (tokenId : Uuid) (provider : Text) (sourceKind : MetadataSource)
      (pairId : Option Uuid) (evidenceId : Option Uuid) (locator : Text)
  | boost (tokenId : Uuid) (sourceKind : BoostSource) (pairId : Option Uuid) (requestId : Uuid)
      (locator : Text)
deriving DecidableEq

/-- `canonical_digest` of each content, and `uuid5` of a key. -/
structure EnrichmentHashing (Digest : Type) where
  pairFact : PairFactCreate → Digest
  metadata : MetadataCreate → Digest
  boost : BoostCreate → Digest
  uuid5 : EnrichmentKey → Uuid

/-- The columns that every enrichment row has. -/
structure EnrichmentRow (Digest : Type) where
  id : Uuid
  collectorRunId : Option Uuid
  idempotencyKey : EnrichmentKey
  provider : Text
  receivedAt : Int
  sourceRecordLocator : Text
  sourceRecordSha256 : Text
  contentSha256 : Digest

structure PairFactEvent (Digest : Type) extends EnrichmentRow Digest where
  pairId : Uuid
  apiRequestLogId : Uuid
  fact : PairFactCreate

structure TokenMetadataEvent (Digest : Type) extends EnrichmentRow Digest where
  tokenId : Uuid
  pairId : Option Uuid
  apiRequestLogId : Option Uuid
  discoveryEventId : Option Uuid
  sourceKind : MetadataSource
  sourceObservedAt : Option Int
  metadata : MetadataCreate

structure BoostObservation (Digest : Type) extends EnrichmentRow Digest where
  tokenId : Uuid
  pairId : Option Uuid
  apiRequestLogId : Uuid
  sourceKind : BoostSource
  feedRank : Option Int
  sourceObservedAt : Option Int
  activeBoostCount : Option Int
  amount : Option StoredNumeric
  totalAmount : Option StoredNumeric

/-! ### Recording a change -/

inductive EnrichmentError where
  | value (message : String)
  | data
  | identityConflict (message : String)
  | invalidOperation
deriving DecidableEq

section Change

variable {Digest Row : Type} [DecidableEq Digest] (base : Row → EnrichmentRow Digest)

/-- `ORDER BY received_at DESC, id DESC LIMIT 1`. -/
def latestRow (rows : List Row) : Option Row :=
  KeyedOrder.firstMax (fun row => toLex ((base row).receivedAt, (base row).id)) rows

/-- Rows of one id or of one idempotency key. -/
def sameIdentity (row row' : Row) : Bool :=
  (base row).id = (base row').id || (base row).idempotencyKey = (base row').idempotencyKey

/-- What a call leaves: the row it returns, whether it inserted it, the row it compared with. -/
structure RecordedChange (Row : Type) where
  rows : List Row
  stored : Option Row
  inserted : Bool
  previous : Option Row

/-- The part that the repositories share, from the query for the previous row on. -/
def recordChange (inScope : Row → Bool) (accepts : Row → Bool) (conflict : String) (values : Row)
    (rows : List Row) : Except EnrichmentError (RecordedChange Row) :=
  let previous := latestRow base (rows.filter inScope)
  if previous.any fun row => (base row).contentSha256 = (base values).contentSha256 then
    .ok ⟨rows, none, false, previous⟩
  else if accepts values then
    let inserted := !rows.any (sameIdentity base values)
    let rows' := if inserted then rows ++ [values] else rows
    match rows'.find? (sameIdentity base values) with
    | none => .error (.identityConflict conflict)
    | some stored =>
      if (base stored).contentSha256 = (base values).contentSha256 then
        .ok ⟨rows', some stored, inserted, previous⟩
      else .error (.identityConflict conflict)
  else .error .data

end Change

section Repositories

variable {Digest : Type} [DecidableEq Digest] (hashing : EnrichmentHashing Digest)

/-! ### Pair facts -/

structure PairFactDelivery where
  pairId : Uuid
  collectorRunId : Option Uuid
  apiRequestLogId : Uuid
  provider : Text
  receivedAt : Int
  sourceRecordLocator : Text
  sourceRecordSha256 : Text
  fact : PairFactCreate

/-- The display columns are bounded, the addresses are not. -/
def PairFactCreate.normalized (fact : PairFactCreate) : PairFactCreate :=
  { fact with
    dexIdentifier := boundedNormalizedText fact.dexIdentifier 128
    baseTokenName := boundedNormalizedText fact.baseTokenName 512
    baseTokenSymbol := boundedNormalizedText fact.baseTokenSymbol 128
    quoteTokenName := boundedNormalizedText fact.quoteTokenName 512
    quoteTokenSymbol := boundedNormalizedText fact.quoteTokenSymbol 128 }

def PairFactDelivery.key (d : PairFactDelivery) : EnrichmentKey :=
  .pairFact d.pairId d.apiRequestLogId d.sourceRecordLocator

def PairFactDelivery.values (d : PairFactDelivery) : PairFactEvent Digest where
  id := hashing.uuid5 d.key
  collectorRunId := d.collectorRunId
  idempotencyKey := d.key
  provider := d.provider
  receivedAt := d.receivedAt
  sourceRecordLocator := d.sourceRecordLocator
  sourceRecordSha256 := d.sourceRecordSha256
  contentSha256 := hashing.pairFact d.fact
  pairId := d.pairId
  apiRequestLogId := d.apiRequestLogId
  fact := d.fact.normalized

/-- The columns that every enrichment table has. -/
def EnrichmentRow.fits (row : EnrichmentRow Digest) : Bool :=
  fitsText 64 (some row.provider) && fitsText 256 (some row.sourceRecordLocator) &&
    fitsText 64 (some row.sourceRecordSha256)

def PairFactEvent.fits (row : PairFactEvent Digest) : Bool :=
  row.toEnrichmentRow.fits && fitsText 128 row.fact.dexIdentifier && fitsJson row.fact.labels &&
    fitsText 128 row.fact.baseTokenAddress && fitsText 512 row.fact.baseTokenName &&
    fitsText 128 row.fact.baseTokenSymbol && fitsText 128 row.fact.quoteTokenAddress &&
    fitsText 512 row.fact.quoteTokenName && fitsText 128 row.fact.quoteTokenSymbol

def PairFactEvent.scope (row : PairFactEvent Digest) : Uuid × Text := (row.pairId, row.provider)

def PairFactDelivery.scope (d : PairFactDelivery) : Uuid × Text := (d.pairId, d.provider)

/-- `PairFactRepository.record_if_changed`. -/
def recordPairFact (d : PairFactDelivery) (rows : List (PairFactEvent Digest)) :
    Except EnrichmentError (RecordedChange (PairFactEvent Digest)) :=
  recordChange PairFactEvent.toEnrichmentRow (·.scope = d.scope) PairFactEvent.fits
    "pair fact identity maps to different content" (d.values hashing) rows

/-! ### Token metadata -/

structure MetadataDelivery where
  tokenId : Uuid
  pairId : Option Uuid
  collectorRunId : Option Uuid
  apiRequestLogId : Option Uuid
  discoveryEventId : Option Uuid
  provider : Text
  sourceKind : MetadataSource
  sourceObservedAt : Option Int
  receivedAt : Int
  sourceRecordLocator : Text
  sourceRecordSha256 : Text
  metadata : MetadataCreate

def MetadataCreate.normalized (content : MetadataCreate) : MetadataCreate :=
  { content with
    name := boundedNormalizedText content.name 512
    symbol := boundedNormalizedText content.symbol 128
    metadataUri := boundedNormalizedText content.metadataUri 4096
    imageUrl := boundedNormalizedText content.imageUrl 4096
    headerUrl := boundedNormalizedText content.headerUrl 4096
    websiteUrl := boundedNormalizedText content.websiteUrl 4096
    twitter := boundedNormalizedText content.twitter 2048
    telegram := boundedNormalizedText content.telegram 2048 }

/-- `api_request_log_id or discovery_event_id`. -/
def MetadataDelivery.evidenceId (d : MetadataDelivery) : Option Uuid :=
  d.apiRequestLogId.or d.discoveryEventId

def MetadataDelivery.key (d : MetadataDelivery) : EnrichmentKey :=
  .metadata d.tokenId d.provider d.sourceKind d.pairId d.evidenceId d.sourceRecordLocator

def MetadataDelivery.values (d : MetadataDelivery) : TokenMetadataEvent Digest where
  id := hashing.uuid5 d.key
  collectorRunId := d.collectorRunId
  idempotencyKey := d.key
  provider := d.provider
  receivedAt := d.receivedAt
  sourceRecordLocator := d.sourceRecordLocator
  sourceRecordSha256 := d.sourceRecordSha256
  contentSha256 := hashing.metadata d.metadata
  tokenId := d.tokenId
  pairId := d.pairId
  apiRequestLogId := d.apiRequestLogId
  discoveryEventId := d.discoveryEventId
  sourceKind := d.sourceKind
  sourceObservedAt := d.sourceObservedAt
  metadata := d.metadata.normalized

def TokenMetadataEvent.fits (row : TokenMetadataEvent Digest) : Bool :=
  row.toEnrichmentRow.fits && fitsText 512 row.metadata.name && fitsText 128 row.metadata.symbol &&
    fitsText 4096 row.metadata.metadataUri && fitsText 4096 row.metadata.imageUrl &&
    fitsText 4096 row.metadata.headerUrl && fitsText 4096 row.metadata.websiteUrl &&
    fitsText 2048 row.metadata.twitter && fitsText 2048 row.metadata.telegram &&
    fitsJson row.metadata.otherLinks

def TokenMetadataEvent.scope (row : TokenMetadataEvent Digest) :
    Uuid × Text × MetadataSource × Option Uuid :=
  (row.tokenId, row.provider, row.sourceKind, row.pairId)

def MetadataDelivery.scope (d : MetadataDelivery) : Uuid × Text × MetadataSource × Option Uuid :=
  (d.tokenId, d.provider, d.sourceKind, d.pairId)

/-- `TokenMetadataRepository.record_if_changed`. -/
def recordMetadata (d : MetadataDelivery) (rows : List (TokenMetadataEvent Digest)) :
    Except EnrichmentError (RecordedChange (TokenMetadataEvent Digest)) :=
  if d.evidenceId.isNone then
    .error (.value "metadata requires API-request or discovery-event provenance")
  else if d.metadata.isAbsent then .ok ⟨rows, none, false, none⟩
  else
    recordChange TokenMetadataEvent.toEnrichmentRow (·.scope = d.scope) TokenMetadataEvent.fits
      "metadata identity maps to different content" (d.values hashing) rows

/-! ### Boosts -/

structure BoostDelivery where
  tokenId : Uuid
  pairId : Option Uuid
  collectorRunId : Option Uuid
  apiRequestLogId : Uuid
  provider : Text
  sourceKind : BoostSource
  feedRank : Option Int
  sourceObservedAt : Option Int
  receivedAt : Int
  sourceRecordLocator : Text
  sourceRecordSha256 : Text
  fact : BoostCreate

def BoostDelivery.key (d : BoostDelivery) : EnrichmentKey :=
  .boost d.tokenId d.sourceKind d.pairId d.apiRequestLogId d.sourceRecordLocator

def BoostDelivery.values (d : BoostDelivery) : BoostObservation Digest where
  id := hashing.uuid5 d.key
  collectorRunId := d.collectorRunId
  idempotencyKey := d.key
  provider := d.provider
  receivedAt := d.receivedAt
  sourceRecordLocator := d.sourceRecordLocator
  sourceRecordSha256 := d.sourceRecordSha256
  contentSha256 := hashing.boost d.fact
  tokenId := d.tokenId
  pairId := d.pairId
  apiRequestLogId := d.apiRequestLogId
  sourceKind := d.sourceKind
  feedRank := d.feedRank
  sourceObservedAt := d.sourceObservedAt
  activeBoostCount := d.fact.activeBoostCount
  amount := d.fact.amount.bind storedNumeric
  totalAmount := d.fact.totalAmount.bind storedNumeric

/-- The columns of a delivery. A count is not negative. -/
def BoostDelivery.fits (d : BoostDelivery) : Bool :=
  fitsText 64 (some d.provider) && fitsText 256 (some d.sourceRecordLocator) &&
    fitsText 64 (some d.sourceRecordSha256) && fitsInteger d.feedRank &&
    fitsInteger d.fact.activeBoostCount && d.fact.activeBoostCount.all (0 ≤ ·) &&
    fitsNumeric d.fact.amount && fitsNumeric d.fact.totalAmount

def BoostObservation.scope (row : BoostObservation Digest) : Uuid × BoostSource × Option Uuid :=
  (row.tokenId, row.sourceKind, row.pairId)

def BoostDelivery.scope (d : BoostDelivery) : Uuid × BoostSource × Option Uuid :=
  (d.tokenId, d.sourceKind, d.pairId)

inductive BoostMetric where
  | activeBoostCount
  | amount
  | totalAmount
deriving DecidableEq

inductive BoostEventType where
  | firstSeen
  | stateChange
  | thresholdCrossing
deriving DecidableEq

inductive BoostDirection where
  | none
  | up
  | down
deriving DecidableEq

/-- Values are in units of the last digit of their columns. -/
structure BoostEvent where
  boostObservationId : Uuid
  tokenId : Uuid
  eventType : BoostEventType
  metric : BoostMetric
  direction : BoostDirection
  previousValue : Option StoredNumeric
  newValue : StoredNumeric
  thresholdValue : Option Int
  decidedAt : Int
deriving DecidableEq

/-- The parts that the idempotency key of an event is the digest of. -/
def BoostEvent.key (event : BoostEvent) :
    Uuid × BoostEventType × BoostMetric × BoostDirection × Option Int :=
  (event.boostObservationId, event.eventType, event.metric, event.direction, event.thresholdValue)

/-- One in units of the last digit of `NUMERIC(38, 18)`. -/
def numericUnit : Int := 10 ^ 18

/-- `_BOOST_THRESHOLDS`. -/
def boostThresholds : List Int := [1, 10, 100, 1000].map (· * numericUnit)

def BoostObservation.metric (row : BoostObservation Digest) : BoostMetric → Option StoredNumeric
  | .activeBoostCount => row.activeBoostCount.map fun n => .units (n * numericUnit)
  | .amount => row.amount
  | .totalAmount => row.totalAmount

/-- The crossings of one change, threshold by threshold. -/
def thresholdCrossings (observation : BoostObservation Digest) (metric : BoostMetric)
    (previous current : Int) : List BoostEvent :=
  boostThresholds.filterMap fun threshold =>
    let crossedUp := previous < threshold && threshold ≤ current
    let crossedDown := threshold ≤ previous && current < threshold
    if crossedUp || crossedDown then
      some {
        boostObservationId := observation.id
        tokenId := observation.tokenId
        eventType := .thresholdCrossing
        metric := metric
        direction := if crossedUp then .up else .down
        previousValue := some (.units previous)
        newValue := .units current
        thresholdValue := some threshold
        decidedAt := observation.receivedAt }
    else none

/-- The loop of `_record_events` over one metric. A NaN equals nothing and has no order. -/
def metricEvents (observation : BoostObservation Digest)
    (previous : Option (BoostObservation Digest)) (metric : BoostMetric) :
    Except EnrichmentError (List BoostEvent) :=
  match observation.metric metric with
  | none => .ok []
  | some current =>
    match previous.bind (·.metric metric) with
    | none =>
      .ok [{
        boostObservationId := observation.id
        tokenId := observation.tokenId
        eventType := .firstSeen
        metric := metric
        direction := .none
        previousValue := none
        newValue := current
        thresholdValue := none
        decidedAt := observation.receivedAt }]
    | some before =>
      match before, current with
      | .units p, .units c =>
        if p = c then .ok []
        else
          .ok ({
            boostObservationId := observation.id
            tokenId := observation.tokenId
            eventType := .stateChange
            metric := metric
            direction := if p < c then .up else .down
            previousValue := some before
            newValue := current
            thresholdValue := none
            decidedAt := observation.receivedAt } ::
              thresholdCrossings observation metric p c)
      | _, _ => .error .invalidOperation

/-- `_record_events`. -/
def observationEvents (observation : BoostObservation Digest)
    (previous : Option (BoostObservation Digest)) : Except EnrichmentError (List BoostEvent) := do
  let active ← metricEvents observation previous .activeBoostCount
  let amount ← metricEvents observation previous .amount
  let total ← metricEvents observation previous .totalAmount
  return active ++ amount ++ total

/-- An event of a known key is not inserted again. -/
def insertEvent (events : List BoostEvent) (event : BoostEvent) : List BoostEvent :=
  if events.any (·.key = event.key) then events else events ++ [event]

structure BoostStore (Digest : Type) where
  observations : List (BoostObservation Digest)
  events : List BoostEvent

/-- The end of `record_if_changed`: an inserted observation has its events recorded. -/
def recordEvents (events : List BoostEvent) (change : RecordedChange (BoostObservation Digest)) :
    Except EnrichmentError (BoostStore Digest × Option (BoostObservation Digest)) :=
  match change.stored with
  | none => .ok (⟨change.rows, events⟩, none)
  | some stored =>
    if change.inserted then do
      let recorded ← observationEvents stored change.previous
      return (⟨change.rows, recorded.foldl insertEvent events⟩, some stored)
    else .ok (⟨change.rows, events⟩, some stored)

/-- `BoostRepository.record_if_changed`. -/
def recordBoost (d : BoostDelivery) (store : BoostStore Digest) :
    Except EnrichmentError (BoostStore Digest × Option (BoostObservation Digest)) :=
  if d.fact.isAbsent then .ok (store, none)
  else do
    let change ← recordChange BoostObservation.toEnrichmentRow (·.scope = d.scope) (fun _ => d.fits)
      "boost identity maps to different content" (d.values hashing) store.observations
    recordEvents store.events change

end Repositories

end PumpResearch.Collection
