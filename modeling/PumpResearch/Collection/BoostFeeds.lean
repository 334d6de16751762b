import PumpResearch.Collection.EnrichmentRecords

/-! The boost feeds: a response is one request row, and each of its tracked records is a transaction
of its own that records a boost and metadata. -/
namespace PumpResearch.Collection
open Discovery KeyedTable PythonJson Results Utf8

/-! ### Records -/

/-- `DexScreenerBoostFeedLink`. -/
structure BoostFeedLink where
  linkType : Option Text
  label : Option Text
  url : Option Text

def isFiniteDecimal : PyDecimal → Bool
  | .finite _ _ _ => true
  | _ => false

/-- `DexScreenerBoostFeedRecord`, whose decimals are finite, with the digest of its raw record. -/
structure BoostFeedRecord where
  chainId : Option Text
  tokenAddress : Option Text
  amount : Option PyDecimal
  totalAmount : Option PyDecimal
  icon : Option Text
  header : Option Text
  links : Option (List BoostFeedLink)
  recordSha256 : HexDigest
  amount_finite : amount.all isFiniteDecimal = true
  totalAmount_finite : totalAmount.all isFiniteDecimal = true

/-- `a or b`. -/
def orText (a b : Option Text) : Option Text :=
  match a with
  | some (c :: rest) => some (c :: rest)
  | _ => b

/-- What `_feed_metadata` has read of the links. -/
structure FeedLinks where
  website : Option Text
  twitter : Option Text
  telegram : Option Text
  other : List JsonValue

def jsonText : Option Text → JsonValue
  | none => .null
  | some s => .str s

/-- `link.model_dump(mode="json")`. -/
def BoostFeedLink.dump (link : BoostFeedLink) : JsonValue :=
  .dict [(text "type", jsonText link.linkType), (text "label", jsonText link.label),
    (text "url", jsonText link.url)]

/-- One round of the loop of `_feed_metadata`. -/
def readLink (lower : Text → Text) (read : FeedLinks) (link : BoostFeedLink) : FeedLinks :=
  let kind := lower ((orText link.linkType link.label).getD [])
  let placed :=
    if text "twitter" <:+: kind ∨ kind = text "x" then
      { read with twitter := orText read.twitter link.url }
    else if text "telegram" <:+: kind then
      { read with telegram := orText read.telegram link.url }
    else if read.website = none then { read with website := link.url }
    else read
  if orText link.url none = none then placed
  else { placed with other := placed.other ++ [link.dump] }

/-- `_feed_metadata`. -/
def feedMetadata (lower : Text → Text) (record : BoostFeedRecord) : MetadataCreate :=
  let read := (record.links.getD []).foldl (readLink lower) ⟨none, none, none, []⟩
  { name := none
    symbol := none
    metadataUri := none
    imageUrl := record.icon
    headerUrl := record.header
    websiteUrl := read.website
    twitter := read.twitter
    telegram := read.telegram
    otherLinks := if read.other = [] then none else some read.other }

/-! ### Acceptance -/

def storableText (value : Option Text) : Bool :=
  value.all fun s => !hasNul s && !hasSurrogate s

def BoostFeedRecord.storable (record : BoostFeedRecord) : Bool :=
  storableText record.icon && storableText record.header &&
    (record.links.getD []).all fun link =>
      storableText link.linkType && storableText link.label && storableText link.url

/-- What the column of the request row accepts: a JSONB array has at most this many elements, and
its texts are storable. -/
def acceptedFeed (records : List BoostFeedRecord) : Bool :=
  records.length ≤ 268435455 && records.all BoostFeedRecord.storable

/-! ### Tracked records -/

/-- The addresses whose tokens the workflow looks up. -/
def feedAddresses (records : List BoostFeedRecord) : List Text :=
  records.filterMap fun record =>
    if record.chainId = some (text "solana") then orText record.tokenAddress none else none

/-- `tokens_by_address.get(record.token_address or "")`. The chain of the record itself is not
compared. -/
def trackedToken (tokens : Table DiscoveredAddress.identity) (records : List BoostFeedRecord)
    (record : BoostFeedRecord) : Option Uuid :=
  let address := record.tokenAddress.getD []
  if address ∈ feedAddresses records then
    (tokens.find? (text "solana", address)).map (·.id)
  else none

structure TrackedRecord where
  tokenId : Uuid
  position : Nat
  record : BoostFeedRecord

def TrackedRecord.fact (entry : TrackedRecord) : BoostCreate :=
  ⟨none, entry.record.amount, entry.record.totalAmount⟩

def trackedRecords (tokens : Table DiscoveredAddress.identity) (records : List BoostFeedRecord) :
    List TrackedRecord :=
  records.zipIdx.filterMap fun entry =>
    (trackedToken tokens records entry.1).map fun tokenId => ⟨tokenId, entry.2, entry.1⟩

/-! ### Collection -/

inductive FeedKind where
  | latest
  | top
deriving DecidableEq

/-- `f"{feed_kind}_feed"`. -/
def FeedKind.source : FeedKind → BoostSource
  | .latest => .latestFeed
  | .top => .topFeed

/-- A response: its feed, the row of its request, and when it was received. -/
structure FeedRequest where
  kind : FeedKind
  collectorRunId : Uuid
  requestId : Uuid
  receivedAt : Int

/-- `f"records[{index}]"`. -/
def recordLocator (position : Nat) : Text :=
  text "records[" ++ (text (String.ofList (Nat.toDigits 10 position)) ++ text "]")

def providerName : Text := text "dexscreener"

section Collection
variable (lower : Text → Text) (request : FeedRequest) (entry : TrackedRecord)

def feedBoost : BoostDelivery where
  tokenId := entry.tokenId
  pairId := none
  collectorRunId := some request.collectorRunId
  apiRequestLogId := request.requestId
  provider := providerName
  sourceKind := request.kind.source
  feedRank := some (entry.position + 1)
  sourceObservedAt := none
  receivedAt := request.receivedAt
  sourceRecordLocator := recordLocator entry.position
  sourceRecordSha256 := entry.record.recordSha256.digits
  fact := entry.fact

def feedMetadataDelivery : MetadataDelivery where
  tokenId := entry.tokenId
  pairId := none
  collectorRunId := some request.collectorRunId
  apiRequestLogId := some request.requestId
  discoveryEventId := none
  provider := providerName
  sourceKind := .boostFeed
  sourceObservedAt := none
  receivedAt := request.receivedAt
  sourceRecordLocator := recordLocator entry.position
  sourceRecordSha256 := entry.record.recordSha256.digits
  metadata := feedMetadata lower entry.record

structure FeedStore (Digest : Type) where
  boosts : BoostStore Digest
  metadata : List (TokenMetadataEvent Digest)

variable {Digest : Type} [DecidableEq Digest] (hashing : EnrichmentHashing Digest)

/-- The transaction of one tracked record. -/
def collectRecord (store : FeedStore Digest) : Except EnrichmentError (FeedStore Digest) := do
  let (boosts, _) ← recordBoost hashing (feedBoost request entry) store.boosts
  let change ← recordMetadata hashing (feedMetadataDelivery lower request entry) store.metadata
  return ⟨boosts, change.rows⟩

/-- The loop of `collect`: a record that is refused ends it, and leaves those before it stored. -/
def collectRecords : List TrackedRecord → FeedStore Digest → FeedStore Digest
  | [], store => store
  | entry :: rest, store =>
    match collectRecord lower request entry hashing store with
    | .ok store' => collectRecords rest store'
    | .error _ => store

/-- `collect`, from the response on: what it leaves in the tables of boosts and metadata. -/
def collectFeed (tokens : Table DiscoveredAddress.identity) (records : List BoostFeedRecord)
    (store : FeedStore Digest) : FeedStore Digest :=
  if acceptedFeed records then
    collectRecords lower request hashing (trackedRecords tokens records) store
  else store

end Collection

end PumpResearch.Collection
