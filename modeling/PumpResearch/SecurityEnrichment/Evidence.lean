import PumpResearch.Candidates.Tasks
import PumpResearch.Library.KeyedOrder
import PumpResearch.Library.Results

/-! Append-only persistence of selective security evidence. A row is inserted under an identity
derived from part of its content, read back, and compared column by column. -/
namespace PumpResearch.SecurityEnrichment
open Candidates KeyedOrder KeyedTable Results

/-! ### Contracts -/

inductive EvidenceAvailability where
  | available
  | partly
  | unavailable
  | failed
deriving DecidableEq

def EvidenceAvailability.value : EvidenceAvailability → String
  | .available => "available"
  | .partly => "partial"
  | .unavailable => "unavailable"
  | .failed => "failed"

inductive EvidenceCompleteness where
  | fullDistribution
  | top20TokenAccounts
  | closedTimeRange
  | partialPagination
  | boundedGraph
  | unknown
deriving DecidableEq

def EvidenceCompleteness.value : EvidenceCompleteness → String
  | .fullDistribution => "full_distribution"
  | .top20TokenAccounts => "top_20_token_accounts"
  | .closedTimeRange => "closed_time_range"
  | .partialPagination => "partial_pagination"
  | .boundedGraph => "bounded_graph"
  | .unknown => "unknown"

inductive AcquisitionMode where
  | historicallyAvailable
  | retrospectivelyReconstructed
deriving DecidableEq

def AcquisitionMode.value : AcquisitionMode → String
  | .historicallyAvailable => "historically_available"
  | .retrospectivelyReconstructed => "retrospectively_reconstructed"

/-- The payload of an answer is kept as its canonical JSON text. -/
structure EvidenceEnvelope where
  provider : String
  providerSchemaVersion : String
  sourceObservedAt : Option Int
  receivedAt : Int
  availability : EvidenceAvailability
  completeness : EvidenceCompleteness
  acquisitionMode : AcquisitionMode
  sourceSlot : Option Int := none
  pageCursor : Option String := none
  nextCursor : Option String := none
  httpStatusCode : Option Int := none
  failureCode : Option String := none
  rawPayload : Option String := none
  failed_has_code : availability = .failed → failureCode.isSome = true
  status_valid : ∀ code ∈ httpStatusCode, 100 ≤ code ∧ code ≤ 599

/-- An envelope without a status has none out of bounds. -/
theorem status_valid_none : ∀ code ∈ (none : Option Int), 100 ≤ code ∧ code ≤ 599 :=
  fun _ h => by cases h

inductive TradeSide where
  | buy
  | sell
  | unknown
deriving DecidableEq

structure TradeFact where
  signature : String
  sourceSlot : Option Int
  sourceEventAt : Option Int
  receivedAt : Int
  wallet : Option String
  side : TradeSide
  notionalUsd : Option ℚ
  sequence : Int
  notional_nonneg : ∀ notional ∈ notionalUsd, 0 ≤ notional
deriving DecidableEq

structure TraderEvidencePage where
  envelope : EvidenceEnvelope
  windowStart : Int
  windowEnd : Int
  trades : List TradeFact
  window_pos : windowStart < windowEnd

inductive WalletRelationshipType where
  | commonFunder
  | directTransfer
  | coTradeTiming
  | repeatedSizePattern
  | creatorLink
  | lpLink
  | sharedRecentFunding
deriving DecidableEq

def WalletRelationshipType.value : WalletRelationshipType → String
  | .commonFunder => "COMMON_FUNDER"
  | .directTransfer => "DIRECT_TRANSFER"
  | .coTradeTiming => "CO_TRADE_TIMING"
  | .repeatedSizePattern => "REPEATED_SIZE_PATTERN"
  | .creatorLink => "CREATOR_LINK"
  | .lpLink => "LP_LINK"
  | .sharedRecentFunding => "SHARED_RECENT_FUNDING"

structure WalletEdgeFact where
  walletA : String
  walletB : String
  relationshipType : WalletRelationshipType
  firstObservedAt : Int
  evidenceReceivedAt : Int
  strengthCount : Int
  sourceFactIds : List String
  wallets_differ : walletA ≠ walletB
  strength_pos : 0 < strengthCount

structure WalletEdgeEvidencePage where
  envelope : EvidenceEnvelope
  edges : List WalletEdgeFact

structure FundingFact where
  wallet : String
  fundingSource : String
  fundingAt : Option Int
  receivedAt : Int
  amountLamports : Option Int
  hopDepth : Int
  sourceSignature : String
  completeness : EvidenceCompleteness
  hop_bounds : 1 ≤ hopDepth ∧ hopDepth ≤ 2
  amount_nonneg : ∀ amount ∈ amountLamports, 0 ≤ amount

structure FundingEvidencePage where
  envelope : EvidenceEnvelope
  relationships : List FundingFact

structure WalletClusterResult where
  clusterId : String
  members : List String
  inputEdgeSha256 : String
  explanation : List String

/-- The values are kept as their canonical JSON text. -/
structure SecurityFeatureValues where
  values : String
  schemaSha256 : String
  inputSha256 : String
  inputFactIds : List String

/-- The claim of a candidate task with the rows it refers to. -/
structure SecurityTaskContext where
  claim : TaskClaim
  candidateId : Uuid
  tokenId : Uuid
  tokenAddress : String
  collectionEpochId : Uuid
  collectorRunId : Option Uuid
  pairId : Option Uuid
  pairAddress : Option String

/-! ### Rows and identities -/

/-- A stored column value. -/
inductive Column where
  | null
  | uuid (value : Uuid)
  | text (value : String)
  | number (value : Int)
  | instant (value : Int)
  | decimal (value : ℚ)
  | texts (values : List String)
deriving DecidableEq

def Column.ofOption {α : Type} (column : α → Column) (value : Option α) : Column :=
  value.elim .null column

/-- A row of an evidence table: its two identities and its other columns, in order. -/
structure EvidenceRow where
  id : Uuid
  semanticKey : String
  columns : List (String × Column)
deriving DecidableEq

def EvidenceRow.fields (row : EvidenceRow) : List (String × Column) :=
  ("id", .uuid row.id) :: ("semantic_key", .text row.semanticKey) :: row.columns

/-- `getattr(row, field)`. -/
def EvidenceRow.get? (row : EvidenceRow) (field : String) : Option Column :=
  row.fields.lookup field

abbrev EvidenceTable := Table EvidenceRow.semanticKey

structure SecurityStore where
  requests : EvidenceTable
  traders : EvidenceTable
  edges : EvidenceTable
  clusters : EvidenceTable
  fundings : EvidenceTable
  features : EvidenceTable

def emptyStore : SecurityStore where
  requests := Table.empty
  traders := Table.empty
  edges := Table.empty
  clusters := Table.empty
  fundings := Table.empty
  features := Table.empty

/-- The JSON documents behind semantic keys and input digests. -/
inductive SemanticDocument where
  | payload (json : String)
  | sourceFactIds (ids : List String)
  | request (task : Uuid) (provider method : String) (cursor : Option String) (receivedAt : Int)
      (payload failure : Option String)
  | traders (task : Uuid) (windowStart windowEnd : Int) (input : String)
  | edge (candidate : Uuid) (a b relationship : String) (facts : List String)
  | funding (candidate : Uuid) (wallet source signature : String) (hop : Int)
  | cluster (candidate : Uuid) (cluster : String) (received : Int)
  | features (candidate : Uuid) (received : Int) (input schema policy : String)

/-- SHA-256 over canonical JSON, the UUID of a name, and their texts. -/
structure EvidenceIdentities where
  digest : SemanticDocument → String
  uuid5 : String → Uuid
  uuidString : Uuid → String
  sha256 : String → String

inductive EvidenceError where
  | integrity (message : String)
  | provider (message : String)
deriving DecidableEq

/-! ### Verified inserts -/

/-- The first value that differs from the stored one. -/
def firstDifference (row values : EvidenceRow) : Option String :=
  (values.fields.find? fun field => row.get? field.1 ≠ some field.2).map (·.1)

/-- `_insert_verified`: insert without conflict on either identity, read back by the semantic
key, and compare. -/
def insertVerified (values : EvidenceRow) (table : EvidenceTable) :
    Except EvidenceError (EvidenceTable × EvidenceRow) :=
  let table' := if table.rows.any (·.id = values.id) then table else table.insertNew values
  match table'.find? values.semanticKey with
  | none => .error (.integrity "security evidence insert/readback failed")
  | some row =>
    match firstDifference row values with
    | some field =>
      .error (.integrity ("security evidence identity maps to different " ++ field))
    | none => .ok (table', row)

section Verified
variable {values row : EvidenceRow} {table table' : EvidenceTable}

theorem firstDifference_eq_none :
    firstDifference row values = none ↔ ∀ field ∈ values.fields, row.get? field.1 = some field.2 := by
  simp [firstDifference, List.find?_eq_none]

/-- Distinct field names: every value of a row is read back as itself. -/
def EvidenceRow.WellNamed (row : EvidenceRow) : Prop := (row.fields.map (·.1)).Nodup

theorem get?_of_mem_fields (hnames : row.WellNamed) {field : String × Column}
    (h : field ∈ row.fields) : row.get? field.1 = some field.2 := by
  unfold EvidenceRow.WellNamed at hnames
  unfold EvidenceRow.get?
  generalize row.fields = fields at h hnames
  induction fields with
  | nil => cases h
  | cons first rest ih =>
    obtain ⟨name, value⟩ := first
    rw [List.map_cons, List.nodup_cons] at hnames
    cases List.mem_cons.mp h with
    | inl heq =>
      subst heq
      simp
    | inr hin =>
      have hne : field.1 ≠ name := fun heq => hnames.1 (List.mem_map.mpr ⟨field, hin, heq⟩)
      rw [List.lookup_cons, beq_false_of_ne hne]
      exact ih hin hnames.2

/-- What a verified insert returns is stored, under the same key, with the same values. -/
theorem insertVerified_eq_ok (h : insertVerified values table = .ok (table', row)) :
    (table' = table ∨ table'.rows = table.rows ++ [values]) ∧ row ∈ table'.rows ∧
      row.semanticKey = values.semanticKey ∧
      ∀ field ∈ values.fields, row.get? field.1 = some field.2 := by
  simp only [insertVerified] at h
  split at h
  · cases h
  · next stored hstored =>
    split at h
    · cases h
    · next hsame =>
      cases h
      obtain ⟨hmem, hkey⟩ := Table.find?_eq_some_iff.mp hstored
      refine ⟨?_, hmem, hkey, firstDifference_eq_none.mp hsame⟩
      split
      · exact .inl rfl
      · cases hf : table.find? values.semanticKey with
        | none => exact .inr (Table.rows_insertNew_of_find?_eq_none hf)
        | some other => exact .inl (Table.insertNew_eq_self hf)

theorem get?_id (row : EvidenceRow) : row.get? "id" = some (.uuid row.id) := rfl

/-- A row under free identities is stored as it is. -/
theorem insertVerified_of_free (hnames : values.WellNamed)
    (hid : ∀ stored ∈ table.rows, stored.id ≠ values.id)
    (hkey : ∀ stored ∈ table.rows, stored.semanticKey ≠ values.semanticKey) :
    ∃ table', insertVerified values table = .ok (table', values) ∧
      table'.rows = table.rows ++ [values] := by
  have hnone : table.find? values.semanticKey = none := Table.find?_eq_none_iff.mpr hkey
  have hany : ¬ table.rows.any (·.id = values.id) = true := by
    simpa using hid
  have hfound : (table.insertNew values).find? values.semanticKey = some values := by
    rw [Table.find?_insertNew, hnone, if_pos rfl]
    rfl
  have hsame : firstDifference values values = none :=
    firstDifference_eq_none.mpr fun field hfield => get?_of_mem_fields hnames hfield
  refine ⟨table.insertNew values, ?_, Table.rows_insertNew_of_find?_eq_none hnone⟩
  simp only [insertVerified, if_neg hany, hfound, hsame]

/-- A row whose semantic key is taken by a row with another value is refused. -/
theorem insertVerified_conflict {stored : EvidenceRow} (hstored : stored ∈ table.rows)
    (hkey : stored.semanticKey = values.semanticKey) {field : String × Column}
    (hfield : field ∈ values.fields) (hne : stored.get? field.1 ≠ some field.2) :
    ∃ message, insertVerified values table = .error (.integrity message) := by
  have hfound : table.find? values.semanticKey = some stored :=
    Table.find?_eq_some_iff.mpr ⟨hstored, hkey⟩
  have hdiffers : firstDifference stored values ≠ none := fun hsame =>
    hne (firstDifference_eq_none.mp hsame field hfield)
  obtain ⟨name, hname⟩ := Option.ne_none_iff_exists'.mp hdiffers
  refine ⟨"security evidence identity maps to different " ++ name, ?_⟩
  have htable : (if table.rows.any (·.id = values.id) then table else table.insertNew values) =
      table := by
    split
    · rfl
    · exact Table.insertNew_eq_self hfound
  simp only [insertVerified, htable, hfound, hname]

end Verified

/-! ### Recording evidence -/

section Records
variable (ids : EvidenceIdentities) (context : SecurityTaskContext)

def requestDocument (method : String) (envelope : EvidenceEnvelope) : SemanticDocument :=
  .request context.claim.id envelope.provider method envelope.pageCursor envelope.receivedAt
    (envelope.rawPayload.map fun payload => ids.digest (.payload payload)) envelope.failureCode

/-- The row of `record_provider_request`. Its identity contains the receipt time. -/
def requestRow (method : String) (requestedAt : Int) (envelope : EvidenceEnvelope)
    (requestPayload : String) : EvidenceRow :=
  let payloadSha := envelope.rawPayload.map fun payload => ids.digest (.payload payload)
  let semantic := ids.digest (requestDocument ids context method envelope)
  { id := ids.uuid5 ("pump-research:security-request:" ++ semantic)
    semanticKey := semantic
    columns := [
      ("candidate_task_id", .uuid context.claim.id),
      ("candidate_id", .uuid context.candidateId),
      ("token_id", .uuid context.tokenId),
      ("collection_epoch_id", .uuid context.collectionEpochId),
      ("collector_run_id", .ofOption .uuid context.collectorRunId),
      ("provider", .text envelope.provider),
      ("method", .text method),
      ("provider_schema_version", .text envelope.providerSchemaVersion),
      ("requested_at", .instant requestedAt),
      ("received_at", .instant envelope.receivedAt),
      ("outcome", .text envelope.availability.value),
      ("completeness", .text envelope.completeness.value),
      ("acquisition_mode", .text envelope.acquisitionMode.value),
      ("source_observed_at", .ofOption .instant envelope.sourceObservedAt),
      ("source_slot", .ofOption .number envelope.sourceSlot),
      ("page_cursor", .ofOption .text envelope.pageCursor),
      ("next_cursor", .ofOption .text envelope.nextCursor),
      ("http_status_code", .ofOption .number envelope.httpStatusCode),
      ("request_payload", .text requestPayload),
      ("response_payload", .ofOption .text envelope.rawPayload),
      ("response_payload_sha256", .ofOption .text payloadSha),
      ("failure_detail", .ofOption .text envelope.failureCode),
      ("schema_version", .number 1)] }

/-- `record_provider_request`. -/
def recordProviderRequest (method : String) (requestedAt : Int) (envelope : EvidenceEnvelope)
    (requestPayload : String) (store : SecurityStore) :
    Except EvidenceError (SecurityStore × EvidenceRow) := do
  let stored ← insertVerified
    (requestRow ids context method requestedAt envelope requestPayload) store.requests
  return ({ store with requests := stored.1 }, stored.2)

/-- The row of `record_trader_snapshot`. Its identity has the task, the window and the
signatures, but neither the request nor the receipt time. -/
def traderRow (request : EvidenceRow) (envelope : EvidenceEnvelope) (windowStart windowEnd : Int)
    (metrics : List (String × Column)) (sourceFactIds : List String) (pageCount : Nat)
    (policySha256 : String) : EvidenceRow :=
  let inputSha := ids.digest (.sourceFactIds (sortOn id sourceFactIds))
  let semantic := ids.digest (.traders context.claim.id windowStart windowEnd inputSha)
  { id := ids.uuid5 ("pump-research:traders:" ++ semantic)
    semanticKey := semantic
    columns := [
      ("token_id", .uuid context.tokenId),
      ("candidate_id", .uuid context.candidateId),
      ("candidate_task_id", .uuid context.claim.id),
      ("provider_request_id", .uuid request.id),
      ("collection_epoch_id", .uuid context.collectionEpochId),
      ("window_start", .instant windowStart),
      ("window_end", .instant windowEnd),
      ("source_observed_at", .ofOption .instant envelope.sourceObservedAt),
      ("received_at", .instant envelope.receivedAt),
      ("availability", .text envelope.availability.value),
      ("completeness", .text envelope.completeness.value),
      ("acquisition_mode", .text envelope.acquisitionMode.value)] ++ metrics ++ [
      ("new_wallet_ratio", .null),
      ("page_count", .number pageCount),
      ("source_fact_ids", .texts sourceFactIds),
      ("input_sha256", .text inputSha),
      ("policy_sha256", .text policySha256),
      ("schema_version", .number 1)] }

/-- `sorted((edge.wallet_a, edge.wallet_b))`. -/
def WalletEdgeFact.wallets (edge : WalletEdgeFact) : String × String :=
  if edge.walletA ≤ edge.walletB then (edge.walletA, edge.walletB)
  else (edge.walletB, edge.walletA)

/-- One row of `record_wallet_edges`. Its identity has the candidate, the wallets, the type and
the source facts. -/
def edgeRow (request : EvidenceRow) (envelope : EvidenceEnvelope) (edge : WalletEdgeFact) :
    EvidenceRow :=
  let semantic := ids.digest (.edge context.candidateId edge.wallets.1 edge.wallets.2
    edge.relationshipType.value (sortOn id edge.sourceFactIds))
  { id := ids.uuid5 ("pump-research:wallet-edge:" ++ semantic)
    semanticKey := semantic
    columns := [
      ("token_id", .uuid context.tokenId),
      ("candidate_id", .uuid context.candidateId),
      ("provider_request_id", .uuid request.id),
      ("wallet_a", .text edge.wallets.1),
      ("wallet_b", .text edge.wallets.2),
      ("relationship_type", .text edge.relationshipType.value),
      ("first_observed_at", .instant edge.firstObservedAt),
      ("evidence_received_at", .instant edge.evidenceReceivedAt),
      ("strength_count", .number edge.strengthCount),
      ("acquisition_mode", .text envelope.acquisitionMode.value),
      ("source_fact_ids", .texts edge.sourceFactIds),
      ("method_version", .text "bounded-wallet-evidence-v1"),
      ("schema_version", .number 1)] }

/-- One row of `record_funding`. Its identity has the candidate, the wallet, the source, the
signature and the depth. -/
def fundingRow (request : EvidenceRow) (envelope : EvidenceEnvelope) (item : FundingFact) :
    EvidenceRow :=
  let semantic := ids.digest (.funding context.candidateId item.wallet item.fundingSource
    item.sourceSignature item.hopDepth)
  { id := ids.uuid5 ("pump-research:funding:" ++ semantic)
    semanticKey := semantic
    columns := [
      ("token_id", .uuid context.tokenId),
      ("candidate_id", .uuid context.candidateId),
      ("provider_request_id", .uuid request.id),
      ("wallet", .text item.wallet),
      ("funding_source", .text item.fundingSource),
      ("funding_at", .ofOption .instant item.fundingAt),
      ("received_at", .instant item.receivedAt),
      ("amount_lamports", .ofOption .number item.amountLamports),
      ("hop_depth", .number item.hopDepth),
      ("source_signature", .text item.sourceSignature),
      ("completeness", .text item.completeness.value),
      ("acquisition_mode", .text envelope.acquisitionMode.value),
      ("schema_version", .number 1)] }

/-- One row of `record_clusters`. -/
def clusterRow (receivedAt : Int) (acquisitionMode : AcquisitionMode)
    (cluster : WalletClusterResult) : EvidenceRow :=
  let semantic := ids.digest (.cluster context.candidateId cluster.clusterId receivedAt)
  { id := ids.uuid5 ("pump-research:wallet-cluster:" ++ semantic)
    semanticKey := semantic
    columns := [
      ("cluster_id", .text cluster.clusterId),
      ("token_id", .uuid context.tokenId),
      ("candidate_id", .uuid context.candidateId),
      ("generated_at", .instant receivedAt),
      ("received_at", .instant receivedAt),
      ("acquisition_mode", .text acquisitionMode.value),
      ("algorithm_version", .text "explainable-connected-components-v1"),
      ("input_edge_sha256", .text cluster.inputEdgeSha256),
      ("members", .texts cluster.members),
      ("explanation", .texts cluster.explanation),
      ("schema_version", .number 1)] }

/-- The row of `record_security_features`. Its identity contains the receipt time. -/
def featureRow (receivedAt : Int) (acquisitionMode : AcquisitionMode)
    (features : SecurityFeatureValues) (policySha256 : String) : EvidenceRow :=
  let semantic := ids.digest (.features context.candidateId receivedAt features.inputSha256
    features.schemaSha256 policySha256)
  { id := ids.uuid5 ("pump-research:security-features:" ++ semantic)
    semanticKey := semantic
    columns := [
      ("token_id", .uuid context.tokenId),
      ("candidate_id", .uuid context.candidateId),
      ("collection_epoch_id", .uuid context.collectionEpochId),
      ("generated_at", .instant receivedAt),
      ("received_at", .instant receivedAt),
      ("acquisition_mode", .text acquisitionMode.value),
      ("feature_set_name", .text "security-v1"),
      ("feature_set_version", .text "1.0.0"),
      ("values", .text features.values),
      ("input_fact_ids", .texts features.inputFactIds),
      ("input_sha256", .text features.inputSha256),
      ("schema_sha256", .text features.schemaSha256),
      ("policy_sha256", .text policySha256),
      ("schema_version", .number 1)] }

end Records

/-- Insert rows one after another and return what is stored for them. -/
def insertAllVerified : List EvidenceRow → EvidenceTable →
    Except EvidenceError (EvidenceTable × List EvidenceRow)
  | [], table => .ok (table, [])
  | values :: rest, table => do
    let stored ← insertVerified values table
    let others ← insertAllVerified rest stored.1
    return (others.1, stored.2 :: others.2)

/-- Verified inserts only add rows. -/
theorem mem_of_insertAllVerified {values rows : List EvidenceRow} {table table' : EvidenceTable}
    (h : insertAllVerified values table = .ok (table', rows)) {row : EvidenceRow}
    (hrow : row ∈ table.rows) : row ∈ table'.rows := by
  induction values generalizing table rows with
  | nil =>
    cases h
    exact hrow
  | cons value rest ih =>
    simp only [insertAllVerified, bind_eq_ok, pure_eq_ok] at h
    obtain ⟨stored, hstored, others, hothers, hresult⟩ := h
    cases hresult
    refine ih hothers ?_
    cases (insertVerified_eq_ok hstored).1 with
    | inl hsame => rwa [hsame]
    | inr hnew =>
      rw [hnew]
      exact List.mem_append_left _ hrow

end PumpResearch.SecurityEnrichment
