import PumpResearch.SecurityEnrichment.Evidence

/-! The task executor of selective security evidence. Every page of trades is committed on its
own; the evidence of a task and its feature snapshot are committed together. -/
namespace PumpResearch.SecurityEnrichment
open Candidates KeyedOrder KeyedTable Results

/-- The bounds of the policy that an execution reads, and its digest. -/
structure EnrichmentPolicy where
  maxPagesPerTask : Nat
  maxWalletsPerCandidate : Nat
  maxEdgesPerCandidate : Nat
  maxFundingHops : Int
  sha256 : String
  maxPages_pos : 0 < maxPagesPerTask

/-- The fields of `TraderMetrics`. -/
def traderMetricNames : List String := [
  "total_trades", "buy_trades", "sell_trades", "unique_buyers", "unique_sellers",
  "unique_traders", "volume_usd", "median_trade_usd", "p90_trade_usd", "p95_trade_usd",
  "largest_trade_usd", "top_1_trader_volume_share", "top_5_trader_volume_share",
  "top_10_trader_volume_share", "repeat_trader_ratio", "buy_sell_wallet_overlap"]

/-- The derivations from collected facts. The metrics come as the columns that store them; the
features are derived from the stored evidence that is visible at a receipt time. -/
structure SecurityAnalysis where
  traderMetrics : List TradeFact → List (String × Column)
  clusterWalletEdges : List WalletEdgeFact → List WalletClusterResult
  features : SecurityStore → SecurityTaskContext → Int → SecurityFeatureValues
  metrics_named : ∀ trades, (traderMetrics trades).map Prod.fst = traderMetricNames
  clusters_nil : clusterWalletEdges [] = []

/-- `_partial`. -/
def degraded (envelope : EvidenceEnvelope) (code : String) : EvidenceEnvelope where
  provider := envelope.provider
  providerSchemaVersion := envelope.providerSchemaVersion
  sourceObservedAt := envelope.sourceObservedAt
  receivedAt := envelope.receivedAt
  availability := .partly
  completeness := .partialPagination
  acquisitionMode := envelope.acquisitionMode
  sourceSlot := envelope.sourceSlot
  pageCursor := envelope.pageCursor
  nextCursor := some ((envelope.nextCursor.filter (· ≠ "")).getD code)
  failureCode := some code
  rawPayload := envelope.rawPayload
  failed_has_code := fun h => by cases h
  status_valid := status_valid_none

/-- What `_result` returns to complete the task with. -/
structure TaskResult where
  identity : String
  sha256 : String
  receivedAt : Int
  outcome : EvidenceAvailability

section Worker
variable (ids : EvidenceIdentities) (analysis : SecurityAnalysis) (policy : EnrichmentPolicy)
  (context : SecurityTaskContext)

def taskResult (evidenceId featureId : Uuid) (envelope : EvidenceEnvelope) : TaskResult :=
  let identity := ids.uuidString evidenceId ++ ":" ++ ids.uuidString featureId
  ⟨identity, ids.sha256 identity, envelope.receivedAt, envelope.availability⟩

/-- `_refresh_features`. -/
def refreshFeatures (receivedAt : Int) (store : SecurityStore) :
    Except EvidenceError (SecurityStore × EvidenceRow) := do
  let stored ← insertVerified (featureRow ids context receivedAt .historicallyAvailable
    (analysis.features store context receivedAt) policy.sha256) store.features
  return ({ store with features := stored.1 }, stored.2)

/-! ### Trades -/

/-- The answer to a page request, and whether the budget admits the next one. -/
structure TraderReply where
  page : TraderEvidencePage
  reserveNext : Bool

/-- A page that was asked for under a cursor. -/
structure SentPage where
  cursor : Option String
  envelope : EvidenceEnvelope

structure TraderCollection where
  trades : List TradeFact
  pages : Nat
  envelope : EvidenceEnvelope

/-- Add the trades of a page by signature. -/
def mergeTrades : List TradeFact → List TradeFact → Except EvidenceError (List TradeFact)
  | trades, [] => .ok trades
  | trades, item :: rest =>
    match trades.find? (·.signature = item.signature) with
    | none => mergeTrades (trades ++ [item]) rest
    | some previous =>
      if previous = item then mergeTrades trades rest
      else .error (.provider "duplicate transaction signature maps to different parsed facts")

/-- The page loop of `_traders`: the pages asked for, and what they add up to. A reply of `none`
is a call that the provider failed. -/
def collectTraders : List (Option TraderReply) → List TradeFact → List SentPage →
    Option String → List SentPage × Except EvidenceError TraderCollection
  | [], _, sent, _ => (sent, .error (.provider "provider call failed"))
  | none :: _, _, sent, _ => (sent, .error (.provider "provider call failed"))
  | some reply :: rest, trades, sent, cursor =>
    match mergeTrades trades reply.page.trades with
    | .error error => (sent, .error error)
    | .ok merged =>
      let asked := sent ++ [⟨cursor, reply.page.envelope⟩]
      match reply.page.envelope.nextCursor with
      | none => (asked, .ok ⟨merged, asked.length, reply.page.envelope⟩)
      | some next =>
        if asked.length < policy.maxPagesPerTask then
          if reply.reserveNext then collectTraders rest merged asked (some next)
          else (asked, .ok ⟨merged, asked.length,
            degraded (degraded reply.page.envelope "provider_budget_mid_pagination")
              "maximum_pages_or_budget"⟩)
        else (asked, .ok ⟨merged, asked.length,
          degraded reply.page.envelope "maximum_pages_or_budget"⟩)

/-- The request payload of a task, as its canonical JSON text. -/
def tokenPayload (cursor : Option String) : String :=
  "token=" ++ context.tokenAddress ++ " cursor=" ++ cursor.getD "null"

/-- Commit the requests of pages, each on its own. -/
def recordPages (requestedAt : Int) : List SentPage → SecurityStore → Option EvidenceRow →
    SecurityStore × Except EvidenceError (Option EvidenceRow)
  | [], store, last => (store, .ok last)
  | page :: rest, store, _ =>
    match recordProviderRequest ids context "TRADER_DISTRIBUTION" requestedAt page.envelope
        (tokenPayload context page.cursor) store with
    | .error error => (store, .error error)
    | .ok recorded => recordPages requestedAt rest recorded.1 (some recorded.2)

/-- Evidence of such an answer is stored; any other is only logged as a request. -/
def Recordable (envelope : EvidenceEnvelope) : Prop :=
  envelope.availability = .available ∨ envelope.availability = .partly

instance decidableRecordable (envelope : EvidenceEnvelope) : Decidable (Recordable envelope) :=
  inferInstanceAs (Decidable (_ ∨ _))

def sourceIds (trades : List TradeFact) : List String :=
  sortOn id (trades.map (·.signature)).dedup

/-- The snapshot that a collection of trades is stored as. -/
def traderValues (request : EvidenceRow) (collection : TraderCollection) : EvidenceRow :=
  traderRow ids context request collection.envelope
    (context.claim.inputWatermark - seconds 3600) context.claim.inputWatermark
    (analysis.traderMetrics collection.trades) (sourceIds collection.trades) collection.pages
    policy.sha256

/-- The last transaction of `_traders`. -/
def traderEvidence (request : EvidenceRow) (collection : TraderCollection)
    (store : SecurityStore) : Except EvidenceError (SecurityStore × TaskResult) := do
  let recorded ←
    if Recordable collection.envelope then do
      let stored ←
        insertVerified (traderValues ids analysis policy context request collection) store.traders
      pure ({ store with traders := stored.1 }, stored.2.id)
    else pure (store, request.id)
  let feature ← refreshFeatures ids analysis policy context collection.envelope.receivedAt recorded.1
  return (feature.1, taskResult ids recorded.2 feature.2.id collection.envelope)

/-- `_traders`. -/
def traders (now : Int) (replies : List (Option TraderReply)) (store : SecurityStore) :
    SecurityStore × Except EvidenceError TaskResult :=
  let collected := collectTraders policy replies [] [] none
  match recordPages ids context now collected.1 store none with
  | (store', .error error) => (store', .error error)
  | (store', .ok last) =>
    match collected.2, last with
    | .error error, _ => (store', .error error)
    | .ok _, none => (store', .error (.provider "no page was requested"))
    | .ok collection, some request =>
      match traderEvidence ids analysis policy context request collection store' with
      | .error error => (store', .error error)
      | .ok result => (result.1, .ok result.2)

/-! ### Wallet edges and funding -/

/-- The wallets of edges, each once, in order. -/
def walletsOf (edges : List WalletEdgeFact) : List String :=
  sortOn id (edges.flatMap fun edge => [edge.walletA, edge.walletB]).dedup

/-- The edges within the bounds of the policy, and the envelope they are stored under. -/
def boundedEdges (page : WalletEdgeEvidencePage) : WalletEdgeEvidencePage :=
  let bounded := page.edges.take policy.maxEdgesPerCandidate
  if policy.maxWalletsPerCandidate < (walletsOf bounded).length then
    let allowed := (walletsOf bounded).take policy.maxWalletsPerCandidate
    { envelope := degraded page.envelope "wallet_or_edge_bound"
      edges := bounded.filter fun edge => edge.walletA ∈ allowed ∧ edge.walletB ∈ allowed }
  else { envelope := page.envelope, edges := bounded }

/-- The transaction of `_wallet_edges`. -/
def walletEdges (now : Int) (answer : WalletEdgeEvidencePage) (store : SecurityStore) :
    Except EvidenceError (SecurityStore × TaskResult) := do
  let page := boundedEdges policy answer
  let request ← recordProviderRequest ids context "WALLET_CLUSTER_ANALYSIS" now page.envelope
    ("wallet_limit=" ++ toString policy.maxWalletsPerCandidate) store
  let edges ← insertAllVerified
    (page.edges.map (edgeRow ids context request.2 page.envelope)) request.1.edges
  let clusters ← insertAllVerified ((analysis.clusterWalletEdges page.edges).map
    (clusterRow ids context page.envelope.receivedAt page.envelope.acquisitionMode))
    request.1.clusters
  let feature ← refreshFeatures ids analysis policy context page.envelope.receivedAt
    { request.1 with edges := edges.1, clusters := clusters.1 }
  return (feature.1, taskResult ids ((clusters.2.getLast?.map (·.id)).getD request.2.id)
    feature.2.id page.envelope)

/-- The relationships within the bounds of the policy. -/
def boundedFunding (relationships : List FundingFact) : List FundingFact :=
  (relationships.take (policy.maxWalletsPerCandidate * 2)).filter fun item =>
    item.hopDepth ≤ policy.maxFundingHops

/-- The transaction of `_funding`. -/
def funding (now : Int) (page : FundingEvidencePage) (store : SecurityStore) :
    Except EvidenceError (SecurityStore × TaskResult) := do
  let request ← recordProviderRequest ids context "FUNDING_GRAPH_ANALYSIS" now page.envelope
    ("maximum_hops=" ++ toString policy.maxFundingHops) store
  let fundings ← insertAllVerified ((boundedFunding policy page.relationships).map
    (fundingRow ids context request.2 page.envelope)) request.1.fundings
  let feature ← refreshFeatures ids analysis policy context page.envelope.receivedAt
    { request.1 with fundings := fundings.1 }
  return (feature.1, taskResult ids ((fundings.2.getLast?.map (·.id)).getD request.2.id)
    feature.2.id page.envelope)

/-! ### One execution of a task -/

/-- What the provider answers to a task, by the type of its analysis. -/
inductive ProviderAnswer where
  | traders (replies : List (Option TraderReply))
  | walletEdges (page : WalletEdgeEvidencePage)
  | funding (page : FundingEvidencePage)

/-- A transaction that raises leaves the store as it was. -/
def committed {α : Type} (store : SecurityStore)
    (result : Except EvidenceError (SecurityStore × α)) : SecurityStore × Except EvidenceError α :=
  match result with
  | .ok done => (done.1, .ok done.2)
  | .error error => (store, .error error)

/-- `_dispatch`, for the three analysis types. -/
def dispatch (now : Int) (answer : ProviderAnswer) (store : SecurityStore) :
    SecurityStore × Except EvidenceError TaskResult :=
  match answer with
  | .traders replies => traders ids analysis policy context now replies store
  | .walletEdges page => committed store (walletEdges ids analysis policy context now page store)
  | .funding page => committed store (funding ids analysis policy context now page store)

inductive ProcessOutcome where
  | deferred
  | failed
  | completed (result : TaskResult)

/-- `failed_envelope`. -/
def failedEnvelope (provider : String) (receivedAt : Int) (failureCode : String) :
    EvidenceEnvelope where
  provider := provider
  providerSchemaVersion := "unknown"
  sourceObservedAt := none
  receivedAt := receivedAt
  availability := .failed
  completeness := .unknown
  acquisitionMode := .historicallyAvailable
  failureCode := some failureCode
  failed_has_code := fun _ => rfl
  status_valid := status_valid_none

/-- `process_claim` up to the outcome it records for the task. Only provider failures are
caught. -/
def processClaim (provider : String) (now failedAt : Int) (admitted : Bool)
    (answer : ProviderAnswer) (store : SecurityStore) :
    SecurityStore × Except EvidenceError ProcessOutcome :=
  if admitted then
    match dispatch ids analysis policy context now answer store with
    | (store', .ok result) => (store', .ok (.completed result))
    | (store', .error (.integrity message)) => (store', .error (.integrity message))
    | (store', .error (.provider _)) =>
      match recordProviderRequest ids context context.claim.analysisType now
          (failedEnvelope provider failedAt "SecurityProviderError")
          ("task=" ++ ids.uuidString context.claim.id) store' with
      | .error error => (store', .error error)
      | .ok recorded => (recorded.1, .ok .failed)
  else (store, .ok .deferred)

end Worker

end PumpResearch.SecurityEnrichment
