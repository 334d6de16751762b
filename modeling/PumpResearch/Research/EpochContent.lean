import PumpResearch.Library.ConsecutiveRanges
import PumpResearch.Research.Contracts

/-! The tables that histories are read from, and how their rows belong to a collection epoch. -/
namespace PumpResearch.Research
open ConsecutiveRanges

/-! ### Fact families -/

/-- The families of `_selective_security`. -/
inductive SelectiveFamily where
  | holderSnapshots
  | traderDistributionSnapshots
  | creatorHistorySnapshots
  | liquidityEventEvidence
  | walletRelationshipEdges
  | fundingRelationshipEvidence
  | walletClusterSnapshots
  | securityFeatureSnapshots
deriving DecidableEq, Repr

def SelectiveFamily.name : SelectiveFamily → String
  | .holderSnapshots => "holder_snapshots"
  | .traderDistributionSnapshots => "trader_distribution_snapshots"
  | .creatorHistorySnapshots => "creator_history_snapshots"
  | .liquidityEventEvidence => "liquidity_event_evidence"
  | .walletRelationshipEdges => "wallet_relationship_edges"
  | .fundingRelationshipEvidence => "funding_relationship_evidence"
  | .walletClusterSnapshots => "wallet_cluster_snapshots"
  | .securityFeatureSnapshots => "security_feature_snapshots"

def SelectiveFamily.all : List SelectiveFamily :=
  [.holderSnapshots, .traderDistributionSnapshots, .creatorHistorySnapshots,
    .liquidityEventEvidence, .walletRelationshipEdges, .fundingRelationshipEvidence,
    .walletClusterSnapshots, .securityFeatureSnapshots]

theorem SelectiveFamily.mem_all (kind : SelectiveFamily) : kind ∈ SelectiveFamily.all := by
  cases kind <;> simp [SelectiveFamily.all]

/-- The tables with a `collection_epoch_id` column; the others name their candidate only. -/
def SelectiveFamily.namesEpoch : SelectiveFamily → Bool
  | .holderSnapshots | .traderDistributionSnapshots | .creatorHistorySnapshots
  | .securityFeatureSnapshots => true
  | .liquidityEventEvidence | .walletRelationshipEdges | .fundingRelationshipEvidence
  | .walletClusterSnapshots => false

/-- The row families that are read once for all tokens, under their output names. -/
inductive FactFamily where
  | observations
  | lifecycle
  | discoveries
  | pairFacts
  | boosts
  | metadata
  | security
  | coverage
  | candidates
  | candidateTiers
  | selective (kind : SelectiveFamily)
deriving DecidableEq, Repr

def FactFamily.name : FactFamily → String
  | .observations => "observations"
  | .lifecycle => "lifecycle"
  | .discoveries => "discoveries"
  | .pairFacts => "pair_facts"
  | .boosts => "boosts"
  | .metadata => "metadata"
  | .security => "security"
  | .coverage => "coverage"
  | .candidates => "candidates"
  | .candidateTiers => "candidate_tiers"
  | .selective kind => kind.name

def FactFamily.all : List FactFamily :=
  [.observations, .lifecycle, .discoveries, .pairFacts, .boosts, .metadata, .security, .coverage,
    .candidates, .candidateTiers] ++ SelectiveFamily.all.map .selective

theorem FactFamily.mem_all (family : FactFamily) : family ∈ FactFamily.all := by
  cases family <;> simp [FactFamily.all, SelectiveFamily.mem_all]

/-- The fact that a row of a family becomes. -/
def FactFamily.Fact : FactFamily → Type
  | .observations => ObservationFact
  | .lifecycle => LifecycleFact
  | .discoveries => DiscoveryFact
  | .pairFacts => PairFact
  | .boosts => BoostFact
  | .metadata => MetadataFact
  | .security => SecurityFact
  | .coverage => CoverageFact
  | .candidates => CandidateFact
  | .candidateTiers => CandidateTierFact
  | .selective _ => SelectiveSecurityFact

def FactFamily.id : (family : FactFamily) → family.Fact → String
  | .observations => ObservationFact.id
  | .lifecycle => LifecycleFact.id
  | .discoveries => DiscoveryFact.id
  | .pairFacts => PairFact.id
  | .boosts => BoostFact.id
  | .metadata => MetadataFact.id
  | .security => SecurityFact.id
  | .coverage => CoverageFact.id
  | .candidates => CandidateFact.id
  | .candidateTiers => CandidateTierFact.id
  | .selective _ => SelectiveSecurityFact.id

/-- The timestamp column of a family: its exports and its reads are bounded on it. -/
def FactFamily.time : (family : FactFamily) → family.Fact → Timestamp
  | .observations => ObservationFact.receivedAt
  | .lifecycle => LifecycleFact.decidedAt
  | .discoveries => DiscoveryFact.receivedAt
  | .pairFacts => PairFact.receivedAt
  | .boosts => BoostFact.receivedAt
  | .metadata => MetadataFact.receivedAt
  | .security => SecurityFact.receivedAt
  | .coverage => CoverageFact.decidedAt
  | .candidates => CandidateFact.candidateAt
  | .candidateTiers => CandidateTierFact.decidedAt
  | .selective _ => SelectiveSecurityFact.receivedAt

/-- The primary key of a family: observations are keyed by their receipt time too. -/
def FactFamily.key (family : FactFamily) (fact : family.Fact) : Option Timestamp × String :=
  (if family = .observations then some (family.time fact) else none, family.id fact)

/-- Rows of these tables name a pair; all others name their token. -/
def FactFamily.viaPair : FactFamily → Bool
  | .observations | .pairFacts => true
  | _ => false

/-! ### Tables -/

structure BoostReference where
  collectorRunId : Option String
  pairId : Option String

structure CoverageReference where
  collectionEpochId : Option String
  collectorRunId : Option String

/-- The columns by which a row belongs to an epoch: a run, a request, the epoch itself, or a
candidate. -/
def FactFamily.Reference : FactFamily → Type
  | .observations => String
  | .lifecycle | .discoveries | .pairFacts | .metadata | .security => Option String
  | .boosts => BoostReference
  | .coverage => CoverageReference
  | .candidates | .candidateTiers | .selective _ => String

/-- A row of a family's table. Its subject is the `pair_id` or the `token_id`. -/
structure FamilyRow (family : FactFamily) where
  subject : String
  reference : family.Reference
  fact : family.Fact

structure TokenRow where
  id : String
  chain : String
  address : String
deriving DecidableEq

structure PairRow where
  id : String
  tokenId : String
  address : String
deriving DecidableEq

structure CollectorRunRow where
  id : String
  collectionEpochId : String
  startedAt : Timestamp
  collectionStartedAt : Option Timestamp

structure ApiRequestRow where
  id : String
  collectorRunId : Option String

structure MarketContextRow where
  collectionEpochId : String
  fact : MarketContextFact

inductive EpochStatus where
  | planned
  | running
  | completed
  | aborted
  | invalid
deriving DecidableEq, Repr

/-- An epoch with its current projection. -/
structure EpochRow where
  id : String
  number : Int
  status : EpochStatus
  dataValid : Bool
  startedAt : Option Timestamp
  endedAt : Option Timestamp

/-- The tables of the database, under their primary keys. -/
structure ResearchDatabase where
  epochs : List EpochRow
  runs : List CollectorRunRow
  requests : List ApiRequestRow
  tokens : List TokenRow
  pairs : List PairRow
  rows : (family : FactFamily) → List (FamilyRow family)
  contexts : List MarketContextRow
  epochs_unique : (epochs.map (·.id)).Nodup
  numbers_unique : (epochs.map (·.number)).Nodup
  runs_unique : (runs.map (·.id)).Nodup
  requests_unique : (requests.map (·.id)).Nodup
  contexts_unique : (contexts.map (·.fact.id)).Nodup
  rows_unique : ∀ family, ((rows family).map fun row => family.key row.fact).Nodup
  tokens_unique : (tokens.map (·.id)).Nodup
  pairs_unique : (pairs.map (·.id)).Nodup

section Tables
variable (db : ResearchDatabase)

def ResearchDatabase.runInEpoch (epochId runId : String) : Bool :=
  db.runs.any fun run => run.id = runId && run.collectionEpochId = epochId

def ResearchDatabase.requestInEpoch (epochId requestId : String) : Bool :=
  db.requests.any fun request =>
    request.id = requestId && request.collectorRunId.any (db.runInEpoch epochId)

def ResearchDatabase.candidateInEpoch (epochId candidateId : String) : Bool :=
  (db.rows .candidates).any fun row =>
    let collectionEpochId : String := row.reference
    CandidateFact.id row.fact = candidateId && collectionEpochId = epochId

/-- `COALESCE(cd.collection_epoch_id, cr.collection_epoch_id)`. -/
def ResearchDatabase.coverageInEpoch (epochId : String) (reference : CoverageReference) : Bool :=
  match reference.collectionEpochId with
  | some id => id = epochId
  | none => reference.collectorRunId.any (db.runInEpoch epochId)

/-- The epoch condition of a family's export query. -/
def ResearchDatabase.inEpoch (epochId : String) :
    (family : FactFamily) → family.Reference → Bool
  | .observations => fun requestId => db.requestInEpoch epochId requestId
  | .lifecycle | .discoveries | .pairFacts | .metadata | .security => fun runId =>
    Option.any (db.runInEpoch epochId) runId
  | .boosts => fun reference => reference.collectorRunId.any (db.runInEpoch epochId)
  | .coverage => fun reference => db.coverageInEpoch epochId reference
  | .candidates | .candidateTiers => fun (id : String) => decide (id = epochId)
  | .selective kind => fun (id : String) =>
    if kind.namesEpoch then decide (id = epochId) else db.candidateInEpoch epochId id

/-- A row is about a token, directly or through its pair. -/
def ResearchDatabase.names (family : FactFamily) (row : FamilyRow family) (token : TokenRow) :
    Bool :=
  if family.viaPair then
    db.pairs.any fun pair => pair.id = row.subject && pair.tokenId = token.id
  else row.subject = token.id

end Tables

/-- Rows of one table under a unique key are the same row. -/
theorem eq_of_unique {α κ : Type} {key : α → κ} {rows : List α} (h : (rows.map key).Nodup) {a b : α}
    (ha : a ∈ rows) (hb : b ∈ rows) (heq : key a = key b) : a = b :=
  List.inj_on_of_nodup_map h ha hb heq

end PumpResearch.Research
