import PumpResearch.Research.CandidateTimestamps
import PumpResearch.Research.Labels

/-! The dataset builder: its specification, the semantic snapshot that names a dataset, and
the rows it writes. Files, manifests and quality reports are left out. -/
namespace PumpResearch.Research
open KeyedOrder OrderedDict Results

/-- A value exists only if `__post_init__` accepted it. -/
structure DatasetBuildSpec where
  epochNumbers : List Int
  scopeStartAt : Timestamp
  scopeEndAt : Timestamp
  featureSet : FeatureSetContract := {}
  labelSet : LabelSetContract := {}
  candidatePolicy : CandidateTimestampPolicy := {}
  splitContract : Option ChronologicalSplitContract := none
  tokenAddresses : List String := []
  cohortRule : String := "all_valid_epoch_admitted_tokens"
  codeRevision : String := "unknown"
  configurationSha256 : String := "research-default"
  epochs_nonempty : epochNumbers ≠ []
  scope_ordered : scopeStartAt < scopeEndAt
  purge_covers_labels : ∀ contract ∈ splitContract, ∃ horizon,
    labelSet.horizonsSeconds.max? = some horizon ∧ horizon ≤ contract.maximumLabelHorizonSeconds

/-- `selected` of `build_dataset`. -/
def DatasetBuildSpec.select (spec : DatasetBuildSpec) (histories : List TokenHistory) :
    List TokenHistory :=
  histories.filter fun history =>
    decide (history.epochNumber ∈ spec.epochNumbers) &&
      (spec.tokenAddresses.isEmpty || decide (history.address ∈ spec.tokenAddresses))

/-- The sort key and the lookup key of a history. -/
def historyKey (history : TokenHistory) : Int ×ₗ String :=
  toLex (history.epochNumber, history.tokenId)

def identityDocument (history : TokenHistory) : FactDocument :=
  .identity history.epochId history.epochNumber history.epochDataValid history.tokenId
    history.chain history.address

/-- The hashed families, each by id: candidates, candidate tiers and selective security are
not among them. -/
def factDocuments (history : TokenHistory) : List FactDocument :=
  (sortOn (·.id) history.discoveries).map .discovery ++
  (sortOn (·.id) history.observations).map .observation ++
  (sortOn (·.id) history.lifecycle).map .lifecycle ++
  (sortOn (·.id) history.pairFacts).map .pair ++
  (sortOn (·.id) history.boosts).map .boost ++
  (sortOn (·.id) history.metadata).map .metadata ++
  (sortOn (·.id) history.security).map .security ++
  (sortOn (·.id) history.context).map .context ++
  (sortOn (·.id) history.coverage).map .coverage

/-- `_histories_content_sha256`. -/
def historiesContentSha256 (H : Hashing) (histories : List TokenHistory) : String :=
  H.sha256Updates (((sortOn historyKey histories).flatMap fun history =>
    identityDocument history :: factDocuments history).map fun document =>
      H.canonicalDigest (.fact document))

structure SemanticSnapshot where
  datasetSchemaVersion : Nat
  featureSetSha256 : String
  labelSetSha256 : String
  candidatePolicySha256 : String
  splitContractSha256 : Option String
  sourceDescriptors : List SourceDescriptor
  inputFactsSha256 : String
  epochs : List Int
  scopeStartAt : Timestamp
  scopeEndAt : Timestamp
  tokenAddresses : List String
  cohortRule : String
  codeRevision : String
  configurationSha256 : String

/-- The distinct source descriptors by digest. -/
def snapshotDescriptors (H : Hashing) (histories : List TokenHistory) : List SourceDescriptor :=
  sortOn (fun descriptor => H.canonicalDigest (.descriptor descriptor))
    ((Dict.empty : Dict String SourceDescriptor).setAll (histories.map fun history =>
      (H.canonicalDigest (.descriptor history.sourceDescriptor), history.sourceDescriptor))).values

/-- `_semantic_snapshot`. -/
def semanticSnapshot (H : Hashing) (histories : List TokenHistory) (spec : DatasetBuildSpec) :
    SemanticSnapshot where
  datasetSchemaVersion := 1
  featureSetSha256 := spec.featureSet.sha256 H
  labelSetSha256 := spec.labelSet.sha256 H
  candidatePolicySha256 := spec.candidatePolicy.sha256 H
  splitContractSha256 := spec.splitContract.map fun contract => contract.sha256 H
  sourceDescriptors := snapshotDescriptors H histories
  inputFactsSha256 := historiesContentSha256 H histories
  epochs := spec.epochNumbers
  scopeStartAt := spec.scopeStartAt
  scopeEndAt := spec.scopeEndAt
  tokenAddresses := spec.tokenAddresses
  cohortRule := spec.cohortRule
  codeRevision := spec.codeRevision
  configurationSha256 := spec.configurationSha256

def candidateKey (candidate : CandidateTimestamp) : Timestamp ×ₗ String ×ₗ String :=
  toLex (candidate.decisionAt, toLex (candidate.tokenId, candidate.id))

/-- The candidates of the selected histories in row order. -/
def datasetCandidates (H : Hashing) (spec : DatasetBuildSpec) (selected : List TokenHistory) :
    List CandidateTimestamp :=
  sortOn candidateKey (selected.flatMap fun history =>
    generateCandidateTimestamps H history spec.candidatePolicy spec.scopeStartAt spec.scopeEndAt)

/-- `history_by_key[key]`: the last history of a key wins. -/
def historyByKey (selected : List TokenHistory) (candidate : CandidateTimestamp) :
    Except ResearchError TokenHistory :=
  match (selected.filter fun history =>
      historyKey history = toLex (candidate.epochNumber, candidate.tokenId)).getLast? with
  | some history => .ok history
  | none => .error (.key candidate.tokenId)

/-- The split cell of a row, or `none` where the contract assigns no window. -/
def splitCell (spec : DatasetBuildSpec) (candidate : CandidateTimestamp) : Option String :=
  match spec.splitContract with
  | some contract =>
    (contract.assign candidate.admissionAt candidate.decisionAt).map SplitName.text
  | none => some "unsplit"

section Rows
variable {F : Type} [Numerics F]

/-- The dictionary literal `row`. -/
def datasetRow (H : Hashing) (spec : DatasetBuildSpec) (candidate : CandidateTimestamp)
    (split : String) (features : FeatureResult F) (labels : LabelResult F) : Columns F :=
  ((Dict.empty.setAll [
    ("candidate_id", .text candidate.id),
    ("candidate_reason", .text candidate.reason),
    ("candidate_policy_sha256", .text candidate.policySha256),
    ("feature_set", .text spec.featureSet.identifier),
    ("feature_set_sha256", .text (spec.featureSet.sha256 H)),
    ("label_set", .text spec.labelSet.identifier),
    ("label_set_sha256", .text (spec.labelSet.sha256 H)),
    ("split", .text split),
    ("feature_availability_watermark", .optTime features.availabilityWatermark),
    ("feature_input_ids_sha256",
      .text (H.canonicalDigest (.identifiers features.inputObservationIds))),
    ("label_future_ids_sha256",
      .text (H.canonicalDigest (.identifiers labels.futureObservationIds)))]).update
    features.values).update labels.values

/-- One round of the row loop; `none` where the row is skipped. -/
def buildRow (H : Hashing) (spec : DatasetBuildSpec) (selected : List TokenHistory)
    (candidate : CandidateTimestamp) : Except ResearchError (Option (Columns F)) := do
  let history ← historyByKey selected candidate
  let state ← getTokenStateAsOf H history candidate.decisionAt spec.featureSet false
  let features ← buildMarketFeatures H state spec.featureSet
  let labels ← buildOutcomeLabels H history state spec.labelSet
  match splitCell spec candidate with
  | none => return none
  | some split =>
    if features.availabilityWatermark.any fun watermark => watermark > candidate.decisionAt then
      throw (.integrity "feature availability watermark exceeds decision time")
    return some (datasetRow H spec candidate split features labels)

/-- The row loop of `build_dataset`. -/
def rowLoop (build : CandidateTimestamp → Except ResearchError (Option (Columns F))) :
    List CandidateTimestamp → Except ResearchError (List (Columns F))
  | [] => .ok []
  | candidate :: rest => do
    let row ← build candidate
    let rows ← rowLoop build rest
    return row.toList ++ rows

/-- `_reject_duplicate_candidates`. -/
def rejectDuplicateCandidates [DecidableEq F] (rows : List (Columns F)) :
    Except ResearchError Unit :=
  if (rows.map (·.get? "candidate_id")).Nodup then .ok ()
  else .error (.integrity "duplicate candidate identities were generated")

/-- The rows `build_dataset` writes. -/
def datasetRows [DecidableEq F] (H : Hashing) (spec : DatasetBuildSpec)
    (histories : List TokenHistory) : Except ResearchError (List (Columns F)) := do
  let selected := spec.select histories
  if selected.any fun history => !history.epochDataValid then
    throw (.contract "canonical dataset scope contains an invalid epoch")
  let rows ← rowLoop (buildRow H spec selected) (datasetCandidates H spec selected)
  rejectDuplicateCandidates rows
  return rows

end Rows

end PumpResearch.Research
