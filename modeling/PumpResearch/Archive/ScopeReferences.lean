import PumpResearch.Research.EpochExport

/-! The tokens and pairs that the rows of an archive scope name. Its two membership queries look at
ten families, and its rows are of twenty-five. -/
namespace PumpResearch.Archive
open ConsecutiveRanges Research

/-! ### Families -/

/-- The families of `_SPECS` whose rows name a token or a pair. -/
inductive ReferencingFamily where
  | observations
  | discoveryEvents
  | lifecycleEvidence
  | lifecycleEvents
  | coverageDecisions
  | candidateEvents
  | candidateTierEvents
  | candidateEnrichmentTasks
  | securityProviderRequests
  | holderSnapshots
  | traderDistributionSnapshots
  | creatorHistorySnapshots
  | creatorRelationshipEvents
  | liquidityEventEvidence
  | walletRelationshipEdges
  | fundingRelationshipEvidence
  | walletClusterSnapshots
  | securityFeatureSnapshots
  | pollScheduleDecisions
  | pollBatchMembers
  | pairFactEvents
  | boostObservations
  | boostEvents
  | tokenMetadataEvents
  | tokenSecuritySnapshots
deriving DecidableEq, Repr

/-- The tables through which a query finds the epoch of a row. -/
inductive EpochJoin where
  | epoch
  | nullableEpoch
  | run
  | request
  | candidate
  | batch
  | boostObservation
  | coverage
deriving DecidableEq, Repr

/-- The column that is joined on. -/
def EpochJoin.Reference : EpochJoin → Type
  | .epoch | .request | .candidate | .batch | .boostObservation => String
  | .nullableEpoch | .run => Option String
  | .coverage => CoverageReference

def ReferencingFamily.join : ReferencingFamily → EpochJoin
  | .observations | .lifecycleEvidence => .request
  | .discoveryEvents | .lifecycleEvents | .pairFactEvents | .boostObservations
  | .tokenMetadataEvents | .tokenSecuritySnapshots => .run
  | .coverageDecisions => .coverage
  | .candidateEvents | .candidateTierEvents | .candidateEnrichmentTasks
  | .securityProviderRequests | .holderSnapshots | .traderDistributionSnapshots
  | .creatorHistorySnapshots | .securityFeatureSnapshots => .epoch
  | .creatorRelationshipEvents | .liquidityEventEvidence | .walletRelationshipEdges
  | .fundingRelationshipEvidence | .walletClusterSnapshots => .candidate
  | .pollScheduleDecisions => .nullableEpoch
  | .pollBatchMembers => .batch
  | .boostEvents => .boostObservation

/-- Whether a table has a column, and whether it may be null. -/
inductive ReferenceColumn where
  | missing
  | nullable
  | required
deriving DecidableEq, Repr

def ReferenceColumn.Value : ReferenceColumn → Type
  | .missing => Unit
  | .nullable => Option String
  | .required => String

/-- The identity in a column, if there is one. -/
def ReferenceColumn.id? : (column : ReferenceColumn) → column.Value → Option String
  | .missing, _ => none
  | .nullable, id => id
  | .required, id => some id

/-- The `token_id` column. -/
def ReferencingFamily.tokenColumn : ReferencingFamily → ReferenceColumn
  | .observations | .pairFactEvents => .missing
  | _ => .required

/-- The `pair_id` column; lifecycle evidence calls it `selected_pair_id`. -/
def ReferencingFamily.pairColumn : ReferencingFamily → ReferenceColumn
  | .observations | .pairFactEvents => .required
  | .lifecycleEvidence | .liquidityEventEvidence | .boostObservations | .tokenMetadataEvents =>
    .nullable
  | _ => .missing

/-! ### Tables -/

/-- A row with the columns that its queries read. -/
structure ReferencingRow (family : ReferencingFamily) where
  id : String
  reference : family.join.Reference
  token : family.tokenColumn.Value
  pair : family.pairColumn.Value
  time : Timestamp

def ReferencingRow.tokenId? {family : ReferencingFamily} (row : ReferencingRow family) :
    Option String := family.tokenColumn.id? row.token

def ReferencingRow.pairId? {family : ReferencingFamily} (row : ReferencingRow family) :
    Option String := family.pairColumn.id? row.pair

structure PollBatchRow where
  id : String
  collectorRunId : Option String

structure ArchiveTables where
  epochs : List EpochRow
  runs : List CollectorRunRow
  requests : List ApiRequestRow
  batches : List PollBatchRow
  tokens : List TokenRow
  pairs : List PairRow
  rows : (family : ReferencingFamily) → List (ReferencingRow family)

section Queries
variable (db : ArchiveTables) (epochId : String)

def ArchiveTables.runInEpoch (runId : String) : Bool :=
  db.runs.any fun run => run.id = runId && run.collectionEpochId = epochId

def ArchiveTables.requestInEpoch (requestId : String) : Bool :=
  db.requests.any fun request =>
    request.id = requestId && request.collectorRunId.any (db.runInEpoch epochId)

def ArchiveTables.batchInEpoch (batchId : String) : Bool :=
  db.batches.any fun batch =>
    batch.id = batchId && batch.collectorRunId.any (db.runInEpoch epochId)

def ArchiveTables.candidateInEpoch (candidateId : String) : Bool :=
  (db.rows .candidateEvents).any fun row =>
    let collectionEpochId : String := row.reference
    row.id = candidateId && collectionEpochId = epochId

def ArchiveTables.boostInEpoch (observationId : String) : Bool :=
  (db.rows .boostObservations).any fun row =>
    let collectorRunId : Option String := row.reference
    row.id = observationId && collectorRunId.any (db.runInEpoch epochId)

/-- `COALESCE(cd.collection_epoch_id, cr.collection_epoch_id)`. -/
def ArchiveTables.coverageInEpoch (reference : CoverageReference) : Bool :=
  match reference.collectionEpochId with
  | some id => id = epochId
  | none => reference.collectorRunId.any (db.runInEpoch epochId)

def ArchiveTables.inEpoch : (join : EpochJoin) → join.Reference → Bool
  | .epoch => fun (id : String) => decide (id = epochId)
  | .nullableEpoch => fun (id : Option String) => decide (id = some epochId)
  | .run => fun (id : Option String) => id.any (db.runInEpoch epochId)
  | .request => fun id => db.requestInEpoch epochId id
  | .candidate => fun id => db.candidateInEpoch epochId id
  | .batch => fun id => db.batchInEpoch epochId id
  | .boostObservation => fun id => db.boostInEpoch epochId id
  | .coverage => fun reference => db.coverageInEpoch epochId reference

variable (range : Timestamp × Timestamp)

/-- The conditions of a family's query. -/
def ArchiveTables.selects (family : ReferencingFamily) (row : ReferencingRow family) : Bool :=
  db.inEpoch epochId family.join row.reference && within range row.time

/-- The rows of a family, day by day. -/
def ArchiveTables.familyRows (family : ReferencingFamily) : List (ReferencingRow family) :=
  (dailyRanges range.1 range.2).flatMap fun part =>
    (db.rows family).filter (db.selects epochId part family)

/-- The families whose `token_id` the tokens query looks at. -/
def tokenWitnesses : List ReferencingFamily :=
  [.discoveryEvents, .lifecycleEvents, .coverageDecisions, .boostObservations,
    .tokenMetadataEvents, .tokenSecuritySnapshots]

/-- The families whose `pair_id` the pairs query looks at. -/
def pairWitnesses : List ReferencingFamily := [.observations, .pairFactEvents, .boostObservations]

/-- The seven `EXISTS` conditions of the tokens query: observations name their token by a pair. -/
def ArchiveTables.tokenNamed (id : String) : Bool :=
  (tokenWitnesses.any fun family => (db.rows family).any fun row =>
    row.tokenId? = some id && db.selects epochId range family row) ||
  db.pairs.any fun pair => pair.tokenId = id && (db.rows .observations).any fun row =>
    row.pairId? = some pair.id && db.selects epochId range .observations row

/-- The three `EXISTS` conditions of the pairs query. -/
def ArchiveTables.pairNamed (id : String) : Bool :=
  pairWitnesses.any fun family => (db.rows family).any fun row =>
    row.pairId? = some id && db.selects epochId range family row

end Queries

/-- What a scope exports of these families and of the tokens and pairs. -/
structure ScopeContent where
  tokens : List TokenRow
  pairs : List PairRow
  rows : (family : ReferencingFamily) → List (ReferencingRow family)

def ArchiveTables.scopeContent (db : ArchiveTables) (epochId : String)
    (range : Timestamp × Timestamp) : ScopeContent where
  tokens := db.tokens.filter fun token => db.tokenNamed epochId range token.id
  pairs := db.pairs.filter fun pair => db.pairNamed epochId range pair.id
  rows := db.familyRows epochId range

/-! ### Foreign keys -/

section Keys
variable (db : ArchiveTables)

/-- The row that a reference names is in its table. -/
def ArchiveTables.resolves : (join : EpochJoin) → join.Reference → Bool
  | .epoch => fun (id : String) => db.epochs.any fun epoch => epoch.id = id
  | .nullableEpoch => fun (id : Option String) => id.all fun id =>
    db.epochs.any fun epoch => epoch.id = id
  | .run => fun (id : Option String) => id.all fun id => db.runs.any fun run => run.id = id
  | .request => fun (id : String) => db.requests.any fun request => request.id = id
  | .candidate => fun (id : String) => (db.rows .candidateEvents).any fun row => row.id = id
  | .batch => fun (id : String) => db.batches.any fun batch => batch.id = id
  | .boostObservation => fun (id : String) => (db.rows .boostObservations).any fun row => row.id = id
  | .coverage => fun (reference : CoverageReference) =>
    (reference.collectionEpochId.all fun id => db.epochs.any fun epoch => epoch.id = id) &&
      reference.collectorRunId.all fun id => db.runs.any fun run => run.id = id

/-- Every reference of a row is to a row. -/
structure ForeignKeys : Prop where
  runs : ∀ run ∈ db.runs, db.resolves .epoch run.collectionEpochId = true
  requests : ∀ request ∈ db.requests, db.resolves .run request.collectorRunId = true
  batches : ∀ batch ∈ db.batches, db.resolves .run batch.collectorRunId = true
  pairs : ∀ pair ∈ db.pairs, ∃ token ∈ db.tokens, token.id = pair.tokenId
  references : ∀ family, ∀ row ∈ db.rows family, db.resolves family.join row.reference = true
  tokenIds : ∀ family, ∀ row ∈ db.rows family, ∀ id ∈ row.tokenId?,
    ∃ token ∈ db.tokens, token.id = id
  pairIds : ∀ family, ∀ row ∈ db.rows family, ∀ id ∈ row.pairId?, ∃ pair ∈ db.pairs, pair.id = id

end Keys

/-! ### Self-contained scopes -/

/-- Every token and pair that a row of the scope names is in the scope. -/
structure ScopeContent.SelfContained (scope : ScopeContent) : Prop where
  tokenIds : ∀ family, ∀ row ∈ scope.rows family, ∀ id ∈ row.tokenId?,
    ∃ token ∈ scope.tokens, token.id = id
  pairTokens : ∀ pair ∈ scope.pairs, ∃ token ∈ scope.tokens, token.id = pair.tokenId
  pairIds : ∀ family, ∀ row ∈ scope.rows family, ∀ id ∈ row.pairId?,
    ∃ pair ∈ scope.pairs, pair.id = id

/-- What the rows of the other families name is named by a row that the queries look at. -/
structure Covered (db : ArchiveTables) (epochId : String) (range : Timestamp × Timestamp) : Prop where
  tokenIds : ∀ family ∉ tokenWitnesses, ∀ row ∈ db.rows family,
    db.selects epochId range family row = true → ∀ id ∈ row.tokenId?,
      db.tokenNamed epochId range id = true
  pairTokens : ∀ family ∈ [ReferencingFamily.pairFactEvents, .boostObservations],
    ∀ row ∈ db.rows family, db.selects epochId range family row = true → ∀ pair ∈ db.pairs,
      row.pairId? = some pair.id → db.tokenNamed epochId range pair.tokenId = true
  pairIds : ∀ family ∉ pairWitnesses, ∀ row ∈ db.rows family,
    db.selects epochId range family row = true → ∀ id ∈ row.pairId?,
      db.pairNamed epochId range id = true

section Scopes
variable {db : ArchiveTables} {epochId : String} {start finish : Timestamp}

theorem mem_scope_rows (h : start ≤ finish) {family : ReferencingFamily}
    {row : ReferencingRow family} :
    row ∈ (db.scopeContent epochId (start, finish)).rows family ↔
      row ∈ db.rows family ∧ db.selects epochId (start, finish) family row = true := by
  have hperm : (db.familyRows epochId (start, finish) family).Perm
      ((db.rows family).filter (db.selects epochId (start, finish) family)) :=
    (dailyRanges_consecutive h).flatMap_filter_perm _ _ _
  rw [← List.mem_filter]
  exact hperm.mem_iff

variable {range : Timestamp × Timestamp}

theorem exists_scope_token {id : String} :
    (∃ token ∈ (db.scopeContent epochId range).tokens, token.id = id) ↔
      (∃ token ∈ db.tokens, token.id = id) ∧ db.tokenNamed epochId range id = true := by
  constructor
  · intro ⟨token, htoken, hid⟩
    obtain ⟨hmem, hnamed⟩ := List.mem_filter.mp htoken
    exact ⟨⟨token, hmem, hid⟩, hid ▸ hnamed⟩
  · intro ⟨⟨token, hmem, hid⟩, hnamed⟩
    exact ⟨token, List.mem_filter.mpr ⟨hmem, hid ▸ hnamed⟩, hid⟩

theorem exists_scope_pair {id : String} :
    (∃ pair ∈ (db.scopeContent epochId range).pairs, pair.id = id) ↔
      (∃ pair ∈ db.pairs, pair.id = id) ∧ db.pairNamed epochId range id = true := by
  constructor
  · intro ⟨pair, hpair, hid⟩
    obtain ⟨hmem, hnamed⟩ := List.mem_filter.mp hpair
    exact ⟨⟨pair, hmem, hid⟩, hid ▸ hnamed⟩
  · intro ⟨⟨pair, hmem, hid⟩, hnamed⟩
    exact ⟨pair, List.mem_filter.mpr ⟨hmem, hid ▸ hnamed⟩, hid⟩

/-- A selected row of a family that the tokens query looks at names its token. -/
theorem tokenNamed_of_witness {family : ReferencingFamily} (hfamily : family ∈ tokenWitnesses)
    {row : ReferencingRow family} (hrow : row ∈ db.rows family)
    (hselects : db.selects epochId range family row = true) {id : String} (hid : id ∈ row.tokenId?) :
    db.tokenNamed epochId range id = true := by
  refine Bool.or_eq_true_iff.mpr (.inl (List.any_eq_true.mpr ⟨family, hfamily, ?_⟩))
  exact List.any_eq_true.mpr
    ⟨row, hrow, Bool.and_eq_true_iff.mpr ⟨decide_eq_true hid, hselects⟩⟩

theorem tokenNamed_of_observation {pair : PairRow} (hpair : pair ∈ db.pairs)
    {row : ReferencingRow .observations} (hrow : row ∈ db.rows .observations)
    (hselects : db.selects epochId range .observations row = true)
    (hid : row.pairId? = some pair.id) : db.tokenNamed epochId range pair.tokenId = true := by
  refine Bool.or_eq_true_iff.mpr (.inr (List.any_eq_true.mpr ⟨pair, hpair, ?_⟩))
  refine Bool.and_eq_true_iff.mpr ⟨decide_eq_true rfl, List.any_eq_true.mpr ⟨row, hrow, ?_⟩⟩
  exact Bool.and_eq_true_iff.mpr ⟨decide_eq_true hid, hselects⟩

theorem pairNamed_iff {id : String} : db.pairNamed epochId range id = true ↔
    ∃ family ∈ pairWitnesses, ∃ row ∈ db.rows family,
      row.pairId? = some id ∧ db.selects epochId range family row = true := by
  simp only [ArchiveTables.pairNamed, List.any_eq_true, Bool.and_eq_true, decide_eq_true_eq]

/-- The tokens of the pairs of a scope are in it when those of the pair facts and boosts are. -/
theorem token_of_scope_pair (hpairs : ∀ family ∈ [ReferencingFamily.pairFactEvents, .boostObservations],
    ∀ row ∈ db.rows family, db.selects epochId range family row = true → ∀ pair ∈ db.pairs,
      row.pairId? = some pair.id → db.tokenNamed epochId range pair.tokenId = true)
    (hkeys : ForeignKeys db) {pair : PairRow} (hpair : pair ∈ (db.scopeContent epochId range).pairs) :
    ∃ token ∈ (db.scopeContent epochId range).tokens, token.id = pair.tokenId := by
  obtain ⟨hmem, hnamed⟩ := List.mem_filter.mp hpair
  refine exists_scope_token.mpr ⟨hkeys.pairs pair hmem, ?_⟩
  obtain ⟨family, hfamily, row, hrow, hid, hselects⟩ := pairNamed_iff.mp hnamed
  cases List.mem_cons.mp hfamily with
  | inl hobservation =>
    subst hobservation
    exact tokenNamed_of_observation hmem hrow hselects hid
  | inr hother => exact hpairs family hother row hrow hselects pair hmem hid

/-- A scope holds the tokens and pairs of all its rows exactly when the families that its queries
pass over name no others. -/
theorem scope_self_contained_iff (hkeys : ForeignKeys db) (h : start ≤ finish) :
    (db.scopeContent epochId (start, finish)).SelfContained ↔
      Covered db epochId (start, finish) := by
  constructor
  · intro hself
    constructor
    · intro family _ row hrow hselects id hid
      have hin := hself.tokenIds family row ((mem_scope_rows h).mpr ⟨hrow, hselects⟩) id hid
      exact (exists_scope_token.mp hin).2
    · intro family hfamily row hrow hselects pair hpair hid
      have hnamed : db.pairNamed epochId (start, finish) pair.id = true :=
        pairNamed_iff.mpr ⟨family, List.mem_cons_of_mem _ hfamily, row, hrow, hid, hselects⟩
      exact (exists_scope_token.mp
        (hself.pairTokens pair (List.mem_filter.mpr ⟨hpair, hnamed⟩))).2
    · intro family _ row hrow hselects id hid
      have hin := hself.pairIds family row ((mem_scope_rows h).mpr ⟨hrow, hselects⟩) id hid
      exact (exists_scope_pair.mp hin).2
  · intro hc
    constructor
    · intro family row hrow id hid
      obtain ⟨hmem, hselects⟩ := (mem_scope_rows h).mp hrow
      refine exists_scope_token.mpr ⟨hkeys.tokenIds family row hmem id hid, ?_⟩
      by_cases hfamily : family ∈ tokenWitnesses
      · exact tokenNamed_of_witness hfamily hmem hselects hid
      · exact hc.tokenIds family hfamily row hmem hselects id hid
    · exact fun pair hpair => token_of_scope_pair hc.pairTokens hkeys hpair
    · intro family row hrow id hid
      obtain ⟨hmem, hselects⟩ := (mem_scope_rows h).mp hrow
      refine exists_scope_pair.mpr ⟨hkeys.pairIds family row hmem id hid, ?_⟩
      by_cases hfamily : family ∈ pairWitnesses
      · exact pairNamed_iff.mpr ⟨family, hfamily, row, hmem, hid, hselects⟩
      · exact hc.pairIds family hfamily row hmem hselects id hid

end Scopes

/-! ### The relation checks -/

section Relations
variable (scope : ScopeContent)

/-- Rows whose token is not in the scope. -/
def ScopeContent.missingToken (family : ReferencingFamily) : Nat :=
  (scope.rows family).countP fun row => row.tokenId?.all fun id =>
    scope.tokens.all fun token => token.id ≠ id

/-- Rows whose pair is not in the scope. -/
def ScopeContent.missingPair (family : ReferencingFamily) : Nat :=
  (scope.rows family).countP fun row => row.pairId?.all fun id =>
    scope.pairs.all fun pair => pair.id ≠ id

/-- The relations of `_duckdb_integrity`, each with its missing rows. -/
def ScopeContent.relations : List (String × Nat) :=
  [("observations_missing_pair", scope.missingPair .observations),
    ("pairs_missing_token", scope.pairs.countP fun pair =>
      scope.tokens.all fun token => token.id ≠ pair.tokenId),
    ("lifecycle_missing_token", scope.missingToken .lifecycleEvents),
    ("pair_facts_missing_pair", scope.missingPair .pairFactEvents),
    ("boosts_missing_token", scope.missingToken .boostObservations),
    ("metadata_missing_token", scope.missingToken .tokenMetadataEvents),
    ("security_missing_token", scope.missingToken .tokenSecuritySnapshots)]

end Relations

section Checks
variable {db : ArchiveTables} {epochId : String} {start finish : Timestamp}

end Checks

/-! ### A token that was discovered before the range -/

/-- A token of an epoch of two days, with its discovery on the first day and a candidate event on
the second. -/
def discoveredBefore : ArchiveTables where
  epochs := [⟨"epoch", 1, .completed, true, some 0, some (2 * microsecondsPerDay)⟩]
  runs := [⟨"run", "epoch", 0, some 0⟩]
  requests := []
  batches := []
  tokens := [⟨"token", "solana", "A"⟩]
  pairs := []
  rows
    | .discoveryEvents => [⟨"discovery", some "run", "token", (), 1⟩]
    | .candidateEvents => [⟨"candidate", "epoch", "token", (), microsecondsPerDay + 1⟩]
    | _ => []

theorem discoveredBefore_keys : ForeignKeys discoveredBefore where
  runs := by decide
  requests _ h := by cases h
  batches _ h := by cases h
  pairs _ h := by cases h
  references family row hrow := by
    cases family with
    | discoveryEvents =>
      rw [List.mem_singleton.mp hrow]
      decide
    | candidateEvents =>
      rw [List.mem_singleton.mp hrow]
      decide
    | _ => cases hrow
  tokenIds family row hrow id hid := by
    refine ⟨⟨"token", "solana", "A"⟩, List.mem_singleton_self _, ?_⟩
    cases family with
    | discoveryEvents =>
      rw [List.mem_singleton.mp hrow] at hid
      exact Option.some.inj hid
    | candidateEvents =>
      rw [List.mem_singleton.mp hrow] at hid
      exact Option.some.inj hid
    | _ => cases hrow
  pairIds family row hrow id hid := by
    cases family with
    | discoveryEvents =>
      rw [List.mem_singleton.mp hrow] at hid
      cases hid
    | candidateEvents =>
      rw [List.mem_singleton.mp hrow] at hid
      cases hid
    | _ => cases hrow

/-- The whole epoch holds the token of the candidate event. -/
theorem whole_epoch_self_contained :
    (discoveredBefore.scopeContent "epoch" (0, 2 * microsecondsPerDay)).SelfContained := by
  refine (scope_self_contained_iff discoveredBefore_keys (by decide)).mpr ⟨?_, ?_, ?_⟩
  · intro family hother row hrow _ id hid
    cases family with
    | candidateEvents =>
      rw [List.mem_singleton.mp hrow] at hid
      rw [← Option.some.inj hid]
      decide +kernel
    | discoveryEvents => exact absurd (by decide) hother
    | _ => cases hrow
  · intro _ _ _ _ _ pair hpair
    cases hpair
  · intro family _ row hrow _ id hid
    obtain ⟨pair, hpair, _⟩ := discoveredBefore_keys.pairIds family row hrow id hid
    cases hpair

/-- The second day has the candidate event without its token, and passes every relation check. -/
theorem second_day_not_self_contained :
    ForeignKeys discoveredBefore ∧
      ((discoveredBefore.scopeContent "epoch" (microsecondsPerDay, 2 * microsecondsPerDay)).relations.all
        fun relation => relation.2 = 0) = true ∧
      ¬ (discoveredBefore.scopeContent "epoch"
        (microsecondsPerDay, 2 * microsecondsPerDay)).SelfContained := by
  refine ⟨discoveredBefore_keys, by decide +kernel, fun hself => ?_⟩
  have hrow : (⟨"candidate", "epoch", "token", (), microsecondsPerDay + 1⟩ :
      ReferencingRow .candidateEvents) ∈ (discoveredBefore.scopeContent "epoch"
        (microsecondsPerDay, 2 * microsecondsPerDay)).rows .candidateEvents :=
    (mem_scope_rows (by decide)).mpr ⟨List.mem_singleton_self _, by decide⟩
  obtain ⟨token, htoken, _⟩ := hself.tokenIds .candidateEvents _ hrow "token" rfl
  have hnone : (discoveredBefore.scopeContent "epoch"
      (microsecondsPerDay, 2 * microsecondsPerDay)).tokens = [] := by decide +kernel
  rw [hnone] at htoken
  cases htoken

end PumpResearch.Archive
