import PumpResearch.Instants
import PumpResearch.Library.KeyedTable
import PumpResearch.Library.Results

/-! The archive catalog of one source scope: its claim, its manifest, its verified copies and its
retention evaluations. Every function is one transaction on the locked scope row. -/
namespace PumpResearch.Archive
open KeyedTable Results

/-! ### Rows -/

inductive ScopeState where
  | pending
  | exporting
  | exported
  | verified
  | independentlyCopied
  | retentionEligible
  | failed
deriving DecidableEq, Repr

/-- The states of a scope whose manifest has been verified. -/
def ScopeState.IsVerified (state : ScopeState) : Prop :=
  state ∈ [ScopeState.verified, .independentlyCopied, .retentionEligible]

instance decidableIsVerified : DecidablePred ScopeState.IsVerified :=
  fun state => inferInstanceAs (Decidable (state ∈ _))

/-- What an archive identity is derived from. The snapshot is canonical JSON text. -/
structure SourceScope where
  id : Uuid
  identitySha256 : String
  collectionEpochId : Uuid
  startAt : Int
  endAt : Int
  archiveSchemaVersion : Nat
  sourceDbSchemaRevision : String
  sourceScopeSnapshot : String
deriving DecidableEq

structure ArchiveLease where
  token : Uuid
  expiresAt : Int
deriving DecidableEq

/-- What `verify_archive` returns. -/
structure VerificationDetail where
  manifestVerified : Bool
  manifestSha256 : String
  archiveIdentitySha256 : String
  aggregateFileSha256 : String
  rowCount : Nat
  fileCount : Nat
  sourceScopeFullyCovered : Bool
  duckdbReadbackPassed : Bool
deriving DecidableEq

structure FailureDetail where
  stage : String
  errorType : String
  message : String
deriving DecidableEq

structure ArchiveScope where
  source : SourceScope
  state : ScopeState
  manifestPath : Option String
  manifestSha256 : Option String
  aggregateFileSha256 : Option String
  sourceRowCount : Option Nat
  parquetBytes : Option Nat
  verifiedAt : Option Int
  verificationDetail : Option VerificationDetail
  analyticalReadsVerifiedAt : Option Int
  claim : Option ArchiveLease
  failureDetail : Option FailureDetail
  updatedAt : Int
deriving DecidableEq

inductive CopyRole where
  | primary
  | secondary
deriving DecidableEq, Repr

structure CopyVerification where
  copyRole : CopyRole
  providerKind : String
  location : String
  manifestSha256 : String
  aggregateFileSha256 : String
  totalBytes : Nat
  objectCount : Nat
  independenceAsserted : Bool
  independenceDetail : Option String
  verificationMethod : String
  detail : String
  verifiedAt : Int
deriving DecidableEq

def CopyVerification.identity (copy : CopyVerification) : CopyRole × String × String :=
  (copy.copyRole, copy.location, copy.aggregateFileSha256)

/-- What an evaluation's idempotency key is derived from. -/
structure RetentionKey where
  bucket : Int
  minimumHotRetentionDays : Nat
  checks : List (String × Bool)
  eligible : Bool
deriving DecidableEq

structure RetentionEvaluation where
  evaluatedAt : Int
  eligible : Bool
  minimumHotRetentionDays : Nat
  reasons : List String
  idempotencyKey : RetentionKey
deriving DecidableEq

structure Catalog where
  scope : Option ArchiveScope
  copies : Table CopyVerification.identity
  evaluations : Table RetentionEvaluation.idempotencyKey

def emptyCatalog : Catalog := ⟨none, Table.empty, Table.empty⟩

inductive CatalogError where
  | busy (message : String)
  | catalog (message : String)
deriving DecidableEq

structure ArchiveClaim where
  claimToken : Option Uuid
  reusableManifestPath : Option String
  previousState : ScopeState
deriving DecidableEq

/-! ### Transactions -/

/-- The row that `claim_archive_scope` inserts. -/
def pendingScope (source : SourceScope) (now : Int) : ArchiveScope where
  source := source
  state := .pending
  manifestPath := none
  manifestSha256 := none
  aggregateFileSha256 := none
  sourceRowCount := none
  parquetBytes := none
  verifiedAt := none
  verificationDetail := none
  analyticalReadsVerifiedAt := none
  claim := none
  failureDetail := none
  updatedAt := now

/-- The lease of an exporting scope covers the clock. -/
def Leased (scope : ArchiveScope) (now : Int) : Prop :=
  scope.state = .exporting ∧ ∃ lease ∈ scope.claim, now < lease.expiresAt

instance decidableLeased (scope : ArchiveScope) (now : Int) : Decidable (Leased scope now) :=
  inferInstanceAs (Decidable (_ ∧ ∃ lease ∈ scope.claim, _))

/-- The row that a claim leaves. -/
def claimedScope (scope : ArchiveScope) (token : Uuid) (now leaseSeconds : Int) : ArchiveScope :=
  { scope with
    state := .exporting
    claim := some ⟨token, now + seconds leaseSeconds⟩
    failureDetail := none
    updatedAt := now }

/-- `claim_archive_scope`, with the token it draws. -/
def claimArchiveScope (source : SourceScope) (token : Uuid) (now leaseSeconds : Int)
    (catalog : Catalog) : Except CatalogError (Catalog × ArchiveClaim) :=
  let scope := catalog.scope.getD (pendingScope source now)
  if scope.source ≠ source then
    .error (.catalog "deterministic archive identity maps to different source-scope content")
  else if scope.state.IsVerified then
    if scope.manifestPath.getD "" = "" then
      .error (.catalog "verified archive scope has no manifest path")
    else .ok ({ catalog with scope := some scope }, ⟨none, scope.manifestPath, scope.state⟩)
  else if Leased scope now then .error (.busy "archive scope is leased")
  else
    .ok ({ catalog with scope := some (claimedScope scope token now leaseSeconds) },
      ⟨some token, if scope.state = .exported then scope.manifestPath else none, scope.state⟩)

/-- `_claimed_scope`. -/
def ownedScope (claim : ArchiveClaim) (catalog : Catalog) : Except CatalogError ArchiveScope :=
  match catalog.scope with
  | none => .error (.catalog "archive claim is no longer owned by this worker")
  | some scope =>
    if scope.claim.map (·.token) ≠ claim.claimToken ∨ scope.state ≠ .exporting then
      .error (.catalog "archive claim is no longer owned by this worker")
    else .ok scope

structure ExportedManifest where
  path : String
  sha256 : String
  aggregateFileSha256 : String
  sourceRowCount : Nat
  parquetBytes : Nat
deriving DecidableEq

/-- The row that `mark_archive_exported` leaves. -/
def exportedScope (manifest : ExportedManifest) (now : Int) (scope : ArchiveScope) : ArchiveScope :=
  { scope with
    state := .exported
    manifestPath := some manifest.path
    manifestSha256 := some manifest.sha256
    aggregateFileSha256 := some manifest.aggregateFileSha256
    sourceRowCount := some manifest.sourceRowCount
    parquetBytes := some manifest.parquetBytes
    claim := none
    updatedAt := now }

/-- `mark_archive_exported`. -/
def markArchiveExported (claim : ArchiveClaim) (manifest : ExportedManifest) (now : Int)
    (catalog : Catalog) : Except CatalogError Catalog := do
  let scope ← ownedScope claim catalog
  return { catalog with scope := some (exportedScope manifest now scope) }

/-- The row that `mark_archive_verified` leaves. -/
def verifiedScope (detail : VerificationDetail) (analyticalReadsPassed : Bool) (now : Int)
    (scope : ArchiveScope) : ArchiveScope :=
  { scope with
    state := .verified
    verifiedAt := some now
    verificationDetail := some detail
    analyticalReadsVerifiedAt :=
      if analyticalReadsPassed then some now else scope.analyticalReadsVerifiedAt
    failureDetail := none
    claim := none
    updatedAt := now }

/-- `mark_archive_verified`: it compares the digest, not the claim. -/
def markArchiveVerified (manifestSha256 : String) (detail : VerificationDetail)
    (analyticalReadsPassed : Bool) (now : Int) (catalog : Catalog) : Except CatalogError Catalog :=
  match catalog.scope with
  | none => .error (.catalog "archive verification does not match catalog manifest")
  | some scope =>
    if scope.manifestSha256 ≠ some manifestSha256 then
      .error (.catalog "archive verification does not match catalog manifest")
    else .ok { catalog with scope := some (verifiedScope detail analyticalReadsPassed now scope) }

/-- The row that `mark_archive_failed` leaves. -/
def failedScope (detail : FailureDetail) (now : Int) (scope : ArchiveScope) : ArchiveScope :=
  { scope with state := .failed, failureDetail := some detail, claim := none, updatedAt := now }

/-- `mark_archive_failed`: nothing happens once ownership has moved on. -/
def markArchiveFailed (claim : ArchiveClaim) (detail : FailureDetail) (now : Int)
    (catalog : Catalog) : Catalog :=
  match catalog.scope with
  | none => catalog
  | some scope =>
    if claim.claimToken = none ∨ scope.claim.map (·.token) ≠ claim.claimToken then catalog
    else { catalog with scope := some (failedScope detail now scope) }

/-- `record_copy_verification`. -/
def recordCopyVerification (copy : CopyVerification) (catalog : Catalog) :
    Except CatalogError Catalog :=
  if copy.copyRole = .secondary ∧ copy.independenceAsserted = false then
    .error (.catalog "secondary archive copy requires explicit independence assertion")
  else
    match catalog.scope with
    | none => .error (.catalog "archive must be verified before a copy can be recorded")
    | some scope =>
      if ¬ scope.state.IsVerified then
        .error (.catalog "archive must be verified before a copy can be recorded")
      else if scope.manifestSha256 ≠ some copy.manifestSha256 ∨
          scope.aggregateFileSha256 ≠ some copy.aggregateFileSha256 then
        .error (.catalog "archive copy digest differs from canonical archive")
      else
        let copies := catalog.copies.insertNew copy
        if (copies.find? copy.identity).map (·.manifestSha256) ≠ some copy.manifestSha256 then
          .error (.catalog "archive copy idempotency conflict")
        else .ok { catalog with
          copies := copies
          scope := some (if copy.copyRole = .secondary then
            { scope with state := .independentlyCopied, updatedAt := copy.verifiedAt }
            else scope) }

/-- What an evaluation reads of the epoch. -/
structure EpochStatus where
  dataValid : Bool
  currentDataValid : Bool
  status : String
deriving DecidableEq

def days (n : Nat) : Int := seconds (86400 * n)

/-- The named checks of `evaluate_retention_eligibility`. -/
def retentionChecks (epoch : EpochStatus) (minimumHotRetentionDays : Nat) (now : Int)
    (scope : ArchiveScope) (copies : List CopyVerification) : List (String × Bool) := [
  ("archive_verified", scope.verifiedAt.isSome),
  ("manifest_verified", scope.verificationDetail.any (·.manifestVerified)),
  ("primary_copy_verified", copies.any (·.copyRole = .primary)),
  ("independent_secondary_verified",
    copies.any fun copy => copy.copyRole = .secondary ∧ copy.independenceAsserted),
  ("archive_schema_supported", scope.source.archiveSchemaVersion = 2),
  ("source_scope_fully_covered", scope.verificationDetail.any (·.sourceScopeFullyCovered)),
  ("no_unresolved_integrity_failure", scope.state ≠ .failed),
  ("epoch_data_valid", epoch.dataValid && epoch.currentDataValid),
  ("epoch_closed", epoch.status ∈ ["completed", "aborted", "invalid"]),
  ("minimum_hot_age_passed", scope.source.endAt ≤ now - days minimumHotRetentionDays),
  ("analytical_reads_passed", scope.analyticalReadsVerifiedAt.isSome)]

def retentionEvaluation (epoch : EpochStatus) (minimumHotRetentionDays : Nat) (now : Int)
    (scope : ArchiveScope) (copies : List CopyVerification) : RetentionEvaluation :=
  let checks := retentionChecks epoch minimumHotRetentionDays now scope copies
  let reasons := (checks.filter fun check => !check.2).map (·.1)
  let eligible := reasons.isEmpty
  ⟨now, eligible, minimumHotRetentionDays, reasons,
    ⟨minuteStart now, minimumHotRetentionDays, checks, eligible⟩⟩

/-- `evaluate_retention_eligibility`. -/
def evaluateRetentionEligibility (epoch : EpochStatus) (minimumHotRetentionDays : Nat) (now : Int)
    (catalog : Catalog) : Except CatalogError (Catalog × RetentionEvaluation) :=
  if minimumHotRetentionDays < 1 then
    .error (.catalog "minimum hot retention must be at least one day")
  else
    match catalog.scope with
    | none => .error (.catalog "archive scope does not exist")
    | some scope =>
      let evaluation :=
        retentionEvaluation epoch minimumHotRetentionDays now scope catalog.copies.rows
      .ok ({ catalog with
        evaluations := catalog.evaluations.insertNew evaluation
        scope := some (if evaluation.eligible then
          { scope with state := .retentionEligible, updatedAt := now } else scope) }, evaluation)

/-! ### What a transaction does to the scope -/

section Inversion
variable {catalog catalog' : Catalog} {now : Int}

/-- A claim finds a verified manifest, or takes the scope over. -/
theorem claimArchiveScope_cases {source : SourceScope} {token : Uuid} {leaseSeconds : Int}
    {claim : ArchiveClaim}
    (h : claimArchiveScope source token now leaseSeconds catalog = .ok (catalog', claim)) :
    (∃ scope, catalog.scope = some scope ∧ scope.state.IsVerified ∧
      catalog'.scope = some scope ∧ claim = ⟨none, scope.manifestPath, scope.state⟩) ∨
    ∃ scope, (catalog.scope = some scope ∨
        catalog.scope = none ∧ scope = pendingScope source now) ∧
      ¬ scope.state.IsVerified ∧ ¬ Leased scope now ∧
      catalog'.scope = some (claimedScope scope token now leaseSeconds) ∧
      claim = ⟨some token, if scope.state = .exported then scope.manifestPath else none,
        scope.state⟩ := by
  simp only [claimArchiveScope] at h
  split at h
  · cases h
  · split at h
    · next hverified =>
      split at h
      · cases h
      · cases h
        cases hscope : catalog.scope with
        | none =>
          rw [hscope] at hverified
          exact absurd hverified (by decide : ¬ ScopeState.IsVerified .pending)
        | some scope =>
          rw [hscope] at hverified
          exact .inl ⟨scope, rfl, hverified, rfl, rfl⟩
    · next hverified =>
      split at h
      · cases h
      · next hleased =>
        cases h
        refine .inr ⟨_, ?_, hverified, hleased, rfl, rfl⟩
        cases hscope : catalog.scope with
        | none => exact .inr ⟨rfl, rfl⟩
        | some scope => exact .inl rfl

theorem markArchiveExported_eq_ok {claim : ArchiveClaim} {manifest : ExportedManifest}
    (h : markArchiveExported claim manifest now catalog = .ok catalog') :
    ∃ scope, catalog.scope = some scope ∧ scope.claim.map (·.token) = claim.claimToken ∧
      scope.state = .exporting ∧ catalog'.scope = some (exportedScope manifest now scope) := by
  simp only [markArchiveExported, bind_eq_ok, pure_eq_ok] at h
  obtain ⟨scope, howned, hresult⟩ := h
  unfold ownedScope at howned
  split at howned
  · cases howned
  · next found hfound =>
    split at howned
    · cases howned
    · next hguard =>
      cases howned
      push Not at hguard
      cases hresult
      exact ⟨scope, hfound, hguard.1, hguard.2, rfl⟩

theorem markArchiveVerified_eq_ok {manifestSha256 : String} {detail : VerificationDetail}
    {passed : Bool} (h : markArchiveVerified manifestSha256 detail passed now catalog = .ok catalog') :
    ∃ scope, catalog.scope = some scope ∧ scope.manifestSha256 = some manifestSha256 ∧
      catalog'.scope = some (verifiedScope detail passed now scope) := by
  unfold markArchiveVerified at h
  split at h
  · cases h
  · next scope hscope =>
    split at h
    · cases h
    · next hsame =>
      cases h
      exact ⟨scope, hscope, not_not.mp hsame, rfl⟩

theorem markArchiveFailed_cases (catalog : Catalog) (claim : ArchiveClaim) (detail : FailureDetail)
    (now : Int) :
    markArchiveFailed claim detail now catalog = catalog ∨
    ∃ scope token, catalog.scope = some scope ∧ claim.claimToken = some token ∧
      scope.claim.map (·.token) = some token ∧
      (markArchiveFailed claim detail now catalog).scope = some (failedScope detail now scope) := by
  unfold markArchiveFailed
  split
  · exact .inl rfl
  · next scope hscope =>
    split
    · exact .inl rfl
    · next hguard =>
      push Not at hguard
      obtain ⟨token, htoken⟩ := Option.ne_none_iff_exists'.mp hguard.1
      exact .inr ⟨scope, token, hscope, htoken, hguard.2.trans htoken, rfl⟩

/-- Recording a copy keeps the scope verified, under the same digests. -/
theorem recordCopyVerification_eq_ok {copy : CopyVerification}
    (h : recordCopyVerification copy catalog = .ok catalog') :
    ∃ scope scope', catalog.scope = some scope ∧ catalog'.scope = some scope' ∧
      scope.state.IsVerified ∧ scope'.state.IsVerified ∧
      scope' = { scope with state := scope'.state, updatedAt := scope'.updatedAt } := by
  unfold recordCopyVerification at h
  split at h
  · cases h
  · split at h
    · cases h
    · next scope hscope =>
      split at h
      · cases h
      · next hverified =>
        rw [not_not] at hverified
        split at h
        · cases h
        · simp only at h
          split at h
          · cases h
          · cases h
            refine ⟨scope, _, hscope, rfl, hverified, ?_⟩
            split
            · exact ⟨(by decide : ScopeState.IsVerified .independentlyCopied), rfl⟩
            · exact ⟨hverified, rfl⟩

/-- An evaluation only moves a scope that has been verified and has not failed. -/
theorem evaluateRetentionEligibility_eq_ok {epoch : EpochStatus} {minimum : Nat}
    {evaluation : RetentionEvaluation}
    (h : evaluateRetentionEligibility epoch minimum now catalog = .ok (catalog', evaluation)) :
    ∃ scope, catalog.scope = some scope ∧ (catalog'.scope = some scope ∨
      scope.verifiedAt.isSome = true ∧ catalog'.scope =
        some { scope with state := .retentionEligible, updatedAt := now }) := by
  unfold evaluateRetentionEligibility at h
  split at h
  · cases h
  · split at h
    · cases h
    · next scope hscope =>
      simp only at h
      cases h
      refine ⟨scope, hscope, ?_⟩
      split
      · next heligible =>
        refine .inr ⟨?_, rfl⟩
        by_contra hnot
        rw [Bool.not_eq_true] at hnot
        simp [retentionEvaluation, retentionChecks, hnot] at heligible
      · exact .inl rfl

end Inversion

end PumpResearch.Archive
