import PumpResearch.Archive.Catalog

/-! Workers that export one source scope into one output directory. A worker takes one step at a
time: a transaction on the catalog, or a read or an atomic replacement of a file. -/
namespace PumpResearch.Archive
open KeyedTable Results

/-! ### Files -/

structure ManifestEntry where
  file : String
  fileSha256 : String
  exportedRowCount : Nat
  uncompressedLogicalBytes : Nat
  parquetBytes : Nat
deriving DecidableEq

/-- The manifest of an export. Its fixed texts and its configuration are one text. -/
structure Manifest where
  source : SourceScope
  entries : List ManifestEntry
  aggregateFileSha256 : String
  sourceRowCount : Nat
  exportedRowCount : Nat
  uncompressedLogicalBytes : Nat
  parquetBytes : Nat
  sourceScopeFullyCovered : Bool
  exportStartedAt : Int
  exportCompletedAt : Int
  verifiedAt : Int
  configuration : String
deriving DecidableEq

/-- The scope that is exported, where to, and the digests of its files. -/
structure ArchiveSite where
  source : SourceScope
  output : String
  manifestPath : String
  configuration : String
  manifestDigest : Manifest → String
  aggregateDigest : List (String × String) → String

structure ArchiveFiles where
  data : String → Option String
  manifest : Option Manifest
  sidecar : Option String

/-! ### Workers -/

/-- What a verified manifest is catalogued with. -/
structure VerifiedManifest where
  manifestSha256 : String
  detail : VerificationDetail
  aggregateFileSha256 : String
  parquetBytes : Nat
  objectCount : Nat

/-- Where a call of `export_epoch_range` stands. A verification of the worker's own export
carries its manifest and the digest it read. -/
inductive Phase where
  | exporting
  | publishing (startedAt : Int) (entries remaining : List ManifestEntry)
  | manifestWritten (manifest : Manifest)
  | sidecarHashed (manifest : Manifest) (digest : String)
  | sidecarWritten (manifest : Manifest)
  | verifying (exported : Option (Manifest × String))
  | manifestRead (exported : Option (Manifest × String)) (found : Manifest)
  | sidecarRead (exported : Option (Manifest × String)) (found : Manifest) (expected : String)
  | exportVerified (manifest : Manifest) (digest : String) (detail : VerificationDetail)
  | reuseVerified (detail : VerificationDetail)
  | exportCatalogued (verified : VerifiedManifest)
  | catalogued (verified : VerifiedManifest)
  | returned
  | raising
  | stopped

structure Worker where
  claim : ArchiveClaim
  phase : Phase

structure ArchiveSystem where
  catalog : Catalog
  files : ArchiveFiles
  workers : Uuid → Option Worker

def ArchiveSystem.advance (s : ArchiveSystem) (token : Uuid) (worker : Worker) (phase : Phase) :
    ArchiveSystem :=
  { s with workers := Function.update s.workers token (some { worker with phase }) }

/-- An exception inside an export leads to `mark_archive_failed`; elsewhere it ends the call. -/
def ArchiveSystem.raise (s : ArchiveSystem) (token : Uuid) (worker : Worker) : ArchiveSystem :=
  s.advance token worker
    (if worker.claim.reusableManifestPath = none then .raising else .stopped)

def ArchiveSystem.onWorker (s : ArchiveSystem) (token : Uuid)
    (f : Worker → ArchiveSystem) : ArchiveSystem :=
  match s.workers token with
  | none => s
  | some worker => f worker

section Steps
variable (site : ArchiveSite)

/-! ### Claiming and exporting -/

/-- Start a call: claim the scope under a token that no other call has drawn. -/
def startExport (token : Uuid) (now : Int) (s : ArchiveSystem) : ArchiveSystem :=
  if (s.workers token).isSome then s
  else
    match claimArchiveScope site.source token now 900 s.catalog with
    | .error _ => s
    | .ok (catalog, claim) =>
      let phase := if claim.reusableManifestPath = none then Phase.exporting else .verifying none
      { s with catalog, workers := Function.update s.workers token (some ⟨claim, phase⟩) }

/-- The rows are staged and counted again in the source. -/
def exportRows (token : Uuid) (startedAt : Int) (entries : List ManifestEntry)
    (s : ArchiveSystem) : ArchiveSystem :=
  s.onWorker token fun worker =>
    match worker.phase with
    | .exporting => s.advance token worker (.publishing startedAt entries entries)
    | _ => s

/-- One round of `_publish_files`. -/
def publishFile (token : Uuid) (s : ArchiveSystem) : ArchiveSystem :=
  s.onWorker token fun worker =>
    match worker.phase with
    | .publishing startedAt entries (entry :: remaining) =>
      match s.files.data entry.file with
      | some existing =>
        if existing = entry.fileSha256 then
          s.advance token worker (.publishing startedAt entries remaining)
        else s.raise token worker
      | none =>
        { s with files := { s.files with
            data := Function.update s.files.data entry.file (some entry.fileSha256) } }.advance
          token worker (.publishing startedAt entries remaining)
    | _ => s

def fileDigests (entries : List ManifestEntry) : List (String × String) :=
  entries.map fun entry => (entry.file, entry.fileSha256)

def buildManifest (startedAt completedAt verifiedAt : Int) (entries : List ManifestEntry) :
    Manifest where
  source := site.source
  entries := entries
  aggregateFileSha256 := site.aggregateDigest (fileDigests entries)
  sourceRowCount := (entries.map (·.exportedRowCount)).sum
  exportedRowCount := (entries.map (·.exportedRowCount)).sum
  uncompressedLogicalBytes := (entries.map (·.uncompressedLogicalBytes)).sum
  parquetBytes := (entries.map (·.parquetBytes)).sum
  sourceScopeFullyCovered := true
  exportStartedAt := startedAt
  exportCompletedAt := completedAt
  verifiedAt := verifiedAt
  configuration := site.configuration

/-- `_write_verified_manifest`: replace the manifest, whoever owns the claim by now. -/
def writeManifest (token : Uuid) (completedAt verifiedAt : Int) (s : ArchiveSystem) :
    ArchiveSystem :=
  s.onWorker token fun worker =>
    match worker.phase with
    | .publishing startedAt entries [] =>
      let manifest := buildManifest site startedAt completedAt verifiedAt entries
      { s with files := { s.files with manifest := some manifest } }.advance token worker
        (.manifestWritten manifest)
    | _ => s

/-- `_write_verified_manifest`: read the manifest back for its sidecar. -/
def hashForSidecar (token : Uuid) (s : ArchiveSystem) : ArchiveSystem :=
  s.onWorker token fun worker =>
    match worker.phase, s.files.manifest with
    | .manifestWritten manifest, some found =>
      s.advance token worker (.sidecarHashed manifest (site.manifestDigest found))
    | .manifestWritten _, none => s.raise token worker
    | _, _ => s

/-- `_write_verified_manifest`: replace the sidecar. -/
def writeSidecar (token : Uuid) (s : ArchiveSystem) : ArchiveSystem :=
  s.onWorker token fun worker =>
    match worker.phase with
    | .sidecarHashed manifest digest =>
      { s with files := { s.files with sidecar := some digest } }.advance token worker
        (.sidecarWritten manifest)
    | _ => s

/-- The digest that the export is catalogued with. -/
def hashManifest (token : Uuid) (s : ArchiveSystem) : ArchiveSystem :=
  s.onWorker token fun worker =>
    match worker.phase, s.files.manifest with
    | .sidecarWritten manifest, some found =>
      s.advance token worker (.verifying (some (manifest, site.manifestDigest found)))
    | .sidecarWritten _, none => s.raise token worker
    | _, _ => s

/-! ### Verifying -/

/-- `verify_archive`: read the manifest. -/
def readManifest (token : Uuid) (s : ArchiveSystem) : ArchiveSystem :=
  s.onWorker token fun worker =>
    match worker.phase, s.files.manifest with
    | .verifying exported, some found => s.advance token worker (.manifestRead exported found)
    | .verifying _, none => s.raise token worker
    | _, _ => s

/-- `verify_archive`: read the sidecar. -/
def readSidecar (token : Uuid) (s : ArchiveSystem) : ArchiveSystem :=
  s.onWorker token fun worker =>
    match worker.phase, s.files.sidecar with
    | .manifestRead exported found, some expected =>
      s.advance token worker (.sidecarRead exported found expected)
    | .manifestRead _ _, none => s.raise token worker
    | _, _ => s

/-- The totals and the files of a manifest are as it says. -/
def EntriesVerified (data : String → Option String) (manifest : Manifest) : Prop :=
  (∀ entry ∈ manifest.entries, data entry.file = some entry.fileSha256) ∧
    (manifest.entries.map (·.exportedRowCount)).sum = manifest.exportedRowCount ∧
    manifest.sourceRowCount = manifest.exportedRowCount ∧
    site.aggregateDigest (fileDigests manifest.entries) = manifest.aggregateFileSha256

instance decidableEntriesVerified (data : String → Option String) (manifest : Manifest) :
    Decidable (EntriesVerified site data manifest) :=
  inferInstanceAs (Decidable ((∀ entry ∈ manifest.entries, _) ∧ _))

def verificationDetail (found : Manifest) (digest : String) : VerificationDetail where
  manifestVerified := true
  manifestSha256 := digest
  archiveIdentitySha256 := found.source.identitySha256
  aggregateFileSha256 := found.aggregateFileSha256
  rowCount := (found.entries.map (·.exportedRowCount)).sum
  fileCount := found.entries.length
  sourceScopeFullyCovered := found.sourceScopeFullyCovered
  duckdbReadbackPassed := true

/-- `verify_archive`: compare the sidecar with the manifest as it is by now, read every file
back, and go on with the export or the reuse. -/
def finishVerify (token : Uuid) (readback : Bool) (s : ArchiveSystem) : ArchiveSystem :=
  s.onWorker token fun worker =>
    match worker.phase, s.files.manifest with
    | .sidecarRead exported found expected, some current =>
      let digest := site.manifestDigest current
      if expected = digest ∧ EntriesVerified site s.files.data found ∧ readback = true then
        let detail := verificationDetail found digest
        match exported with
        | some (manifest, sha256) => s.advance token worker (.exportVerified manifest sha256 detail)
        | none =>
          if detail.archiveIdentitySha256 ≠ site.source.identitySha256 then s.raise token worker
          else if worker.claim.previousState = .exported then
            s.advance token worker (.reuseVerified detail)
          else s.advance token worker .returned
      else s.raise token worker
    | .sidecarRead _ _ _, none => s.raise token worker
    | _, _ => s

/-! ### Cataloguing -/

/-- `mark_archive_exported`. -/
def markExported (token : Uuid) (now : Int) (s : ArchiveSystem) : ArchiveSystem :=
  s.onWorker token fun worker =>
    match worker.phase with
    | .exportVerified manifest digest detail =>
      match markArchiveExported worker.claim
          ⟨site.manifestPath, digest, manifest.aggregateFileSha256, manifest.sourceRowCount,
            manifest.parquetBytes⟩ now s.catalog with
      | .error _ => s.raise token worker
      | .ok catalog =>
        { s with catalog }.advance token worker (.exportCatalogued
          ⟨digest, detail, manifest.aggregateFileSha256, manifest.parquetBytes,
            manifest.entries.length + 2⟩)
    | _ => s

/-- A reuse reads the manifest once more for the sizes of its copy. -/
def readExisting (token : Uuid) (s : ArchiveSystem) : ArchiveSystem :=
  s.onWorker token fun worker =>
    match worker.phase, s.files.manifest with
    | .reuseVerified detail, some existing =>
      s.advance token worker (.exportCatalogued
        ⟨detail.manifestSha256, detail, detail.aggregateFileSha256, existing.parquetBytes,
          existing.entries.length + 2⟩)
    | .reuseVerified _, none => s.raise token worker
    | _, _ => s

/-- `mark_archive_verified`. -/
def markVerified (token : Uuid) (now : Int) (s : ArchiveSystem) : ArchiveSystem :=
  s.onWorker token fun worker =>
    match worker.phase with
    | .exportCatalogued verified =>
      match markArchiveVerified verified.manifestSha256 verified.detail
          verified.detail.duckdbReadbackPassed now s.catalog with
      | .error _ => s.raise token worker
      | .ok catalog => { s with catalog }.advance token worker (.catalogued verified)
    | _ => s

/-- The primary copy that a worker records. -/
def primaryCopy (verified : VerifiedManifest) (manifestBytes : Nat) (now : Int) :
    CopyVerification where
  copyRole := .primary
  providerKind := "filesystem"
  location := site.output
  manifestSha256 := verified.manifestSha256
  aggregateFileSha256 := verified.aggregateFileSha256
  totalBytes := verified.parquetBytes + manifestBytes
  objectCount := verified.objectCount
  independenceAsserted := false
  independenceDetail := none
  verificationMethod := "full local file checksum/content/DuckDB readback"
  detail := verified.detail.manifestSha256
  verifiedAt := now

/-- `record_copy_verification` of the primary copy. -/
def recordPrimary (token : Uuid) (manifestBytes : Nat) (now : Int) (s : ArchiveSystem) :
    ArchiveSystem :=
  s.onWorker token fun worker =>
    match worker.phase with
    | .catalogued verified =>
      match recordCopyVerification (primaryCopy site verified manifestBytes now) s.catalog with
      | .error _ => s.raise token worker
      | .ok catalog => { s with catalog }.advance token worker .returned
    | _ => s

/-! ### Failing -/

/-- `mark_archive_failed`. -/
def markFailed (token : Uuid) (detail : FailureDetail) (now : Int) (s : ArchiveSystem) :
    ArchiveSystem :=
  s.onWorker token fun worker =>
    match worker.phase with
    | .raising =>
      { s with catalog := markArchiveFailed worker.claim detail now s.catalog }.advance token worker
        .stopped
    | _ => s

/-- An exception that does not come from the modelled checks. -/
def interrupt (token : Uuid) (s : ArchiveSystem) : ArchiveSystem :=
  s.onWorker token fun worker =>
    match worker.phase with
    | .returned | .raising | .stopped => s
    | _ => s.raise token worker

def crash (token : Uuid) (s : ArchiveSystem) : ArchiveSystem :=
  s.onWorker token fun worker => s.advance token worker .stopped

/-! ### All steps -/

/-- One step of one worker, under any clock, or of the commands that copy and evaluate. -/
inductive ArchiveAction where
  | startExport (token : Uuid) (now : Int)
  | exportRows (token : Uuid) (startedAt : Int) (entries : List ManifestEntry)
  | publishFile (token : Uuid)
  | writeManifest (token : Uuid) (completedAt verifiedAt : Int)
  | hashForSidecar (token : Uuid)
  | writeSidecar (token : Uuid)
  | hashManifest (token : Uuid)
  | readManifest (token : Uuid)
  | readSidecar (token : Uuid)
  | finishVerify (token : Uuid) (readback : Bool)
  | markExported (token : Uuid) (now : Int)
  | readExisting (token : Uuid)
  | markVerified (token : Uuid) (now : Int)
  | recordPrimary (token : Uuid) (manifestBytes : Nat) (now : Int)
  | markFailed (token : Uuid) (detail : FailureDetail) (now : Int)
  | interrupt (token : Uuid)
  | crash (token : Uuid)
  | recordCopy (copy : CopyVerification)
  | evaluateRetention (epoch : EpochStatus) (minimumHotRetentionDays : Nat) (now : Int)

def archiveStep (s : ArchiveSystem) : ArchiveAction → ArchiveSystem
  | .startExport token now => startExport site token now s
  | .exportRows token startedAt entries => exportRows token startedAt entries s
  | .publishFile token => publishFile token s
  | .writeManifest token completedAt verifiedAt => writeManifest site token completedAt verifiedAt s
  | .hashForSidecar token => hashForSidecar site token s
  | .writeSidecar token => writeSidecar token s
  | .hashManifest token => hashManifest site token s
  | .readManifest token => readManifest token s
  | .readSidecar token => readSidecar token s
  | .finishVerify token readback => finishVerify site token readback s
  | .markExported token now => markExported site token now s
  | .readExisting token => readExisting token s
  | .markVerified token now => markVerified token now s
  | .recordPrimary token manifestBytes now => recordPrimary site token manifestBytes now s
  | .markFailed token detail now => markFailed token detail now s
  | .interrupt token => interrupt token s
  | .crash token => crash token s
  | .recordCopy copy =>
    match recordCopyVerification copy s.catalog with
    | .error _ => s
    | .ok catalog => { s with catalog }
  | .evaluateRetention epoch minimumHotRetentionDays now =>
    match evaluateRetentionEligibility epoch minimumHotRetentionDays now s.catalog with
    | .error _ => s
    | .ok (catalog, _) => { s with catalog }

end Steps

end PumpResearch.Archive
