import PumpResearch.Archive.Export

/-! Copies of verified archives into one filesystem object store. A call of `copy_archive` takes
one step at a time: a check, a read, a block, a rename or a transaction. -/
namespace PumpResearch.Archive
open Results

/-! ### Files -/

abbrev FileBytes := List UInt8

/-- Where a file lies under the root of an archive or of a store. -/
inductive ObjectKey where
  | data (file : String)
  | sidecar (directory : String)
  | manifest (directory : String)
deriving DecidableEq

def ObjectKey.text : ObjectKey → String
  | .data file => file
  | .sidecar directory => s!"{directory}/manifest.sha256"
  | .manifest directory => s!"{directory}/manifest.json"

/-- What the libraries read in a file: its SHA-256, a JSON object, a digest, or the rows of
Parquet files, whose checks end with a message when they fail. -/
structure ArchiveFormat where
  sha256 : FileBytes → String
  sha256_injective : Function.Injective sha256
  manifest : FileBytes → Option Manifest
  sidecar : FileBytes → Option String
  readback : ManifestEntry → FileBytes → Except String Unit
  integrity : List (ManifestEntry × Option FileBytes) → Except String Unit
  aggregateDigest : List (String × String) → String

section Verify
variable (format : ArchiveFormat)

/-- `_verify_entry`. -/
def verifyEntry (files : ObjectKey → Option FileBytes) (entry : ManifestEntry) :
    Except String Unit :=
  match files (.data entry.file) with
  | none => .error s!"archive file is missing: {entry.file}"
  | some content =>
    if format.sha256 content ≠ entry.fileSha256 then
      .error s!"archive file checksum mismatch: {entry.file}"
    else format.readback entry content

/-- What `verify_archive` checks of a manifest that agrees with its sidecar. -/
def verifyEntries (files : ObjectKey → Option FileBytes) (found : Manifest) :
    Except String Unit := do
  forM found.entries (verifyEntry format files)
  if (found.entries.map (·.exportedRowCount)).sum ≠ found.exportedRowCount then
    throw "manifest exported row total differs from files"
  if found.sourceRowCount ≠ (found.entries.map (·.exportedRowCount)).sum then
    throw "source and exported row totals differ"
  if format.aggregateDigest (fileDigests found.entries) ≠ found.aggregateFileSha256 then
    throw "aggregate file digest mismatch"
  format.integrity (found.entries.map fun entry => (entry, files (.data entry.file)))

/-- `verify_archive`. A legacy archive is refused here, before its own verification: it is not
copied either way. -/
def verifyArchive (directory : String) (files : ObjectKey → Option FileBytes) :
    Except String VerificationDetail :=
  match files (.manifest directory) with
  | none => .error s!"No such file or directory: {(ObjectKey.manifest directory).text}"
  | some content =>
    match format.manifest content with
    | none => .error "archive manifest must be a JSON object"
    | some found =>
      if found.source.archiveSchemaVersion ≠ 2 then
        .error s!"unsupported archive schema version: {found.source.archiveSchemaVersion}"
      else
        match files (.sidecar directory) with
        | none => .error "manifest checksum sidecar is missing"
        | some sidecar =>
          if format.sidecar sidecar ≠ some (format.sha256 content) then
            .error "manifest checksum mismatch"
          else
            (verifyEntries format files found).map fun _ =>
              verificationDetail found (format.sha256 content)

end Verify

/-- A verified archive: its files under its root, and the database that catalogues it. -/
structure SourceArchive (format : ArchiveFormat) where
  database : String
  directory : String
  files : ObjectKey → Option FileBytes
  verification : VerificationDetail
  verified : verifyArchive format directory files = .ok verification

namespace SourceArchive
variable {format : ArchiveFormat} (archive : SourceArchive format)

def manifest : Option Manifest :=
  (archive.files (.manifest archive.directory)).bind format.manifest

/-- `ordered`: the data files, then the sidecar, then the manifest. -/
def ordered : List ObjectKey :=
  ((archive.manifest.map (·.entries)).getD []).map (fun entry => .data entry.file) ++
    [.sidecar archive.directory, .manifest archive.directory]

end SourceArchive

/-! ### Calls -/

/-- The file that a call copies, as it reads it. -/
structure SourceFile where
  key : ObjectKey
  content : FileBytes

/-- Where a call of `copy_archive` stands. Its temporary file has a name that nobody else draws,
so its content belongs to the call. -/
inductive CopyPhase where
  | verifying
  | putting (remaining : List ObjectKey)
  | comparing (file : SourceFile) (remaining : List ObjectKey)
  | staging (file : SourceFile) (remaining : List ObjectKey) (written : FileBytes)
  | replacing (file : SourceFile) (remaining : List ObjectKey) (written : FileBytes)
  | measuring (file : SourceFile) (remaining : List ObjectKey)
  | readingBack (file : SourceFile) (remaining : List ObjectKey)
  | verifyingCopy
  | recording
  | returned
  | raised (message : String)
  | crashed

structure CopyCall (format : ArchiveFormat) where
  archive : SourceArchive format
  copyRole : CopyRole
  independenceAsserted : Bool
  independenceDetail : Option String
  verifiedAt : Int

structure CopyRun (format : ArchiveFormat) where
  call : CopyCall format
  phase : CopyPhase

/-- The objects of the store, the catalog of each scope in each database, and the calls. -/
structure CopySystem (format : ArchiveFormat) where
  objects : ObjectKey → Option FileBytes
  catalogs : String → Uuid → Catalog
  runs : Uuid → Option (CopyRun format)

section Steps
variable {format : ArchiveFormat}

def CopySystem.enter (s : CopySystem format) (token : Uuid) (call : CopyCall format)
    (phase : CopyPhase) : CopySystem format :=
  { s with runs := Function.update s.runs token (some ⟨call, phase⟩) }

def CopySystem.setCatalog (s : CopySystem format) (database : String) (scopeId : Uuid)
    (catalog : Catalog) : CopySystem format :=
  { s with catalogs :=
      Function.update s.catalogs database (Function.update (s.catalogs database) scopeId catalog) }

def CatalogError.message : CatalogError → String
  | .busy message => message
  | .catalog message => message

/-- The items of `objects`: content length and digest have been compared with the source. -/
def copiedObjects (archive : SourceArchive format) : List (String × Nat × String) :=
  archive.ordered.filterMap fun key =>
    (archive.files key).map fun content => (key.text, content.length, format.sha256 content)

/-- The row that a call records. -/
def copyVerification (location : String) (call : CopyCall format) : CopyVerification where
  copyRole := call.copyRole
  providerKind := "filesystem"
  location := location
  manifestSha256 := call.archive.verification.manifestSha256
  aggregateFileSha256 := call.archive.verification.aggregateFileSha256
  totalBytes := ((copiedObjects call.archive).map (·.2.1)).sum
  objectCount := (copiedObjects call.archive).length
  independenceAsserted := call.independenceAsserted
  independenceDetail := call.independenceDetail
  verificationMethod := "content-length + full SHA256 read-after-upload"
  detail := String.intercalate " " ((copiedObjects call.archive).map fun item =>
    s!"{item.1} {item.2.1} {item.2.2}")
  verifiedAt := call.verifiedAt

/-- The blocks in which a file is copied. -/
def blockBytes : Nat := 1024 * 1024

/-- The next step of a call. The verification of the copy reads the store as it stands. -/
def advanceCopy (location : String) (token : Uuid) (s : CopySystem format) :
    CopySystem format :=
  match s.runs token with
  | none => s
  | some ⟨call, phase⟩ =>
    let archive := call.archive
    let enter := s.enter token call
    match phase with
    | .verifying =>
      if call.copyRole = .secondary ∧ call.independenceAsserted = false then
        enter (.raised "secondary archive copy requires an explicit independence assertion")
      else
        match verifyArchive format archive.directory archive.files with
        | .error message => enter (.raised message)
        | .ok _ => enter (.putting archive.ordered)
    | .putting [] => enter .verifyingCopy
    | .putting (key :: remaining) =>
      match archive.files key with
      | none => enter (.raised s!"No such file or directory: {key.text}")
      | some content =>
        if (s.objects key).isSome then enter (.comparing ⟨key, content⟩ remaining)
        else enter (.staging ⟨key, content⟩ remaining [])
    | .comparing file remaining =>
      match s.objects file.key with
      | none => enter (.raised s!"No such file or directory: {file.key.text}")
      | some existing =>
        if format.sha256 existing ≠ format.sha256 file.content then
          enter (.raised s!"object key already contains different content: {file.key.text}")
        else enter (.measuring file remaining)
    | .staging file remaining written =>
      if written.length < file.content.length then
        enter (.staging file remaining
          (written ++ (file.content.drop written.length).take blockBytes))
      else if format.sha256 written ≠ format.sha256 file.content then
        enter (.raised s!"staged filesystem object checksum failed: {file.key.text}")
      else enter (.replacing file remaining written)
    | .replacing file remaining written =>
      { enter (.measuring file remaining) with
        objects := Function.update s.objects file.key (some written) }
    | .measuring file remaining =>
      match s.objects file.key with
      | none => enter (.raised s!"No such file or directory: {file.key.text}")
      | some stored =>
        if stored.length ≠ file.content.length then
          enter (.raised s!"archive copy content length differs: {file.key.text}")
        else enter (.readingBack file remaining)
    | .readingBack file remaining =>
      match s.objects file.key with
      | none => enter (.raised s!"archive object is missing: {file.key.text}")
      | some stored =>
        if format.sha256 stored ≠ format.sha256 file.content then
          enter (.raised s!"archive copy readback checksum differs: {file.key.text}")
        else enter (.putting remaining)
    | .verifyingCopy =>
      match verifyArchive format archive.directory s.objects with
      | .error message => enter (.raised message)
      | .ok copied =>
        if copied.manifestSha256 ≠ archive.verification.manifestSha256 then
          enter (.raised "copied archive manifest identity differs after readback")
        else enter .recording
    | .recording =>
      match archive.manifest with
      | none => enter (.raised "archive manifest must be a JSON object")
      | some found =>
        match recordCopyVerification (copyVerification location call)
            (s.catalogs archive.database found.source.id) with
        | .error error => enter (.raised error.message)
        | .ok catalog =>
          (enter .returned).setCatalog archive.database found.source.id catalog
    | .returned | .raised _ | .crashed => s

/-- A step of a call, its start or its end, or another transaction on a catalog. -/
inductive CopyAction (format : ArchiveFormat) where
  | start (token : Uuid) (call : CopyCall format)
  | advance (token : Uuid)
  | interrupt (token : Uuid) (message : String)
  | crash (token : Uuid)
  | recatalog (database : String) (scopeId : Uuid) (catalog : Catalog)

/-- End a call that has not ended. -/
def stopCopy (token : Uuid) (phase : CopyPhase) (s : CopySystem format) : CopySystem format :=
  match s.runs token with
  | none | some ⟨_, .returned⟩ | some ⟨_, .raised _⟩ | some ⟨_, .crashed⟩ => s
  | some ⟨call, _⟩ => s.enter token call phase

def copyStep (location : String) (s : CopySystem format) : CopyAction format → CopySystem format
  | .start token call => if (s.runs token).isSome then s else s.enter token call .verifying
  | .advance token => advanceCopy location token s
  | .interrupt token message => stopCopy token (.raised message) s
  | .crash token => stopCopy token .crashed s
  | .recatalog database scopeId catalog => s.setCatalog database scopeId catalog

def emptyStore (catalogs : String → Uuid → Catalog) : CopySystem format :=
  ⟨fun _ => none, catalogs, fun _ => none⟩

end Steps

end PumpResearch.Archive
