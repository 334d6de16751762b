import PumpResearch.Archive.ReturnedExports
import PumpResearch.Archive.StagedFiles
import PumpResearch.Library.CountableTexts

/-! An export that stops while it publishes its files, and a later export of the same rows into
the same directory. -/
namespace PumpResearch.Archive
open CountableTexts KeyedTable Results Runs RowGroups

/-! ### Calls -/

/-- One call of `export_epoch_range`: its claim token, its clock at each transaction, and whether
its files pass the content and DuckDB checks. -/
structure ExportCall where
  token : Uuid
  claimedAt : Int
  exportStartedAt : Int
  exportCompletedAt : Int
  verifiedAt : Int
  exportedAt : Int
  markedAt : Int
  copiedAt : Int
  manifestBytes : Nat
  readback : Bool

/-- How a call stops: with an exception, which releases its lease, or with its process. -/
inductive Interruption where
  | raised (detail : FailureDetail) (failedAt : Int)
  | crashed

namespace ExportCall
variable (call : ExportCall)

def staging (entries : List ManifestEntry) : List ArchiveAction :=
  [.startExport call.token call.claimedAt, .exportRows call.token call.exportStartedAt entries]

def publishing (count : Nat) : List ArchiveAction := List.replicate count (.publishFile call.token)

def verifying : List ArchiveAction := [
  .writeManifest call.token call.exportCompletedAt call.verifiedAt, .hashForSidecar call.token,
  .writeSidecar call.token, .hashManifest call.token, .readManifest call.token,
  .readSidecar call.token, .finishVerify call.token call.readback]

def cataloguing : List ArchiveAction := [
  .markExported call.token call.exportedAt, .markVerified call.token call.markedAt,
  .recordPrimary call.token call.manifestBytes call.copiedAt]

/-- A call that nothing interrupts. -/
def complete (entries : List ManifestEntry) : List ArchiveAction :=
  call.staging entries ++ (call.publishing entries.length ++ (call.verifying ++ call.cataloguing))

def stop : Interruption → List ArchiveAction
  | .raised detail failedAt => [.interrupt call.token, .markFailed call.token detail failedAt]
  | .crashed => [.crash call.token]

/-- A call that stops once it has published some files. -/
def interrupted (entries : List ManifestEntry) (count : Nat) (interruption : Interruption) :
    List ArchiveAction :=
  call.staging entries ++ (call.publishing count ++ call.stop interruption)

end ExportCall

/-- All files of a call are published, and it returns when they pass the checks of their rows. -/
structure Completed (call : ExportCall) (entries : List ManifestEntry) (s : ArchiveSystem) :
    Prop where
  files : ∀ entry ∈ entries, s.files.data entry.file = some entry.fileSha256
  returns : call.readback = true → ∃ worker ∈ s.workers call.token, worker.phase = .returned

/-! ### Published files are never replaced -/

section Kept
variable {site : ArchiveSite} {s : ArchiveSystem} {path digest : String}

theorem data_onWorker {token : Uuid} {f : Worker → ArchiveSystem}
    (h : s.files.data path = some digest)
    (hf : ∀ worker, (f worker).files.data path = some digest) :
    (s.onWorker token f).files.data path = some digest := by
  unfold ArchiveSystem.onWorker
  split
  · exact h
  · exact hf _

theorem data_publishFile (h : s.files.data path = some digest) (token : Uuid) :
    (publishFile token s).files.data path = some digest := by
  refine data_onWorker h fun worker => ?_
  split
  · next startedAt entries entry remaining _ =>
    split
    · split
      · exact h
      · exact h
    · next hfree =>
      have hne : path ≠ entry.file := by
        intro heq
        rw [← heq, h] at hfree
        cases hfree
      exact (Function.update_of_ne hne _ _).trans h
  · exact h

theorem data_archiveStep (h : s.files.data path = some digest) (action : ArchiveAction) :
    (archiveStep site s action).files.data path = some digest := by
  cases action with
  | publishFile token => exact data_publishFile h token
  | startExport token now =>
    simp only [archiveStep, startExport]
    split
    · exact h
    · split
      · exact h
      · exact h
  | finishVerify token readback =>
    refine data_onWorker h fun worker => ?_
    split
    · dsimp only
      split
      · split
        · exact h
        · split
          · exact h
          · split
            · exact h
            · exact h
      · exact h
    · exact h
    · exact h
  | recordCopy copy =>
    simp only [archiveStep]
    split
    · exact h
    · exact h
  | evaluateRetention epoch minimumHotRetentionDays now =>
    simp only [archiveStep]
    split
    · exact h
    · exact h
  | exportRows => exact data_onWorker h fun _ => by split <;> exact h
  | writeManifest => exact data_onWorker h fun _ => by split <;> exact h
  | hashForSidecar => exact data_onWorker h fun _ => by split <;> exact h
  | writeSidecar => exact data_onWorker h fun _ => by split <;> exact h
  | hashManifest => exact data_onWorker h fun _ => by split <;> exact h
  | readManifest => exact data_onWorker h fun _ => by split <;> exact h
  | readSidecar => exact data_onWorker h fun _ => by split <;> exact h
  | markExported =>
    refine data_onWorker h fun worker => ?_
    split
    · split
      · exact h
      · exact h
    · exact h
  | readExisting => exact data_onWorker h fun _ => by split <;> exact h
  | markVerified =>
    refine data_onWorker h fun worker => ?_
    split
    · split
      · exact h
      · exact h
    · exact h
  | recordPrimary =>
    refine data_onWorker h fun worker => ?_
    split
    · split
      · exact h
      · exact h
    · exact h
  | markFailed => exact data_onWorker h fun _ => by split <;> exact h
  | interrupt => exact data_onWorker h fun _ => by split <;> exact h
  | crash => exact data_onWorker h fun _ => h

theorem data_run (site : ArchiveSite) (h : s.files.data path = some digest)
    (actions : List ArchiveAction) :
    (run (archiveStep site) s actions).files.data path = some digest := by
  induction actions generalizing s with
  | nil => exact h
  | cons action rest ih => exact ih (data_archiveStep h action)

end Kept

/-! ### Publishing -/

/-- The files after some entries have been published over them. -/
def publishedData (data : String → Option String) (entries : List ManifestEntry) :
    String → Option String :=
  entries.foldl (fun data entry => Function.update data entry.file (some entry.fileSha256)) data

section Publishing
variable {site : ArchiveSite} {data : String → Option String} {entries : List ManifestEntry}

theorem publishedData_of_ne {path : String} (h : ∀ entry ∈ entries, path ≠ entry.file) :
    publishedData data entries path = data path := by
  induction entries generalizing data with
  | nil => rfl
  | cons entry rest ih =>
    have hrest : publishedData (Function.update data entry.file (some entry.fileSha256)) rest path =
        Function.update data entry.file (some entry.fileSha256) path :=
      ih fun other hother => h other (List.mem_cons_of_mem _ hother)
    exact hrest.trans (Function.update_of_ne (h entry List.mem_cons_self) _ _)

theorem publishedData_of_mem (hnames : (entries.map (·.file)).Nodup) {entry : ManifestEntry}
    (h : entry ∈ entries) : publishedData data entries entry.file = some entry.fileSha256 := by
  induction entries generalizing data with
  | nil => cases h
  | cons first rest ih =>
    rw [List.map_cons, List.nodup_cons] at hnames
    obtain ⟨hfirst, hrest⟩ := hnames
    cases List.mem_cons.mp h with
    | inl heq =>
      have hne : ∀ other ∈ rest, first.file ≠ other.file := by
        intro other hother hsame
        rw [hsame] at hfirst
        exact hfirst (List.mem_map_of_mem hother)
      rw [heq]
      exact (publishedData_of_ne hne).trans (Function.update_self ..)
    | inr hin => exact ih hrest hin

/-- Publishing goes on while the files that exist have the digests of their entries. -/
theorem run_publishing {s : ArchiveSystem} {call : ExportCall} {claim : ArchiveClaim}
    {startedAt : Int} {remaining : List ManifestEntry}
    (hworker : s.workers call.token = some ⟨claim, .publishing startedAt entries remaining⟩)
    (count : Nat) (hnames : (remaining.map (·.file)).Nodup)
    (hfree : ∀ entry ∈ remaining.take count,
      s.files.data entry.file = none ∨ s.files.data entry.file = some entry.fileSha256) :
    run (archiveStep site) s (call.publishing count) =
      { s with
        files := { s.files with data := publishedData s.files.data (remaining.take count) }
        workers := Function.update s.workers call.token
          (some ⟨claim, .publishing startedAt entries (remaining.drop count)⟩) } := by
  induction count generalizing s remaining with
  | zero =>
    have hsame := Function.update_eq_self (f := s.workers) call.token
    rw [hworker] at hsame
    simp [ExportCall.publishing, run, publishedData, hsame]
  | succ count ih =>
    cases remaining with
    | nil =>
      have hstay : publishFile call.token s = s := by
        simp [publishFile, ArchiveSystem.onWorker, hworker]
      have hrest := ih hworker hnames fun entry h => by simp at h
      simpa [ExportCall.publishing, List.replicate_succ, run, archiveStep, hstay] using hrest
    | cons entry rest =>
      have hpublished : publishFile call.token s =
          { s with
            files := { s.files with
              data := Function.update s.files.data entry.file (some entry.fileSha256) }
            workers := Function.update s.workers call.token
              (some ⟨claim, .publishing startedAt entries rest⟩) } := by
        cases hfree entry (by simp) with
        | inl hnone =>
          simp [publishFile, ArchiveSystem.onWorker, hworker, hnone, ArchiveSystem.advance]
        | inr hequal =>
          have hdata := Function.update_eq_self (f := s.files.data) entry.file
          rw [hequal] at hdata
          simp [publishFile, ArchiveSystem.onWorker, hworker, hequal, ArchiveSystem.advance, hdata]
      rw [List.map_cons, List.nodup_cons] at hnames
      obtain ⟨hentry, hrestNames⟩ := hnames
      have hnext : (publishFile call.token s).workers call.token =
          some ⟨claim, .publishing startedAt entries rest⟩ := by
        rw [hpublished]
        exact Function.update_self ..
      have hrestFree : ∀ other ∈ rest.take count,
          (publishFile call.token s).files.data other.file = none ∨
            (publishFile call.token s).files.data other.file = some other.fileSha256 := by
        intro other hother
        have hne : other.file ≠ entry.file := by
          intro heq
          rw [← heq] at hentry
          exact hentry (List.mem_map_of_mem (List.mem_of_mem_take hother))
        rw [hpublished]
        simp only [Function.update_of_ne hne]
        exact hfree other (List.mem_cons_of_mem _ hother)
      have hrest := ih hnext hrestNames hrestFree
      have hfirst : run (archiveStep site) s (call.publishing (count + 1)) =
          run (archiveStep site) (publishFile call.token s) (call.publishing count) := rfl
      rw [hfirst, hrest, hpublished]
      simp [publishedData]

end Publishing

/-! ### Claiming and cataloguing -/

section Calls
variable {site : ArchiveSite} {s : ArchiveSystem} {call : ExportCall}

/-- A claim of the scope takes it for a new export. -/
def Claimable (site : ArchiveSite) (token : Uuid) (now : Int) (scope : ArchiveScope)
    (catalog : Catalog) : Prop :=
  claimArchiveScope site.source token now 900 catalog =
    .ok ({ catalog with scope := some (claimedScope scope token now 900) },
      ⟨some token, none, scope.state⟩)

/-- The catalog of a call that has claimed the scope. -/
def ExportCall.claimed (call : ExportCall) (scope : ArchiveScope) (catalog : Catalog) : Catalog :=
  { catalog with scope := some (claimedScope scope call.token call.claimedAt 900) }

theorem run_staging {scope : ArchiveScope} (hworker : s.workers call.token = none)
    (hclaim : Claimable site call.token call.claimedAt scope s.catalog)
    (entries : List ManifestEntry) :
    run (archiveStep site) s (call.staging entries) =
      { s with
        catalog := call.claimed scope s.catalog
        workers := Function.update s.workers call.token
          (some ⟨⟨some call.token, none, scope.state⟩,
            .publishing call.exportStartedAt entries entries⟩) } := by
  unfold Claimable at hclaim
  simp [ExportCall.staging, run, archiveStep, startExport, hworker, hclaim, exportRows,
    ArchiveSystem.onWorker, ArchiveSystem.advance, ExportCall.claimed]

theorem claimable_empty (token : Uuid) (now : Int) :
    Claimable site token now (pendingScope site.source now) emptyCatalog := by
  have hstate : ¬ ScopeState.pending.IsVerified := by decide
  simp [Claimable, claimArchiveScope, emptyCatalog, pendingScope, hstate, Leased]

/-- The row that a stopped call leaves. -/
def Interruption.leaves : Interruption → ArchiveScope → ArchiveScope
  | .raised detail failedAt, scope => failedScope detail failedAt scope
  | .crashed, scope => scope

theorem run_stop {scope : ArchiveScope} {previous : ScopeState} {startedAt : Int}
    {entries remaining : List ManifestEntry} (interruption : Interruption)
    (hcatalog : s.catalog.scope = some (claimedScope scope call.token call.claimedAt 900))
    (hworker : s.workers call.token =
      some ⟨⟨some call.token, none, previous⟩, .publishing startedAt entries remaining⟩) :
    run (archiveStep site) s (call.stop interruption) =
      { s with
        catalog := { s.catalog with
          scope := some (interruption.leaves
            (claimedScope scope call.token call.claimedAt 900)) }
        workers := Function.update s.workers call.token
          (some ⟨⟨some call.token, none, previous⟩, .stopped⟩) } := by
  cases interruption with
  | raised detail failedAt =>
    have howner : (claimedScope scope call.token call.claimedAt 900).claim.map (·.token) =
        some call.token := rfl
    simp [ExportCall.stop, run, archiveStep, interrupt, markFailed, ArchiveSystem.onWorker,
      ArchiveSystem.raise, ArchiveSystem.advance, hworker, markArchiveFailed, hcatalog, howner,
      Interruption.leaves]
  | crashed =>
    have hsame : s.catalog = { s.catalog with
        scope := some (claimedScope scope call.token call.claimedAt 900) } := by
      rw [← hcatalog]
    simp [ExportCall.stop, run, archiveStep, crash, ArchiveSystem.onWorker,
      ArchiveSystem.advance, hworker, Interruption.leaves, ← hsame]

/-- A stopped call can be followed by another one, once its lease is released or over. -/
theorem claimable_stopped {scope : ArchiveScope} {interruption : Interruption} {token : Uuid}
    {now : Int} {catalog : Catalog} (hsource : scope.source = site.source)
    (hcatalog : catalog.scope = some (interruption.leaves
      (claimedScope scope call.token call.claimedAt 900)))
    (hfree : interruption ≠ .crashed ∨ call.claimedAt + seconds 900 ≤ now) :
    Claimable site token now
      (interruption.leaves (claimedScope scope call.token call.claimedAt 900)) catalog := by
  have hfailed : ¬ ScopeState.failed.IsVerified := by decide
  have hexporting : ¬ ScopeState.exporting.IsVerified := by decide
  cases interruption with
  | raised detail failedAt =>
    simp [Claimable, claimArchiveScope, hcatalog, Interruption.leaves, failedScope, claimedScope,
      hsource, hfailed, Leased]
  | crashed =>
    have hover : call.claimedAt + seconds 900 ≤ now := hfree.resolve_left (by simp)
    simp [Claimable, claimArchiveScope, hcatalog, Interruption.leaves, claimedScope, hsource,
      hexporting, Leased, hover]

/-- Files that all match their entries are verified under the manifest of the call. -/
theorem run_verifying {claim : ArchiveClaim} {startedAt : Int} {entries : List ManifestEntry}
    (hworker : s.workers call.token = some ⟨claim, .publishing startedAt entries []⟩)
    (hfiles : ∀ entry ∈ entries, s.files.data entry.file = some entry.fileSha256)
    (hreadback : call.readback = true) :
    let manifest := buildManifest site startedAt call.exportCompletedAt call.verifiedAt entries
    let digest := site.manifestDigest manifest
    run (archiveStep site) s call.verifying =
      { s with
        files := { s.files with manifest := some manifest, sidecar := some digest }
        workers := Function.update s.workers call.token
          (some ⟨claim, .exportVerified manifest digest (verificationDetail manifest digest)⟩) } := by
  intro manifest digest
  have hverified : EntriesVerified site s.files.data manifest := ⟨hfiles, rfl, rfl, rfl⟩
  simp only [ExportCall.verifying, run, List.foldl_cons, List.foldl_nil, archiveStep]
  simp [writeManifest, hashForSidecar, writeSidecar, hashManifest, readManifest, readSidecar,
    finishVerify, ArchiveSystem.onWorker, ArchiveSystem.advance, hworker, hreadback]
  rw [if_pos hverified]

/-- The first copy of a verified scope is recorded. -/
theorem recordFirstCopy {copy : CopyVerification} {catalog : Catalog} {scope : ArchiveScope}
    (hprimary : copy.copyRole = .primary) (hscope : catalog.scope = some scope)
    (hverified : scope.state.IsVerified)
    (hmanifest : scope.manifestSha256 = some copy.manifestSha256)
    (haggregate : scope.aggregateFileSha256 = some copy.aggregateFileSha256)
    (hcopies : catalog.copies = Table.empty) :
    ∃ catalog', recordCopyVerification copy catalog = .ok catalog' := by
  have hfound : (catalog.copies.insertNew copy).find? copy.identity = some copy := by
    rw [Table.find?_insertNew, hcopies]
    simp
  unfold recordCopyVerification
  simp [hprimary, hscope, hverified, hmanifest, haggregate, hfound]

/-- A verified export is catalogued, and its primary copy recorded. -/
theorem run_cataloguing {scope : ArchiveScope} {claim : ArchiveClaim} {manifest : Manifest}
    {digest : String}
    (hcatalog : s.catalog.scope = some (claimedScope scope call.token call.claimedAt 900))
    (hcopies : s.catalog.copies = Table.empty) (hclaim : claim.claimToken = some call.token)
    (hworker : s.workers call.token =
      some ⟨claim, .exportVerified manifest digest (verificationDetail manifest digest)⟩) :
    ∃ worker ∈ (run (archiveStep site) s call.cataloguing).workers call.token,
      worker.phase = .returned := by
  have howned : ownedScope claim s.catalog =
      .ok (claimedScope scope call.token call.claimedAt 900) := by
    simp [ownedScope, hcatalog, hclaim, claimedScope]
  let exported : ExportedManifest := ⟨site.manifestPath, digest, manifest.aggregateFileSha256,
    manifest.sourceRowCount, manifest.parquetBytes⟩
  let verified : VerifiedManifest := ⟨digest, verificationDetail manifest digest,
    manifest.aggregateFileSha256, manifest.parquetBytes, manifest.entries.length + 2⟩
  let row := verifiedScope (verificationDetail manifest digest) true call.markedAt
    (exportedScope exported call.exportedAt (claimedScope scope call.token call.claimedAt 900))
  have hverified : ScopeState.verified.IsVerified := by decide
  obtain ⟨catalog, hrecorded⟩ := @recordFirstCopy
    (primaryCopy site verified call.manifestBytes call.copiedAt)
    { s.catalog with scope := some row } row rfl rfl hverified rfl rfl hcopies
  have hexported : (archiveStep site s (.markExported call.token call.exportedAt)) =
      { s with
        catalog := { s.catalog with scope := some (exportedScope exported call.exportedAt
          (claimedScope scope call.token call.claimedAt 900)) }
        workers := Function.update s.workers call.token
          (some ⟨claim, .exportCatalogued verified⟩) } := by
    simp [archiveStep, markExported, ArchiveSystem.onWorker, hworker, markArchiveExported, howned,
      ArchiveSystem.advance, exported, verified]
  have hmarked : archiveStep site
      (archiveStep site s (.markExported call.token call.exportedAt))
      (.markVerified call.token call.markedAt) =
      { s with
        catalog := { s.catalog with scope := some row }
        workers := Function.update s.workers call.token (some ⟨claim, .catalogued verified⟩) } := by
    rw [hexported]
    simp [archiveStep, markVerified, ArchiveSystem.onWorker, markArchiveVerified, exportedScope,
      ArchiveSystem.advance, exported, verified, row, verificationDetail]
  have hreturned : run (archiveStep site) s call.cataloguing =
      { s with
        catalog := catalog
        workers := Function.update s.workers call.token (some ⟨claim, .returned⟩) } := by
    simp only [ExportCall.cataloguing, run, List.foldl_cons, List.foldl_nil, hmarked]
    simp [archiveStep, recordPrimary, ArchiveSystem.onWorker, hrecorded, ArchiveSystem.advance]
  rw [hreturned]
  exact ⟨⟨claim, .returned⟩, Function.update_self .., rfl⟩

/-- A call that may claim the scope and meets no other digests under its names completes. -/
theorem run_complete {scope : ArchiveScope} {entries : List ManifestEntry}
    (hworker : s.workers call.token = none)
    (hclaim : Claimable site call.token call.claimedAt scope s.catalog)
    (hcopies : s.catalog.copies = Table.empty) (hnames : (entries.map (·.file)).Nodup)
    (hfree : ∀ entry ∈ entries,
      s.files.data entry.file = none ∨ s.files.data entry.file = some entry.fileSha256) :
    Completed call entries (run (archiveStep site) s (call.complete entries)) := by
  let claim : ArchiveClaim := ⟨some call.token, none, scope.state⟩
  let published : ArchiveSystem :=
    { catalog := call.claimed scope s.catalog
      files := { s.files with data := publishedData s.files.data entries }
      workers := Function.update s.workers call.token
        (some ⟨claim, .publishing call.exportStartedAt entries []⟩) }
  have hpublished : run (archiveStep site) s (call.complete entries) =
      run (archiveStep site) published (call.verifying ++ call.cataloguing) := by
    rw [ExportCall.complete, run_append, run_staging hworker hclaim, run_append,
      run_publishing (Function.update_self ..) entries.length hnames (by rwa [List.take_length])]
    simp [published, claim]
  have hfiles : ∀ entry ∈ entries, published.files.data entry.file = some entry.fileSha256 :=
    fun entry hentry => publishedData_of_mem hnames hentry
  rw [hpublished]
  constructor
  · exact fun entry hentry => data_run site (hfiles entry hentry) _
  · intro hreadback
    have hpublishing : published.workers call.token =
        some ⟨claim, .publishing call.exportStartedAt entries []⟩ := Function.update_self ..
    have hcatalog : published.catalog.scope =
        some (claimedScope scope call.token call.claimedAt 900) := rfl
    rw [run_append, run_verifying hpublishing hfiles hreadback]
    exact run_cataloguing hcatalog hcopies rfl (Function.update_self ..)

end Calls

/-! ### Retrying an interrupted export -/

/-- The digest of a file of an export. -/
def ExportSource.partSha256 {Row : Type} (source : ExportSource Row) (chunkRows maxFileRows : Nat)
    (file : PlannedFile) : String :=
  (source.parquet file.familyRange.1 chunkRows (rowGroups chunkRows maxFileRows file.partNumber
    (source.rows file.familyRange.1 file.familyRange.2))).sha256

section Retry
variable {Row : Type} {site : ArchiveSite} {source : ExportSource Row}
  {chunkRows maxFileRows chunkRows' maxFileRows' : Nat} {entries entries' : List ManifestEntry}

theorem entries_names_nodup
    (h : source.stageFiles chunkRows maxFileRows site.source = .ok entries) :
    (entries.map (·.file)).Nodup := by
  obtain ⟨_, heq⟩ := (stageFiles_eq_ok source chunkRows maxFileRows).mp h
  rw [heq, List.map_map]
  exact plannedFiles_nodup.map_on fun file hfile file' hfile' hsame =>
    (plannedEntry_file_eq chunkRows chunkRows hfile hfile').mp hsame

/-- What an interrupted export leaves behind. -/
def ExportCall.leftover (first : ExportCall) (scope : SourceScope) (entries : List ManifestEntry)
    (count : Nat) (interruption : Interruption) : ArchiveSystem where
  catalog := { emptyCatalog with scope := some (interruption.leaves (claimedScope
    (pendingScope scope first.claimedAt) first.token first.claimedAt 900)) }
  files := ⟨publishedData (fun _ => none) (entries.take count), none, none⟩
  workers := Function.update (fun _ => none) first.token
    (some ⟨⟨some first.token, none, .pending⟩, .stopped⟩)

theorem run_interrupted (hnames : (entries.map (·.file)).Nodup) (first : ExportCall) (count : Nat)
    (interruption : Interruption) :
    run (archiveStep site) emptySystem (first.interrupted entries count interruption) =
      first.leftover site.source entries count interruption := by
  have hclaim : Claimable site first.token first.claimedAt
      (pendingScope site.source first.claimedAt) emptySystem.catalog :=
    claimable_empty first.token first.claimedAt
  rw [ExportCall.interrupted, run_append, run_staging rfl hclaim entries, run_append,
    run_publishing (Function.update_self ..) count hnames (fun _ _ => Or.inl rfl),
    run_stop interruption rfl (Function.update_self ..)]
  simp [emptySystem, pendingScope, ExportCall.claimed, ExportCall.leftover]

/-- A file that an interrupted export has published keeps its digest. -/
theorem leftover_data (hfirst : source.stageFiles chunkRows maxFileRows site.source = .ok entries)
    (first : ExportCall) {count : Nat} (interruption : Interruption) {file : PlannedFile}
    (hfile : file ∈ (source.plannedFiles maxFileRows site.source).take count) :
    (first.leftover site.source entries count interruption).files.data
        (source.plannedEntry chunkRows maxFileRows file).file =
      some (source.partSha256 chunkRows maxFileRows file) := by
  obtain ⟨_, hentries⟩ := (stageFiles_eq_ok source chunkRows maxFileRows).mp hfirst
  have htaken : source.plannedEntry chunkRows maxFileRows file ∈ entries.take count := by
    rw [hentries, ← List.map_take]
    exact List.mem_map_of_mem hfile
  have hnames := (entries_names_nodup hfirst).sublist ((List.take_sublist count entries).map _)
  exact publishedData_of_mem hnames htaken

section Later
variable {first later : ExportCall} {count : Nat} {interruption : Interruption}

/-- The published files that a completed export writes again have their digests. -/
theorem completed_agrees
    (hfirst : source.stageFiles chunkRows maxFileRows site.source = .ok entries)
    (hlater : source.stageFiles chunkRows' maxFileRows' site.source = .ok entries')
    (hcompleted : Completed later entries' (run (archiveStep site) emptySystem
      (first.interrupted entries count interruption ++ later.complete entries'))) :
    ∀ file ∈ (source.plannedFiles maxFileRows site.source).take count,
      file ∈ source.plannedFiles maxFileRows' site.source →
        source.partSha256 chunkRows maxFileRows file =
          source.partSha256 chunkRows' maxFileRows' file := by
  intro file hfile hplanned
  obtain ⟨_, hentries'⟩ := (stageFiles_eq_ok source chunkRows' maxFileRows').mp hlater
  have hin : source.plannedEntry chunkRows' maxFileRows' file ∈ entries' :=
    hentries' ▸ List.mem_map_of_mem hplanned
  have hname := (plannedEntry_file_eq chunkRows chunkRows' (List.mem_of_mem_take hfile)
    hplanned).mpr rfl
  have hbefore := data_run site (leftover_data hfirst first interruption hfile)
    (later.complete entries')
  rw [run_append, run_interrupted (entries_names_nodup hfirst)] at hcompleted
  have hafter := hcompleted.files _ hin
  rw [← hname] at hafter
  exact Option.some.inj (hbefore.symm.trans hafter)

/-- Where they have the same digests, nothing stands in the way of the later export. -/
theorem completed_of_agrees
    (hfirst : source.stageFiles chunkRows maxFileRows site.source = .ok entries)
    (hlater : source.stageFiles chunkRows' maxFileRows' site.source = .ok entries')
    (htokens : later.token ≠ first.token)
    (hfree : interruption ≠ .crashed ∨ first.claimedAt + seconds 900 ≤ later.claimedAt)
    (hagree : ∀ file ∈ (source.plannedFiles maxFileRows site.source).take count,
      file ∈ source.plannedFiles maxFileRows' site.source →
        source.partSha256 chunkRows maxFileRows file =
          source.partSha256 chunkRows' maxFileRows' file) :
    Completed later entries' (run (archiveStep site) emptySystem
      (first.interrupted entries count interruption ++ later.complete entries')) := by
  obtain ⟨_, hentries⟩ := (stageFiles_eq_ok source chunkRows maxFileRows).mp hfirst
  obtain ⟨_, hentries'⟩ := (stageFiles_eq_ok source chunkRows' maxFileRows').mp hlater
  have hclaim : Claimable site later.token later.claimedAt _
      (first.leftover site.source entries count interruption).catalog :=
    claimable_stopped rfl rfl hfree
  have hworker : (first.leftover site.source entries count interruption).workers later.token =
      none := by
    simp [ExportCall.leftover, htokens]
  rw [run_append, run_interrupted (entries_names_nodup hfirst)]
  refine run_complete hworker hclaim rfl (entries_names_nodup hlater) fun entry' hentry' => ?_
  rw [hentries'] at hentry'
  obtain ⟨file, hplanned, heq⟩ := List.mem_map.mp hentry'
  rw [← heq]
  by_cases hpublished : file ∈ (source.plannedFiles maxFileRows site.source).take count
  · have hname := (plannedEntry_file_eq chunkRows chunkRows'
      (List.mem_of_mem_take hpublished) hplanned).mpr rfl
    right
    rw [← hname, leftover_data hfirst first interruption hpublished,
      hagree file hpublished hplanned]
    rfl
  · left
    refine publishedData_of_ne fun entry hentry hfile => hpublished ?_
    rw [hentries, ← List.map_take] at hentry
    obtain ⟨other, hother, hotherEq⟩ := List.mem_map.mp hentry
    rw [← hotherEq] at hfile
    have hsame := (plannedEntry_file_eq chunkRows' chunkRows hplanned
      (List.mem_of_mem_take hother)).mp hfile
    rw [hsame]
    exact hother

/-- With the same sizes an interrupted export can always be completed. -/
theorem retry_with_same_sizes
    (hstaged : source.stageFiles chunkRows maxFileRows site.source = .ok entries)
    (htokens : later.token ≠ first.token)
    (hfree : interruption ≠ .crashed ∨ first.claimedAt + seconds 900 ≤ later.claimedAt) :
    Completed later entries (run (archiveStep site) emptySystem
      (first.interrupted entries count interruption ++ later.complete entries)) :=
  completed_of_agrees hstaged hstaged htokens hfree fun _ _ _ => rfl

end Later

/-- A later export of an interrupted scope completes exactly when every file that was published
is, if it is written again, written with the same digest. -/
theorem interrupted_export_completes_iff
    (hfirst : source.stageFiles chunkRows maxFileRows site.source = .ok entries)
    (hlater : source.stageFiles chunkRows' maxFileRows' site.source = .ok entries')
    (first later : ExportCall) (htokens : later.token ≠ first.token) (count : Nat)
    (interruption : Interruption)
    (hfree : interruption ≠ .crashed ∨ first.claimedAt + seconds 900 ≤ later.claimedAt) :
    Completed later entries' (run (archiveStep site) emptySystem
        (first.interrupted entries count interruption ++ later.complete entries')) ↔
      ∀ file ∈ (source.plannedFiles maxFileRows site.source).take count,
        file ∈ source.plannedFiles maxFileRows' site.source →
          source.partSha256 chunkRows maxFileRows file =
            source.partSha256 chunkRows' maxFileRows' file := by
  constructor
  · exact completed_agrees hfirst hlater
  · exact completed_of_agrees hfirst hlater htokens hfree

end Retry

/-! ### Two rows in files of two and of one -/

theorem pathText_injective : Function.Injective fun path : DataPath =>
    unaryText (Encodable.encode (path.family, path.day, path.partNumber)) := by
  intro path path' h
  have hfields := Encodable.encode_injective (unaryText_injective h)
  cases path
  cases path'
  simpa using hfields

/-- Two rows in every family and range. A digest tells the tables of a file. -/
def twoRows : ExportSource Nat where
  rows _ _ := [0, 1]
  encodedLength _ _ := 10
  parquet _ _ tables := ⟨unaryText (Encodable.encode tables), 100⟩
  fileName path := unaryText (Encodable.encode (path.family, path.day, path.partNumber))
  fileName_injective := pathText_injective

/-- The entries of an export of the sample scope. -/
def twoRowEntries (chunkRows maxFileRows : Nat) : List ManifestEntry :=
  (twoRows.plannedFiles maxFileRows sampleSite.source).map
    (twoRows.plannedEntry chunkRows maxFileRows)

def callAt (token : Uuid) (now : Int) : ExportCall :=
  ⟨token, now, now, now, now, now, now, now, 10, true⟩

theorem two_rows_retried :
    Completed (callAt 2 1000000000) (twoRowEntries 1 2) (run (archiveStep sampleSite) emptySystem
      ((callAt 1 0).interrupted (twoRowEntries 1 2) 3 .crashed ++
        (callAt 2 1000000000).complete (twoRowEntries 1 2))) :=
  have hstaged : twoRows.stageFiles 1 2 sampleSite.source = .ok (twoRowEntries 1 2) :=
    (stageFiles_eq_ok twoRows 1 2).mpr ⟨⟨le_rfl, Nat.le_succ 1⟩, rfl⟩
  (interrupted_export_completes_iff hstaged hstaged (callAt 1 0) (callAt 2 1000000000)
    (Nat.succ_ne_self 1) 3 .crashed (Or.inr (by decide))).mpr fun _ _ _ => rfl

/-- With smaller files the first part that was published is in the way. -/
theorem two_rows_conflict :
    ¬ Completed (callAt 2 1000000000) (twoRowEntries 1 1) (run (archiveStep sampleSite) emptySystem
      ((callAt 1 0).interrupted (twoRowEntries 2 2) 1 .crashed ++
        (callAt 2 1000000000).complete (twoRowEntries 1 1))) := by
  intro hcompleted
  have hfirst : twoRows.stageFiles 2 2 sampleSite.source = .ok (twoRowEntries 2 2) :=
    (stageFiles_eq_ok twoRows 2 2).mpr ⟨by decide, rfl⟩
  have hlater : twoRows.stageFiles 1 1 sampleSite.source = .ok (twoRowEntries 1 1) :=
    (stageFiles_eq_ok twoRows 1 1).mpr ⟨by decide, rfl⟩
  have hsame := completed_agrees hfirst hlater hcompleted ⟨("observations", 0, 100), 0⟩
    (by decide +kernel) (by decide +kernel)
  have htables := Encodable.encode_injective (unaryText_injective hsame)
  revert htables
  decide +kernel

end PumpResearch.Archive
