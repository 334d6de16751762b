import PumpResearch.Library.Runs
import PumpResearch.Research.Dataset

/-! Publication of datasets: staged files, their verification, and the one rename that makes a
dataset visible. Builds run beside each other, fail at any operation and crash. -/
namespace PumpResearch.Research
open Runs

/-! ### Files -/

/-- What the verification reads of a manifest. -/
structure DatasetManifest where
  datasetSchemaVersion : Nat
  datasetIdentity : String
  semanticContract : SemanticSnapshot
  rowCount : Nat
  columnCount : Nat
  uniqueTokenCount : Nat
  schemaSha256 : String
  fileSha256 : String
  contentSha256 : String

/-- What is read of a Parquet table: its shape, the digests of its schema and of the rows that it
gives back, and its distinct candidates and tokens. -/
structure ParquetTable where
  rowCount : Nat
  columnCount : Nat
  schemaSha256 : String
  contentSha256 : String
  candidateCount : Nat
  tokenCount : Nat

/-- Digests of documents and files, and the Parquet format. -/
structure DatasetFiles (F Data : Type) where
  semanticSha256 : SemanticSnapshot → String
  rowContentSha256 : List (Columns F) → String
  manifestSha256 : DatasetManifest → String
  dataSha256 : Data → String
  arrowTable : List (Columns F) → ParquetTable
  writeTable : List (Columns F) → Data
  readTable : Data → Option ParquetTable

/-- A directory of a dataset, with the files that it has. -/
structure DatasetDirectory (Data : Type) where
  data : Option Data
  manifest : Option DatasetManifest
  sidecar : Option String

section Verification
variable {F Data : Type} (files : DatasetFiles F Data)

/-- `_verify_dataset_files`. -/
def verifyDatasetFiles (directory : DatasetDirectory Data) : Except String DatasetManifest :=
  match directory.manifest, directory.sidecar with
  | some manifest, some expected =>
    if files.manifestSha256 manifest ≠ expected then .error "dataset manifest checksum differs"
    else if manifest.datasetSchemaVersion ≠ 1 then .error "unsupported dataset schema version"
    else if files.semanticSha256 manifest.semanticContract ≠ manifest.datasetIdentity then
      .error "dataset semantic identity differs"
    else
      match directory.data with
      | none => .error "dataset Parquet checksum differs"
      | some data =>
        if files.dataSha256 data ≠ manifest.fileSha256 then
          .error "dataset Parquet checksum differs"
        else
          match files.readTable data with
          | none => .error "not a Parquet file"
          | some table =>
            if table.rowCount ≠ manifest.rowCount ∨ table.columnCount ≠ manifest.columnCount then
              .error "dataset Parquet shape differs"
            else if table.schemaSha256 ≠ manifest.schemaSha256 then
              .error "dataset schema checksum differs"
            else if table.contentSha256 ≠ manifest.contentSha256 then
              .error "dataset canonical content checksum differs"
            else .ok manifest
  | _, _ => .error "dataset manifest or checksum sidecar is missing"

/-- `verify_dataset`. -/
def verifyDataset (directory : DatasetDirectory Data) : Except String DatasetManifest := do
  let manifest ← verifyDatasetFiles files directory
  match directory.data.bind files.readTable with
  | none => .error "DuckDB dataset verification returned no result"
  | some table =>
    if table.rowCount ≠ manifest.rowCount ∨ table.candidateCount ≠ table.rowCount then
      .error "dataset row count or candidate uniqueness differs"
    else if table.tokenCount ≠ manifest.uniqueTokenCount then
      .error "dataset unique-token count differs"
    else .ok manifest

/-- What the verification of the files accepts is the manifest. -/
theorem verifyDatasetFiles_eq_ok {files : DatasetFiles F Data}
    {directory : DatasetDirectory Data} {manifest : DatasetManifest}
    (h : verifyDatasetFiles files directory = .ok manifest) :
    directory.manifest = some manifest := by
  unfold verifyDatasetFiles at h
  split at h
  · next stored expected hstored _ =>
    split at h
    · cases h
    · split at h
      · cases h
      · split at h
        · cases h
        · split at h
          · cases h
          · split at h
            · cases h
            · split at h
              · cases h
              · split at h
                · cases h
                · split at h
                  · cases h
                  · split at h
                    · cases h
                    · rw [hstored, Except.ok.inj h]
  · cases h

theorem verifyDataset_eq_ok {files : DatasetFiles F Data} {directory : DatasetDirectory Data}
    {manifest : DatasetManifest}
    (h : verifyDataset files directory = .ok manifest) :
    verifyDatasetFiles files directory = .ok manifest := by
  simp only [verifyDataset, Results.bind_eq_ok] at h
  obtain ⟨verified, hverified, hrest⟩ := h
  split at hrest
  · cases hrest
  · split at hrest
    · cases hrest
    · split at hrest
      · cases hrest
      · rw [hverified, hrest]

end Verification

/-! ### Builds -/

/-- How far the staging directory of a build has come. -/
inductive StagingStep where
  | staged
  | written
  | described
  | sealed
  | checked
  | absent
  | moved
deriving DecidableEq

inductive BuildPhase (F : Type) where
  | begun
  | missing
  | building (rows : List (Columns F)) (step : StagingStep)
  | returned
  | raised
  | crashed

/-- A call of `build_dataset`. -/
structure DatasetBuild (F : Type) where
  spec : DatasetBuildSpec
  histories : List TokenHistory
  phase : BuildPhase F

/-- The output directory: the datasets by identity, and the staging directories by build. -/
structure OutputDirectory (F Data : Type) where
  builds : Nat → Option (DatasetBuild F)
  staging : Nat → Option (DatasetDirectory Data)
  published : String → Option (DatasetDirectory Data)

namespace OutputDirectory
variable {F Data : Type} (s : OutputDirectory F Data) (b : Nat) (build : DatasetBuild F)

def setPhase (phase : BuildPhase F) : OutputDirectory F Data :=
  { s with builds := Function.update s.builds b (some { build with phase }) }

def setStaging (directory : Option (DatasetDirectory Data)) : OutputDirectory F Data :=
  { s with staging := Function.update s.staging b directory }

/-- The exception handler: the staging directory is removed. -/
def abandon : OutputDirectory F Data := (s.setStaging b none).setPhase b build .raised

@[simp] theorem staging_setPhase (directory : Option (DatasetDirectory Data))
    (phase : BuildPhase F) :
    ((s.setStaging b directory).setPhase b build phase).staging b = directory := by
  simp [setPhase, setStaging]

/-- The staging directory as it is. -/
theorem setStaging_self : s.setStaging b (s.staging b) = s := by
  simp [setStaging]

end OutputDirectory

inductive BuildAction where
  | begin (spec : DatasetBuildSpec) (histories : List TokenHistory)
  /-- The next operation of the build. -/
  | advance
  /-- The next operation raises. -/
  | fail
  | crash

section Steps
variable {F Data : Type} [Numerics F] [DecidableEq F] (H : Hashing) (files : DatasetFiles F Data)

def buildIdentity (spec : DatasetBuildSpec) (histories : List TokenHistory) : String :=
  files.semanticSha256 (semanticSnapshot H (spec.select histories) spec)

/-- The manifest of these rows, over the file they were written to. -/
def datasetManifest (spec : DatasetBuildSpec) (histories : List TokenHistory)
    (rows : List (Columns F)) : DatasetManifest where
  datasetSchemaVersion := 1
  datasetIdentity := buildIdentity H files spec histories
  semanticContract := semanticSnapshot H (spec.select histories) spec
  rowCount := (files.arrowTable rows).rowCount
  columnCount := (files.arrowTable rows).columnCount
  uniqueTokenCount := (rows.map (·.get? "token_id")).dedup.length
  schemaSha256 := (files.arrowTable rows).schemaSha256
  fileSha256 := files.dataSha256 (files.writeTable rows)
  contentSha256 := files.rowContentSha256 rows

/-- The next file operation of a build with rows. -/
def stageStep (s : OutputDirectory F Data) (b : Nat) (build : DatasetBuild F)
    (rows : List (Columns F)) (directory : DatasetDirectory Data) :
    StagingStep → OutputDirectory F Data
  | .staged =>
    (s.setStaging b (some { directory with data := some (files.writeTable rows) })).setPhase b build
      (.building rows .written)
  | .written =>
    (s.setStaging b (some { directory with
        manifest := some (datasetManifest H files build.spec build.histories rows) })).setPhase
      b build (.building rows .described)
  | .described =>
    (s.setStaging b (some { directory with
        sidecar := directory.manifest.map files.manifestSha256 })).setPhase
      b build (.building rows .sealed)
  | .sealed =>
    match verifyDatasetFiles files directory with
    | .error _ => s.abandon b build
    | .ok _ => s.setPhase b build (.building rows .checked)
  | .checked =>
    match s.published (buildIdentity H files build.spec build.histories) with
    | none => s.setPhase b build (.building rows .absent)
    | some existing =>
      -- a build beside this one was first
      match verifyDataset files existing with
      | .error _ => s.abandon b build
      | .ok manifest =>
        if manifest.contentSha256 = files.rowContentSha256 rows then
          (s.setStaging b none).setPhase b build .returned
        else s.abandon b build
  | .absent =>
    match s.published (buildIdentity H files build.spec build.histories) with
    | some _ => s.abandon b build
    | none =>
      { (s.setStaging b none).setPhase b build (.building rows .moved) with
        published := Function.update s.published
          (buildIdentity H files build.spec build.histories) (some directory) }
  | .moved => s

/-- `build_dataset`, one operation after the other. -/
def buildStep (s : OutputDirectory F Data) (b : Nat) (build : DatasetBuild F) :
    OutputDirectory F Data :=
  match build.phase with
  | .begun =>
    if (build.spec.select build.histories).any fun history => !history.epochDataValid then
      s.setPhase b build .raised
    else
      match s.published (buildIdentity H files build.spec build.histories) with
      | none => s.setPhase b build .missing
      | some existing =>
        if existing.manifest.isNone then s.setPhase b build .missing else
        match verifyDataset files existing with
        | .error _ => s.setPhase b build .raised
        | .ok manifest =>
          if manifest.datasetIdentity = buildIdentity H files build.spec build.histories then
            s.setPhase b build .returned
          else s.setPhase b build .raised
  | .missing =>
    match datasetRows H build.spec build.histories with
    | .error _ => s.setPhase b build .raised
    | .ok rows =>
      (s.setStaging b (some ⟨none, none, none⟩)).setPhase b build (.building rows .staged)
  | .building _ .moved =>
    match s.published (buildIdentity H files build.spec build.histories) with
    | none => s.setPhase b build .raised
    | some directory =>
      match verifyDataset files directory with
      | .error _ => s.setPhase b build .raised
      | .ok _ => s.setPhase b build .returned
  | .building rows step =>
    match s.staging b with
    | none => s.abandon b build
    | some directory => stageStep H files s b build rows directory step
  | .returned => s
  | .raised => s
  | .crashed => s

def publicationStep (s : OutputDirectory F Data) (action : Nat × BuildAction) :
    OutputDirectory F Data :=
  match s.builds action.1, action.2 with
  | none, .begin spec histories =>
    s.setPhase action.1 ⟨spec, histories, .begun⟩ .begun
  | some build, .advance => buildStep H files s action.1 build
  | some build, .fail =>
    match build.phase with
    | .begun => s.setPhase action.1 build .raised
    | .missing => s.setPhase action.1 build .raised
    | .building _ _ => s.abandon action.1 build
    | _ => s
  | some build, .crash =>
    match build.phase with
    | .begun => s.setPhase action.1 build .crashed
    | .missing => s.setPhase action.1 build .crashed
    | .building _ _ => s.setPhase action.1 build .crashed
    | _ => s
  | _, _ => s

end Steps

def emptyOutput {F Data : Type} : OutputDirectory F Data :=
  ⟨fun _ => none, fun _ => none, fun _ => none⟩

/-! ### What holds -/

section Property
variable {F Data : Type} [Numerics F] [DecidableEq F]

/-- The directory holds all the rows of one build of this identity, and their verified manifest. -/
def CompleteDataset (H : Hashing) (files : DatasetFiles F Data) (identity : String)
    (directory : DatasetDirectory Data) : Prop :=
  ∃ spec histories, ∃ rows, datasetRows H spec histories = .ok rows ∧
    identity = buildIdentity H files spec histories ∧
    directory.data = some (files.writeTable rows) ∧
    verifyDatasetFiles files directory = .ok (datasetManifest H files spec histories rows)

/-- A published dataset of the identity of a build is verified. -/
def ReturnsDataset (H : Hashing) (files : DatasetFiles F Data) (s : OutputDirectory F Data)
    (build : DatasetBuild F) : Prop :=
  ∃ directory manifest,
    s.published (buildIdentity H files build.spec build.histories) = some directory ∧
    verifyDataset files directory = .ok manifest ∧
    manifest.datasetIdentity = buildIdentity H files build.spec build.histories

/-- A visible dataset is complete. A build that returns has a verified dataset of its identity, and
leaves no staging directory, nor does one that raises. -/
structure PublicationSound (H : Hashing) (files : DatasetFiles F Data)
    (s : OutputDirectory F Data) : Prop where
  published : ∀ identity directory, s.published identity = some directory →
    CompleteDataset H files identity directory
  returned : ∀ b build, s.builds b = some build → build.phase = .returned →
    ReturnsDataset H files s build
  cleaned : ∀ b build, s.builds b = some build →
    build.phase = .returned ∨ build.phase = .raised → s.staging b = none

end Property

/-! ### The invariant -/

section Invariant
variable {F Data : Type} [Numerics F] [DecidableEq F] {H : Hashing} {files : DatasetFiles F Data}
  {s s' : OutputDirectory F Data} {b : Nat} {build : DatasetBuild F}

/-- The staging directory of a build at a step. -/
def stagedDirectory (H : Hashing) (files : DatasetFiles F Data) (build : DatasetBuild F)
    (rows : List (Columns F)) : StagingStep → Option (DatasetDirectory Data)
  | .staged => some ⟨none, none, none⟩
  | .written => some ⟨some (files.writeTable rows), none, none⟩
  | .described => some ⟨some (files.writeTable rows),
      some (datasetManifest H files build.spec build.histories rows), none⟩
  | .moved => none
  | _ => some ⟨some (files.writeTable rows),
      some (datasetManifest H files build.spec build.histories rows),
      some (files.manifestSha256 (datasetManifest H files build.spec build.histories rows))⟩

/-- What is true of a build in its phase. -/
def BuildHolds (H : Hashing) (files : DatasetFiles F Data) (s : OutputDirectory F Data) (b : Nat)
    (build : DatasetBuild F) : Prop :=
  match build.phase with
  | .begun => s.staging b = none
  | .missing => s.staging b = none
  | .building rows step => datasetRows H build.spec build.histories = .ok rows ∧
    s.staging b = stagedDirectory H files build rows step ∧
    (step = .checked ∨ step = .absent →
      ∀ directory ∈ stagedDirectory H files build rows step,
        verifyDatasetFiles files directory =
          .ok (datasetManifest H files build.spec build.histories rows))
  | .returned => s.staging b = none ∧ ReturnsDataset H files s build
  | .raised => s.staging b = none
  | .crashed => True

structure PublicationInvariant (H : Hashing) (files : DatasetFiles F Data)
    (s : OutputDirectory F Data) : Prop where
  published : ∀ identity directory, s.published identity = some directory →
    CompleteDataset H files identity directory
  builds : ∀ b build, s.builds b = some build → BuildHolds H files s b build
  unused : ∀ b, s.builds b = none → s.staging b = none

theorem PublicationInvariant.sound (h : PublicationInvariant H files s) :
    PublicationSound H files s where
  published := h.published
  returned b build hbuild hphase := by
    have hholds := h.builds b build hbuild
    unfold BuildHolds at hholds
    rw [hphase] at hholds
    exact hholds.2
  cleaned b build hbuild hphase := by
    have hholds := h.builds b build hbuild
    unfold BuildHolds at hholds
    cases hphase with
    | inl hreturned =>
      rw [hreturned] at hholds
      exact hholds.1
    | inr hraised =>
      rw [hraised] at hholds
      exact hholds

/-- A build does not depend on the others, and a dataset that is visible stays. -/
theorem BuildHolds.frame (h : BuildHolds H files s b build)
    (hstaging : s'.staging b = s.staging b)
    (hpublished : ∀ identity directory, s.published identity = some directory →
      s'.published identity = some directory) : BuildHolds H files s' b build := by
  unfold BuildHolds at h ⊢
  rw [hstaging]
  split
  · next hphase =>
    rw [hphase] at h
    exact h
  · next hphase =>
    rw [hphase] at h
    exact h
  · next rows step hphase =>
    rw [hphase] at h
    exact h
  · next hphase =>
    rw [hphase] at h
    obtain ⟨hnone, directory, manifest, hfound, hverified⟩ := h
    exact ⟨hnone, directory, manifest, hpublished _ _ hfound, hverified⟩
  · next hphase =>
    rw [hphase] at h
    exact h
  · trivial

/-- A step of one build. What it publishes was not there. -/
structure BuildStepped (H : Hashing) (files : DatasetFiles F Data) (b : Nat)
    (s s' : OutputDirectory F Data) : Prop where
  others : ∀ other, other ≠ b → s'.builds other = s.builds other ∧
    s'.staging other = s.staging other
  build : ∃ build, s'.builds b = some build ∧ BuildHolds H files s' b build
  kept : ∀ identity directory, s.published identity = some directory →
    s'.published identity = some directory
  published : ∀ identity directory, s'.published identity = some directory →
    s.published identity = some directory ∨ CompleteDataset H files identity directory

theorem PublicationInvariant.stepped (h : PublicationInvariant H files s)
    (hstep : BuildStepped H files b s s') : PublicationInvariant H files s' where
  published identity directory hfound := by
    cases hstep.published identity directory hfound with
    | inl hold => exact h.published identity directory hold
    | inr hnew => exact hnew
  builds other found hfound := by
    by_cases hother : other = b
    · subst hother
      obtain ⟨updated, hupdated, hholds⟩ := hstep.build
      rw [hupdated] at hfound
      cases hfound
      exact hholds
    · obtain ⟨hbuilds, hstaging⟩ := hstep.others other hother
      exact (h.builds other found (hbuilds ▸ hfound)).frame hstaging hstep.kept
  unused other hnone := by
    by_cases hother : other = b
    · subst hother
      obtain ⟨updated, hupdated, _⟩ := hstep.build
      rw [hupdated] at hnone
      cases hnone
    · obtain ⟨hbuilds, hstaging⟩ := hstep.others other hother
      rw [hstaging]
      exact h.unused other (hbuilds ▸ hnone)

/-- A step that publishes nothing. -/
theorem stepped_setPhase (directory : Option (DatasetDirectory Data)) (phase : BuildPhase F)
    (hholds : BuildHolds H files ((s.setStaging b directory).setPhase b build phase) b
      { build with phase }) :
    BuildStepped H files b s ((s.setStaging b directory).setPhase b build phase) where
  others other hother := by
    simp [OutputDirectory.setPhase, OutputDirectory.setStaging, hother]
  build := ⟨{ build with phase }, by simp [OutputDirectory.setPhase], hholds⟩
  kept _ _ hfound := hfound
  published _ _ hfound := .inl hfound

theorem stepped_phase (phase : BuildPhase F)
    (hholds : BuildHolds H files (s.setPhase b build phase) b { build with phase }) :
    BuildStepped H files b s (s.setPhase b build phase) := by
  have hself : BuildHolds H files ((s.setStaging b (s.staging b)).setPhase b build phase) b
      { build with phase } := by
    rwa [OutputDirectory.setStaging_self]
  have hstepped := stepped_setPhase (s.staging b) phase hself
  rwa [OutputDirectory.setStaging_self] at hstepped

theorem stepped_abandon : BuildStepped H files b s (s.abandon b build) :=
  stepped_setPhase none .raised (OutputDirectory.staging_setPhase _ _ _ none .raised)

theorem stepped_raised (hstaging : s.staging b = none) :
    BuildStepped H files b s (s.setPhase b build .raised) :=
  stepped_phase .raised hstaging

theorem BuildHolds.staged {rows : List (Columns F)} {step : StagingStep}
    (h : BuildHolds H files s b build) (hphase : build.phase = .building rows step) :
    datasetRows H build.spec build.histories = .ok rows ∧
      s.staging b = stagedDirectory H files build rows step ∧
      (step = .checked ∨ step = .absent →
        ∀ directory ∈ stagedDirectory H files build rows step,
          verifyDatasetFiles files directory =
            .ok (datasetManifest H files build.spec build.histories rows)) := by
  unfold BuildHolds at h
  rw [hphase] at h
  exact h

/-- An operation on the staging directory before the verification. -/
theorem stepped_operation {rows : List (Columns F)} {step : StagingStep}
    (hrows : datasetRows H build.spec build.histories = .ok rows)
    (hstep : step ≠ .checked ∧ step ≠ .absent) :
    BuildStepped H files b s
      ((s.setStaging b (stagedDirectory H files build rows step)).setPhase b build
        (.building rows step)) := by
  refine stepped_setPhase _ _
    ⟨hrows, OutputDirectory.staging_setPhase _ _ _ _ _, fun hchecked => ?_⟩
  cases hchecked with
  | inl hchecked => exact absurd hchecked hstep.1
  | inr habsent => exact absurd habsent hstep.2

/-- A verified dataset of an identity was described under that identity. -/
theorem PublicationInvariant.identity (h : PublicationInvariant H files s) {identity : String}
    {directory : DatasetDirectory Data} {manifest : DatasetManifest}
    (hfound : s.published identity = some directory)
    (hverified : verifyDataset files directory = .ok manifest) :
    manifest.datasetIdentity = identity := by
  obtain ⟨spec, histories, rows, _, hidentity, _, hfiles⟩ := h.published identity directory hfound
  have hsame := (verifyDataset_eq_ok hverified).symm.trans hfiles
  rw [Except.ok.inj hsame, hidentity]
  rfl

/-- The rename makes the verified staging directory visible. -/
theorem stepped_published {rows : List (Columns F)} {directory : DatasetDirectory Data}
    (hrows : datasetRows H build.spec build.histories = .ok rows)
    (habsent : s.published (buildIdentity H files build.spec build.histories) = none)
    (hdata : directory.data = some (files.writeTable rows))
    (hverified : verifyDatasetFiles files directory =
      .ok (datasetManifest H files build.spec build.histories rows)) :
    BuildStepped H files b s
      { (s.setStaging b none).setPhase b build (.building rows .moved) with
        published := Function.update s.published
          (buildIdentity H files build.spec build.histories) (some directory) } where
  others other hother := by
    simp [OutputDirectory.setPhase, OutputDirectory.setStaging, hother]
  build := by
    refine ⟨{ build with phase := .building rows .moved }, by simp [OutputDirectory.setPhase],
      hrows, OutputDirectory.staging_setPhase s b build none (.building rows .moved),
      fun hchecked => ?_⟩
    cases hchecked with
    | inl hchecked => cases hchecked
    | inr hchecked => cases hchecked
  kept identity found hfound := by
    have hother : identity ≠ buildIdentity H files build.spec build.histories := by
      intro hsame
      rw [hsame, habsent] at hfound
      cases hfound
    simp [Function.update_of_ne hother, hfound]
  published identity found hfound := by
    by_cases hsame : identity = buildIdentity H files build.spec build.histories
    · subst hsame
      have hnew : directory = found := by simpa using hfound
      exact .inr ⟨build.spec, build.histories, rows, hrows, rfl, hnew ▸ hdata, hnew ▸ hverified⟩
    · exact .inl (by simpa [Function.update_of_ne hsame] using hfound)

/-- A build that finds a verified dataset of its identity returns it. -/
theorem stepped_returned (h : PublicationInvariant H files s) {existing : DatasetDirectory Data}
    {manifest : DatasetManifest}
    (hfound : s.published (buildIdentity H files build.spec build.histories) = some existing)
    (hverified : verifyDataset files existing = .ok manifest) :
    BuildStepped H files b s ((s.setStaging b none).setPhase b build .returned) :=
  stepped_setPhase none .returned
    ⟨OutputDirectory.staging_setPhase _ _ _ none _, existing, manifest, hfound, hverified,
      h.identity hfound hverified⟩

theorem stageStep_stepped (h : PublicationInvariant H files s) {rows : List (Columns F)}
    {step : StagingStep} (hbuild : BuildHolds H files s b build)
    (hphase : build.phase = .building rows step) (hstep : step ≠ .moved)
    {directory : DatasetDirectory Data} (hdirectory : s.staging b = some directory) :
    BuildStepped H files b s (stageStep H files s b build rows directory step) := by
  obtain ⟨hrows, hstaging, hverified⟩ := hbuild.staged hphase
  rw [hdirectory] at hstaging
  cases step with
  | staged =>
    cases hstaging
    exact stepped_operation hrows (by decide)
  | written =>
    cases hstaging
    exact stepped_operation hrows (by decide)
  | described =>
    cases hstaging
    exact stepped_operation hrows (by decide)
  | sealed =>
    simp only [stageStep]
    split
    · exact stepped_abandon
    · next manifest hmanifest =>
      have hsame : directory.manifest = some manifest := verifyDatasetFiles_eq_ok hmanifest
      cases hstaging
      cases hsame
      exact stepped_phase _ ⟨hrows, hdirectory, fun _ found hfound => by
        cases hfound
        exact hmanifest⟩
  | checked =>
    simp only [stageStep]
    split
    · exact stepped_phase _ ⟨hrows, hdirectory.trans hstaging, fun _ => hverified (.inl rfl)⟩
    · next existing hfound =>
      split
      · exact stepped_abandon
      · next manifest hmanifest =>
        split
        · exact stepped_returned h hfound hmanifest
        · exact stepped_abandon
  | absent =>
    simp only [stageStep]
    split
    · exact stepped_abandon
    · next habsent =>
      refine stepped_published hrows habsent ?_ (hverified (.inr rfl) directory hstaging.symm)
      cases hstaging
      rfl
  | moved => exact absurd rfl hstep

theorem buildStep_stepped (h : PublicationInvariant H files s) (hfound : s.builds b = some build) :
    BuildStepped H files b s (buildStep H files s b build) := by
  have hbuild := h.builds b build hfound
  have hself : BuildStepped H files b s s :=
    ⟨fun _ _ => ⟨rfl, rfl⟩, ⟨build, hfound, hbuild⟩, fun _ _ h => h, fun _ _ h => .inl h⟩
  unfold buildStep
  split
  · next hphase =>
    have hstaging : s.staging b = none := by
      unfold BuildHolds at hbuild
      rwa [hphase] at hbuild
    have hmissing : BuildStepped H files b s (s.setPhase b build .missing) :=
      stepped_phase .missing hstaging
    split
    · exact stepped_raised hstaging
    · split
      · exact hmissing
      · next existing hexisting =>
        split
        · exact hmissing
        · split
          · exact stepped_raised hstaging
          · next manifest hmanifest =>
            split
            · exact stepped_phase .returned
                ⟨hstaging, existing, manifest, hexisting, hmanifest, h.identity hexisting hmanifest⟩
            · exact stepped_raised hstaging
  · next hphase =>
    have hstaging : s.staging b = none := by
      unfold BuildHolds at hbuild
      rwa [hphase] at hbuild
    split
    · exact stepped_raised hstaging
    · next rows hrows => exact stepped_operation hrows (by decide)
  · next rows hphase =>
    have hstaging : s.staging b = none := (hbuild.staged hphase).2.1
    split
    · exact stepped_raised hstaging
    · next directory hdirectory =>
      split
      · exact stepped_raised hstaging
      · next manifest hmanifest =>
        exact stepped_phase .returned
          ⟨hstaging, directory, manifest, hdirectory, hmanifest, h.identity hdirectory hmanifest⟩
  · next rows step hmoved hphase =>
    split
    · exact stepped_abandon
    · next directory hdirectory =>
      exact stageStep_stepped h hbuild hphase hmoved hdirectory
  · exact hself
  · exact hself
  · exact hself

theorem publicationStep_stepped (h : PublicationInvariant H files s) (action : Nat × BuildAction) :
    publicationStep H files s action = s ∨
      BuildStepped H files action.1 s (publicationStep H files s action) := by
  unfold publicationStep
  split
  · next spec histories hnone _ => exact .inr (stepped_phase .begun (h.unused _ hnone))
  · next build hfound _ => exact .inr (buildStep_stepped h hfound)
  · next build hfound _ =>
    have hbuild := h.builds _ build hfound
    unfold BuildHolds at hbuild
    split
    · next hphase =>
      rw [hphase] at hbuild
      exact .inr (stepped_raised hbuild)
    · next hphase =>
      rw [hphase] at hbuild
      exact .inr (stepped_raised hbuild)
    · exact .inr stepped_abandon
    · exact .inl rfl
  · next build hfound _ =>
    split
    · exact .inr (stepped_phase .crashed trivial)
    · exact .inr (stepped_phase .crashed trivial)
    · exact .inr (stepped_phase .crashed trivial)
    · exact .inl rfl
  · exact .inl rfl

theorem publicationStep_keeps (s : OutputDirectory F Data) (action : Nat × BuildAction)
    (h : PublicationInvariant H files s) :
    PublicationInvariant H files (publicationStep H files s action) := by
  cases publicationStep_stepped h action with
  | inl hsame => rwa [hsame]
  | inr hstep => exact h.stepped hstep

theorem emptyOutput_invariant : PublicationInvariant H files emptyOutput where
  published _ _ hfound := by cases hfound
  builds _ _ hfound := by cases hfound
  unused _ _ := rfl

/-- What is visible stays as it is. -/
theorem published_kept (h : PublicationInvariant H files s) (actions : List (Nat × BuildAction))
    {identity : String} {directory : DatasetDirectory Data}
    (hfound : s.published identity = some directory) :
    (run (publicationStep H files) s actions).published identity = some directory := by
  induction actions generalizing s with
  | nil => exact hfound
  | cons action actions ih =>
    refine ih (publicationStep_keeps s action h) ?_
    cases publicationStep_stepped h action with
    | inl hsame => rwa [hsame]
    | inr hstep => exact hstep.kept identity directory hfound

end Invariant

/-- In every state of every run of builds, a visible dataset is the verified and complete work of
one build of its identity, never a part of one; later builds, failures and crashes leave it as it
is. -/
theorem dataset_publication_sound {F Data : Type} [Numerics F] [DecidableEq F] (H : Hashing)
    (files : DatasetFiles F Data) (actions more : List (Nat × BuildAction)) :
    PublicationSound H files (run (publicationStep H files) emptyOutput actions) ∧
      ∀ identity directory,
        (run (publicationStep H files) emptyOutput actions).published identity = some directory →
        (run (publicationStep H files) emptyOutput (actions ++ more)).published identity =
          some directory := by
  have hinvariant : PublicationInvariant H files
      (run (publicationStep H files) emptyOutput actions) :=
    (always_of_kept publicationStep_keeps emptyOutput_invariant actions).final
  refine ⟨hinvariant.sound, fun identity directory hfound => ?_⟩
  rw [run_append]
  exact published_kept hinvariant more hfound

end PumpResearch.Research
