import PumpResearch.Archive.Export
import PumpResearch.Library.RowGroups
import PumpResearch.Research.EpochExport

/-! The files that an export stages: the parts of every family and range, whatever partitions
they were read in, and their entries in the manifest. -/
namespace PumpResearch.Archive
open RowGroups
open Research (dailyRanges microsecondsPerDay dailyRanges_days)

/-! ### Writing files -/

/-- A family and whether it is read day by day. -/
structure ExportSpec where
  name : String
  perDay : Bool

/-- `_SPECS`. -/
def specs : List ExportSpec := [
  ⟨"observations", true⟩,
  ⟨"api_request_log", true⟩,
  ⟨"discovery_events", true⟩,
  ⟨"discovery_connectivity_events", true⟩,
  ⟨"deduplication_conflicts", true⟩,
  ⟨"lifecycle_evidence", true⟩,
  ⟨"lifecycle_events", true⟩,
  ⟨"coverage_decisions", true⟩,
  ⟨"candidate_events", true⟩,
  ⟨"candidate_tier_events", true⟩,
  ⟨"candidate_enrichment_tasks", true⟩,
  ⟨"security_provider_budget_reservations", true⟩,
  ⟨"security_provider_requests", true⟩,
  ⟨"holder_snapshots", true⟩,
  ⟨"holder_balance_facts", true⟩,
  ⟨"trader_distribution_snapshots", true⟩,
  ⟨"creator_history_snapshots", true⟩,
  ⟨"creator_relationship_events", true⟩,
  ⟨"liquidity_event_evidence", true⟩,
  ⟨"wallet_relationship_edges", true⟩,
  ⟨"funding_relationship_evidence", true⟩,
  ⟨"wallet_cluster_snapshots", true⟩,
  ⟨"security_feature_snapshots", true⟩,
  ⟨"security_enrichment_policies", false⟩,
  ⟨"scheduler_capacity_decisions", true⟩,
  ⟨"poll_schedule_decisions", true⟩,
  ⟨"poll_batches", true⟩,
  ⟨"poll_batch_outcomes", true⟩,
  ⟨"poll_batch_members", true⟩,
  ⟨"pair_fact_events", true⟩,
  ⟨"boost_observations", true⟩,
  ⟨"boost_events", true⟩,
  ⟨"token_metadata_events", true⟩,
  ⟨"token_security_snapshots", true⟩,
  ⟨"market_context_snapshots", true⟩,
  ⟨"collection_epoch_events", false⟩,
  ⟨"collector_run_events", false⟩,
  ⟨"collector_runs", false⟩,
  ⟨"collection_epochs", false⟩,
  ⟨"lifecycle_policies", false⟩,
  ⟨"coverage_policies", false⟩,
  ⟨"candidate_policies", false⟩,
  ⟨"scheduler_policies", false⟩,
  ⟨"storage_samples", true⟩,
  ⟨"storage_relation_samples", true⟩,
  ⟨"backup_verifications", true⟩,
  ⟨"pairs", false⟩,
  ⟨"tokens", false⟩]

/-- `part_state`: the tables written to a file, and how many rows they have. -/
structure PartState (Row : Type) where
  partNumber : Nat
  tables : List (List Row)
  rows : Nat

/-- The local state of `_export_one`. -/
structure Exporter (Row : Type) where
  closed : List (PartState Row)
  state : Option (PartState Row)
  partNumber : Nat

section Writer
variable {Row : Type}

def Exporter.openPart (e : Exporter Row) : Exporter Row :=
  { e with state := some ⟨e.partNumber, [], 0⟩, partNumber := e.partNumber + 1 }

def Exporter.closePart (e : Exporter Row) : Exporter Row :=
  match e.state with
  | none => e
  | some part => { e with closed := e.closed ++ [part], state := none }

/-- The rows that the open part has, none when it is still to be opened. -/
def Exporter.partRows (e : Exporter Row) : Nat := (e.state.map (·.rows)).getD 0

/-- Write one table to the open part, and close the part when it is full. -/
def Exporter.writeTable (maxFileRows : Nat) (subset : List Row) (e : Exporter Row) :
    Exporter Row :=
  let opened := if e.state.isNone then e.openPart else e
  match opened.state with
  | none => opened
  | some part =>
    let written := ⟨part.partNumber, part.tables ++ [subset], part.rows + subset.length⟩
    if maxFileRows ≤ written.rows then { opened with state := some written }.closePart
    else { opened with state := some written }

/-- The loop over one partition of the result. A full part is closed at once, so that room
is always left. -/
def writePartition (maxFileRows : Nat) (normalized : List Row) (e : Exporter Row) : Exporter Row :=
  if normalized = [] ∨ maxFileRows ≤ e.partRows then e
  else
    writePartition maxFileRows (normalized.drop (maxFileRows - e.partRows))
      (e.writeTable maxFileRows (normalized.take (maxFileRows - e.partRows)))
termination_by normalized.length
decreasing_by
  next h =>
    obtain ⟨hne, _⟩ := not_or.mp h
    have hpos := List.length_pos_of_ne_nil hne
    rw [List.length_drop]
    omega

/-- `_export_one`. -/
def exportOne (chunkRows maxFileRows : Nat) (rows : List Row) : List (PartState Row) :=
  let e := (blocks chunkRows rows).foldl (fun e partition => writePartition maxFileRows partition e)
    ⟨[], none, 0⟩
  (if e.state.isNone ∧ e.closed.isEmpty then e.openPart else e).closePart.closed

/-! ### What the parts hold -/

variable {chunkRows maxFileRows : Nat}

/-- A part of the rows: as many as fit, those of one partition in one table. -/
def plannedPart (chunkRows maxFileRows : Nat) (rows : List Row) (part : Nat) : PartState Row :=
  ⟨part, rowGroups chunkRows maxFileRows part rows,
    min maxFileRows (rows.length - part * maxFileRows)⟩

/-- Where the export stands behind the first rows. -/
def layout (chunkRows maxFileRows : Nat) (taken : List Row) : Exporter Row where
  closed := (List.range (taken.length / maxFileRows)).map (plannedPart chunkRows maxFileRows taken)
  state :=
    if taken.length % maxFileRows = 0 then none
    else some (plannedPart chunkRows maxFileRows taken (taken.length / maxFileRows))
  partNumber := taken.length / maxFileRows + if taken.length % maxFileRows = 0 then 0 else 1

theorem partRows_layout (hsize : 0 < maxFileRows) (taken : List Row) :
    (layout chunkRows maxFileRows taken).partRows = taken.length % maxFileRows := by
  have hdiv := Nat.div_add_mod' taken.length maxFileRows
  have hlt := Nat.mod_lt taken.length hsize
  unfold layout Exporter.partRows
  by_cases h : taken.length % maxFileRows = 0
  · simp [h]
  · simp only [h, if_false, plannedPart, Option.map_some, Option.getD_some]
    omega

/-- Parts that were full stay as they are. -/
theorem map_plannedPart_append (hsize : 0 < maxFileRows) (taken subset : List Row) :
    (List.range (taken.length / maxFileRows)).map
        (plannedPart chunkRows maxFileRows (taken ++ subset)) =
      (List.range (taken.length / maxFileRows)).map (plannedPart chunkRows maxFileRows taken) := by
  apply List.map_congr_left
  intro part hpart
  have hlt := List.mem_range.mp hpart
  have hfull : (part + 1) * maxFileRows ≤ taken.length :=
    (Nat.le_div_iff_mul_le hsize).mp hlt
  have hfull' := hfull
  rw [Nat.succ_mul] at hfull'
  rw [plannedPart, plannedPart, rowGroups_append_of_full hsize hfull, List.length_append,
    Nat.min_eq_left (by omega), Nat.min_eq_left (by omega)]

/-- The part that a table goes to, with the rows it has. -/
theorem writeTable_eq {taken : List Row} (subset : List Row) (hsize : 0 < maxFileRows) :
    (layout chunkRows maxFileRows taken).writeTable maxFileRows subset =
      let written : PartState Row := ⟨taken.length / maxFileRows,
        rowGroups chunkRows maxFileRows (taken.length / maxFileRows) taken ++ [subset],
        taken.length % maxFileRows + subset.length⟩
      let closed := (List.range (taken.length / maxFileRows)).map
        (plannedPart chunkRows maxFileRows taken)
      if maxFileRows ≤ written.rows then
        ⟨closed ++ [written], none, taken.length / maxFileRows + 1⟩
      else ⟨closed, some written, taken.length / maxFileRows + 1⟩ := by
  have hdiv := Nat.div_add_mod' taken.length maxFileRows
  have hlt := Nat.mod_lt taken.length hsize
  unfold Exporter.writeTable layout
  by_cases h : taken.length % maxFileRows = 0
  · have hnone : rowGroups chunkRows maxFileRows (taken.length / maxFileRows) taken = [] :=
      rowGroups_eq_nil (by omega)
    simp [h, hnone, Exporter.openPart, Exporter.closePart]
  · have hrows : min maxFileRows (taken.length - taken.length / maxFileRows * maxFileRows) =
        taken.length % maxFileRows := by omega
    simp [h, hrows, plannedPart, Exporter.closePart]

/-- A table that begins a partition or a part leads to the layout of the rows it adds. -/
theorem writeTable_layout {taken subset : List Row} (hchunk : 0 < chunkRows)
    (hsize : 0 < maxFileRows) (hne : subset ≠ [])
    (hfits : taken.length % maxFileRows + subset.length ≤ maxFileRows)
    (hwithin : taken.length % chunkRows + subset.length ≤ chunkRows)
    (hstart : taken.length % maxFileRows = 0 ∨ taken.length % chunkRows = 0) :
    (layout chunkRows maxFileRows taken).writeTable maxFileRows subset =
      layout chunkRows maxFileRows (taken ++ subset) := by
  have hdiv := Nat.div_add_mod' taken.length maxFileRows
  have hpos := List.length_pos_of_ne_nil hne
  have hgroups := rowGroups_append hchunk hne hfits hwithin hstart
  have hparts := @map_plannedPart_append Row chunkRows maxFileRows hsize taken subset
  rw [writeTable_eq subset hsize, layout, List.length_append]
  by_cases hfull : maxFileRows ≤ taken.length % maxFileRows + subset.length
  · have hlength : taken.length + subset.length =
        (taken.length / maxFileRows + 1) * maxFileRows := by
      rw [Nat.succ_mul]
      omega
    have hquotient : (taken.length + subset.length) / maxFileRows =
        taken.length / maxFileRows + 1 := by
      rw [hlength, Nat.mul_div_cancel _ hsize]
    have hremainder : (taken.length + subset.length) % maxFileRows = 0 := by
      rw [hlength, Nat.mul_mod_left]
    have hrows : min maxFileRows
        (taken.length + subset.length - taken.length / maxFileRows * maxFileRows) =
        taken.length % maxFileRows + subset.length := by omega
    simp only [hfull, if_true, hquotient, hremainder, List.range_succ, List.map_append, hparts,
      List.map_cons, List.map_nil, plannedPart, List.length_append, hgroups, hrows, Nat.add_zero]
  · have hquotient : (taken.length + subset.length) / maxFileRows =
        taken.length / maxFileRows := by
      apply Nat.div_eq_of_lt_le
      · omega
      · rw [Nat.succ_mul]
        omega
    have hremainder : (taken.length + subset.length) % maxFileRows =
        taken.length % maxFileRows + subset.length := by
      have hdiv' := Nat.div_add_mod' (taken.length + subset.length) maxFileRows
      rw [hquotient] at hdiv'
      omega
    have hrows : min maxFileRows
        (taken.length + subset.length - taken.length / maxFileRows * maxFileRows) =
        taken.length % maxFileRows + subset.length := by omega
    have hopen : taken.length % maxFileRows + subset.length ≠ 0 := by omega
    simp only [hfull, if_false, hquotient, hremainder, hopen, hparts, plannedPart,
      List.length_append, hgroups, hrows]

/-- A partition of the result is cut where a part is full. -/
theorem writePartition_layout (hchunk : 0 < chunkRows) (hsize : 0 < maxFileRows)
    (partition taken : List Row)
    (hwithin : taken.length % chunkRows + partition.length ≤ chunkRows)
    (hstart : taken.length % maxFileRows = 0 ∨ taken.length % chunkRows = 0) :
    writePartition maxFileRows partition (layout chunkRows maxFileRows taken) =
      layout chunkRows maxFileRows (taken ++ partition) := by
  have hlt := Nat.mod_lt taken.length hsize
  rw [writePartition, partRows_layout hsize]
  by_cases hnil : partition = []
  · rw [if_pos (Or.inl hnil), hnil, List.append_nil]
  · rw [if_neg (not_or.mpr ⟨hnil, by omega⟩)]
    have hpos := List.length_pos_of_ne_nil hnil
    have hroom : 0 < maxFileRows - taken.length % maxFileRows := by omega
    generalize hremaining : maxFileRows - taken.length % maxFileRows = remaining at hroom ⊢
    have htake : (partition.take remaining).length = min remaining partition.length :=
      List.length_take
    have hdrop : (partition.drop remaining).length = partition.length - remaining :=
      List.length_drop
    have hne : partition.take remaining ≠ [] := List.ne_nil_of_length_pos (by omega)
    rw [writeTable_layout hchunk hsize hne (by omega) (by omega) hstart]
    by_cases hlast : partition.length ≤ remaining
    · rw [List.drop_eq_nil_of_le hlast, List.take_of_length_le hlast, writePartition,
        if_pos (Or.inl rfl)]
    · have hlength : (taken ++ partition.take remaining).length = taken.length + remaining := by
        rw [List.length_append, htake]
        omega
      have hwithin' : (taken ++ partition.take remaining).length % chunkRows +
          (partition.drop remaining).length ≤ chunkRows := by
        have hmod : (taken.length + remaining) % chunkRows =
            taken.length % chunkRows + remaining := by
          rw [Nat.add_mod, Nat.mod_eq_of_lt (show remaining < chunkRows by omega),
            Nat.mod_eq_of_lt (by omega)]
        rw [hlength, hdrop, hmod]
        omega
      have hstart' : (taken ++ partition.take remaining).length % maxFileRows = 0 := by
        have hdiv := Nat.div_add_mod' taken.length maxFileRows
        have heq : taken.length + remaining =
            (taken.length / maxFileRows + 1) * maxFileRows := by
          rw [Nat.succ_mul]
          omega
        rw [hlength, heq, Nat.mul_mod_left]
      rw [writePartition_layout hchunk hsize (partition.drop remaining) _ hwithin'
        (Or.inl hstart'), List.append_assoc, List.take_append_drop]
termination_by partition.length

/-- The parts of an export, whatever loop has written them. -/
theorem exportOne_eq (hchunk : 0 < chunkRows) (hsize : 0 < maxFileRows) (rows : List Row) :
    exportOne chunkRows maxFileRows rows =
      (List.range (partCount maxFileRows rows.length)).map
        (plannedPart chunkRows maxFileRows rows) := by
  have hempty : (⟨[], none, 0⟩ : Exporter Row) = layout chunkRows maxFileRows [] := by
    simp [layout]
  have hloop := foldl_blocks hchunk
    (fun e partition => writePartition maxFileRows partition e)
    (layout chunkRows maxFileRows)
    (fun (taken block : List Row) haligned hblock => by
      have hzero := Nat.mod_eq_zero_of_dvd haligned
      exact writePartition_layout hchunk hsize block taken (by omega) (Or.inr hzero))
    rows [] (dvd_zero _)
  have hdiv := Nat.div_add_mod' rows.length maxFileRows
  rw [exportOne, hempty, hloop, List.nil_append]
  by_cases hopen : rows.length % maxFileRows = 0
  · by_cases hnone : rows.length / maxFileRows = 0
    · have hnil : rows = [] := List.length_eq_zero_iff.mp (by
        rw [hnone, hopen] at hdiv
        omega)
      rw [hnil]
      simp [layout, Exporter.openPart, Exporter.closePart, plannedPart, partCount, rowGroups,
        RowGroups.partRows]
    · have hcount : partCount maxFileRows rows.length = rows.length / maxFileRows := by
        have hquotient : (rows.length - 1) / maxFileRows = rows.length / maxFileRows - 1 := by
          obtain ⟨full, hfull⟩ := Nat.exists_eq_succ_of_ne_zero hnone
          rw [hfull, Nat.succ_mul] at hdiv
          rw [hfull, Nat.succ_sub_one]
          apply Nat.div_eq_of_lt_le
          · omega
          · rw [Nat.succ_mul]
            omega
        rw [partCount, hquotient, Nat.sub_add_cancel (Nat.one_le_iff_ne_zero.mpr hnone)]
      simp [layout, Exporter.closePart, hopen, hnone, hcount]
  · have hcount : partCount maxFileRows rows.length = rows.length / maxFileRows + 1 := by
      have hlt := Nat.mod_lt rows.length hsize
      have hquotient : (rows.length - 1) / maxFileRows = rows.length / maxFileRows := by
        apply Nat.div_eq_of_lt_le
        · omega
        · rw [Nat.succ_mul]
          omega
      rw [partCount, hquotient]
    simp [layout, Exporter.closePart, hopen, hcount, List.range_succ]

end Writer

/-! ### Staging a scope -/

/-- The fields of `_data_path`, the day for its year, month and day. The epoch and the identity
are those of the scope. -/
structure DataPath where
  family : String
  day : Int
  partNumber : Nat
deriving DecidableEq

structure ParquetFile where
  sha256 : String
  bytes : Nat

/-- What an export reads and writes: the rows of a family in a range, their encoded lengths, the
files for tables written with a row group size, and the texts of paths, each of its fields. -/
structure ExportSource (Row : Type) where
  rows : String → Int × Int → List Row
  encodedLength : String → Row → Nat
  parquet : String → Nat → List (List Row) → ParquetFile
  fileName : DataPath → String
  fileName_injective : Function.Injective fileName

def ExportSpec.ranges (spec : ExportSpec) (scope : SourceScope) : List (Int × Int) :=
  if spec.perDay then dailyRanges scope.startAt scope.endAt else [(scope.startAt, scope.endAt)]

/-- The families and ranges of a scope, in the order of the export. -/
def familyRanges (scope : SourceScope) : List (String × Int × Int) :=
  specs.flatMap fun spec => (spec.ranges scope).map fun range => (spec.name, range)

section Staging
variable {Row : Type} (source : ExportSource Row) (chunkRows maxFileRows : Nat)

/-- `_entry_from_state`. -/
def ExportSource.entryFromState (familyRange : String × Int × Int) (part : PartState Row) :
    ManifestEntry where
  file := source.fileName
    ⟨familyRange.1, familyRange.2.1 / microsecondsPerDay, part.partNumber⟩
  fileSha256 := (source.parquet familyRange.1 chunkRows part.tables).sha256
  exportedRowCount := part.rows
  uncompressedLogicalBytes :=
    (part.tables.flatten.map (source.encodedLength familyRange.1)).sum
  parquetBytes := (source.parquet familyRange.1 chunkRows part.tables).bytes

/-- `_verify_source_counts`: the rows of each family and range, counted again. -/
def ExportSource.countsMatch
    (parts : List ((String × Int × Int) × List (PartState Row))) : Bool :=
  parts.all fun staged =>
    (staged.2.map (·.rows)).sum = (source.rows staged.1.1 staged.1.2).length

/-- The part of `export_epoch_range` that stages the files of a scope. -/
def ExportSource.stageFiles (scope : SourceScope) : Except String (List ManifestEntry) :=
  if chunkRows < 1 ∨ maxFileRows < chunkRows then
    .error "archive file row target must be at least one export chunk"
  else
    let parts := (familyRanges scope).map fun familyRange =>
      (familyRange, exportOne chunkRows maxFileRows (source.rows familyRange.1 familyRange.2))
    if source.countsMatch parts then
      .ok (parts.flatMap fun staged => staged.2.map (source.entryFromState chunkRows staged.1))
    else .error "source scope changed during export"

/-- One file of a scope. -/
structure PlannedFile where
  familyRange : String × Int × Int
  partNumber : Nat
deriving DecidableEq

/-- The files of a scope, in the order of the export. -/
def ExportSource.plannedFiles (scope : SourceScope) : List PlannedFile :=
  (familyRanges scope).flatMap fun familyRange =>
    (List.range (partCount maxFileRows (source.rows familyRange.1 familyRange.2).length)).map
      (PlannedFile.mk familyRange)

/-- The entry of a file, from the rows of its part. -/
def ExportSource.plannedEntry (file : PlannedFile) : ManifestEntry :=
  source.entryFromState chunkRows file.familyRange
    (plannedPart chunkRows maxFileRows (source.rows file.familyRange.1 file.familyRange.2)
      file.partNumber)

/-- Staging succeeds with the entries of the planned files. -/
theorem stageFiles_eq_ok {scope : SourceScope} {entries : List ManifestEntry} :
    source.stageFiles chunkRows maxFileRows scope = .ok entries ↔
      (1 ≤ chunkRows ∧ chunkRows ≤ maxFileRows) ∧
        entries = (source.plannedFiles maxFileRows scope).map
          (source.plannedEntry chunkRows maxFileRows) := by
  unfold ExportSource.stageFiles
  by_cases h : chunkRows < 1 ∨ maxFileRows < chunkRows
  · rw [if_pos h]
    constructor
    · intro h'
      cases h'
    · intro h'
      omega
  · have hchunk : 0 < chunkRows := by omega
    have hsize : 0 < maxFileRows := by omega
    have hparts : ∀ rows : List Row, exportOne chunkRows maxFileRows rows = _ :=
      exportOne_eq hchunk hsize
    have hcounts : source.countsMatch ((familyRanges scope).map fun familyRange =>
        (familyRange, exportOne chunkRows maxFileRows
          (source.rows familyRange.1 familyRange.2))) = true := by
      simp only [ExportSource.countsMatch, List.all_map, List.all_eq_true, Function.comp_def,
        decide_eq_true_eq, hparts, List.map_map, plannedPart]
      exact fun familyRange _ => sum_partSizes hsize _
    have hentries : ((familyRanges scope).map fun familyRange =>
        (familyRange, exportOne chunkRows maxFileRows
          (source.rows familyRange.1 familyRange.2))).flatMap
          (fun staged => staged.2.map (source.entryFromState chunkRows staged.1)) =
        (source.plannedFiles maxFileRows scope).map
          (source.plannedEntry chunkRows maxFileRows) := by
      simp only [List.flatMap_map, hparts, List.map_map, ExportSource.plannedFiles,
        List.map_flatMap]
      rfl
    rw [if_neg h]
    simp only [hcounts, if_true, hentries, Except.ok.injEq]
    constructor
    · exact fun heq => ⟨by omega, heq.symm⟩
    · exact fun heq => heq.2.symm

end Staging

/-! ### Files by their names -/

theorem specs_nodup : (specs.map (·.name)).Nodup := by decide +kernel

theorem ranges_nodup (spec : ExportSpec) (scope : SourceScope) :
    ((spec.ranges scope).map fun range => range.1 / microsecondsPerDay).Nodup := by
  unfold ExportSpec.ranges
  cases spec.perDay with
  | true =>
    rw [if_pos rfl, List.Nodup, List.pairwise_map]
    exact (dailyRanges_days _ _).imp fun h => ne_of_lt h
  | false => exact List.nodup_singleton _

/-- A family and a day tell the range. -/
theorem familyRange_eq {scope : SourceScope} {r r' : String × Int × Int}
    (h : r ∈ familyRanges scope) (h' : r' ∈ familyRanges scope) (hname : r.1 = r'.1)
    (hday : r.2.1 / microsecondsPerDay = r'.2.1 / microsecondsPerDay) : r = r' := by
  obtain ⟨spec, hspec, hr⟩ := List.mem_flatMap.mp h
  obtain ⟨spec', hspec', hr'⟩ := List.mem_flatMap.mp h'
  obtain ⟨range, hrange, heq⟩ := List.mem_map.mp hr
  obtain ⟨range', hrange', heq'⟩ := List.mem_map.mp hr'
  rw [← heq, ← heq'] at hname hday ⊢
  have hsame := List.inj_on_of_nodup_map specs_nodup hspec hspec' hname
  rw [← hsame] at hrange' ⊢
  rw [List.inj_on_of_nodup_map (ranges_nodup spec scope) hrange hrange' hday]

theorem familyRanges_nodup (scope : SourceScope) : (familyRanges scope).Nodup := by
  unfold familyRanges
  rw [List.nodup_flatMap]
  constructor
  · intro spec _
    exact ((ranges_nodup spec scope).of_map _).map fun range range' h => (Prod.mk.inj h).2
  · have hspecs := specs_nodup
    rw [List.Nodup, List.pairwise_map] at hspecs
    refine hspecs.imp fun {spec spec'} hne r hr hr' => ?_
    obtain ⟨range, _, heq⟩ := List.mem_map.mp hr
    obtain ⟨range', _, heq'⟩ := List.mem_map.mp hr'
    rw [← heq'] at heq
    exact hne (Prod.mk.inj heq).1

section Names
variable {Row : Type} {source : ExportSource Row} {scope : SourceScope}
  {maxFileRows maxFileRows' : Nat}

theorem plannedFiles_nodup : (source.plannedFiles maxFileRows scope).Nodup := by
  unfold ExportSource.plannedFiles
  rw [List.nodup_flatMap]
  constructor
  · intro familyRange _
    exact List.nodup_range.map fun part part' h => (PlannedFile.mk.inj h).2
  · refine (familyRanges_nodup scope).imp fun {r r'} hne file hfile hfile' => ?_
    obtain ⟨part, _, heq⟩ := List.mem_map.mp hfile
    obtain ⟨part', _, heq'⟩ := List.mem_map.mp hfile'
    rw [← heq'] at heq
    exact hne (PlannedFile.mk.inj heq).1

/-- Files of one name are the same, whatever the sizes they are planned for. -/
theorem plannedEntry_file_eq (chunkRows chunkRows' : Nat) {file file' : PlannedFile}
    (h : file ∈ source.plannedFiles maxFileRows scope)
    (h' : file' ∈ source.plannedFiles maxFileRows' scope) :
    (source.plannedEntry chunkRows maxFileRows file).file =
      (source.plannedEntry chunkRows' maxFileRows' file').file ↔ file = file' := by
  obtain ⟨r, hr, hpart⟩ := List.mem_flatMap.mp h
  obtain ⟨r', hr', hpart'⟩ := List.mem_flatMap.mp h'
  obtain ⟨part, _, heq⟩ := List.mem_map.mp hpart
  obtain ⟨part', _, heq'⟩ := List.mem_map.mp hpart'
  constructor
  · intro hfile
    have hpath := source.fileName_injective hfile
    rw [← heq, ← heq'] at hpath ⊢
    injection hpath with hname hday hnumber
    rw [familyRange_eq hr hr' hname hday]
    exact congrArg _ hnumber
  · intro hsame
    rw [hsame]
    rfl

end Names

end PumpResearch.Archive
