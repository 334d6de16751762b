import PumpResearch.Archive.PartSummaries
import PumpResearch.Archive.StagedFiles

/-! The parts of a scope: the days it is cut into, the entry of every part from the rows that
were written to it, and the paths of the parts. -/
namespace PumpResearch.Archive

open Calendar ConsecutiveRanges Framing JsonDump KeyedTotals OrderedDict Results RowGroups
open Research (dailyRangesFrom dailyRanges microsecondsPerDay dailyRangesFrom_consecutive
  dailyRangesFrom_days)

/-! ### Days -/

abbrev UtcRange := UtcDatetime × UtcDatetime

/-- The loop of `_daily_ranges`, at most so many times. The last date has no midnight after it. -/
def dailyRangesUtcFrom : Nat → UtcDatetime → UtcDatetime → Except String (List UtcRange)
  | 0, _, _ => .ok []
  | fuel + 1, cursor, finish =>
    if cursor < finish then
      match cursor.nextMidnight with
      | none => .error "date value out of range"
      | some boundary =>
        (dailyRangesUtcFrom fuel (min boundary finish) finish).map
          ((cursor, min boundary finish) :: ·)
    else .ok []

/-- `_daily_ranges`. -/
def dailyRangesUtc (start finish : UtcDatetime) : Except String (List UtcRange) :=
  dailyRangesUtcFrom (finish.date - start.date + 1) start finish

/-- The first instant of the last date. -/
def lastMidnight : UtcDatetime := ⟨(maxOrdinal - 1) * dayMicros, by decide⟩

/-- A range in microseconds. -/
def microsRange (range : UtcRange) : Int × Int := (range.1.micros, range.2.micros)

theorem exists_nextMidnight {d : UtcDatetime} (h : d < lastMidnight) :
    ∃ boundary, d.nextMidnight = some boundary := by
  rw [UtcDatetime.lt_iff] at h
  unfold UtcDatetime.nextMidnight
  rw [dif_pos]
  · exact ⟨_, rfl⟩
  · simp only [UtcDatetime.date, lastMidnight, maxOrdinal, dayMicros] at h ⊢
    omega

theorem micros_min (c d : UtcDatetime) : (min c d).micros = min c.micros d.micros := by
  cases le_total c d with
  | inl h => rw [min_eq_left h, min_eq_left (UtcDatetime.le_iff.mp h)]
  | inr h => rw [min_eq_right h, min_eq_right (UtcDatetime.le_iff.mp h)]

/-- Below the last date the loop makes the ranges of the unbounded one. -/
theorem dailyRangesUtcFrom_eq {finish : UtcDatetime} (hlast : finish ≤ lastMidnight) (fuel : Nat)
    (cursor : UtcDatetime) :
    ∃ ranges, dailyRangesUtcFrom fuel cursor finish = .ok ranges ∧
      ranges.map microsRange = dailyRangesFrom fuel cursor.micros finish.micros := by
  induction fuel generalizing cursor with
  | zero => exact ⟨[], rfl, rfl⟩
  | succ fuel ih =>
    unfold dailyRangesUtcFrom dailyRangesFrom
    by_cases hlt : cursor < finish
    · obtain ⟨boundary, hboundary⟩ := exists_nextMidnight (lt_of_lt_of_le hlt hlast)
      obtain ⟨rest, hrest, hmicros⟩ := ih (min boundary finish)
      have hnext : ((min boundary finish).micros : Int) =
          min (((cursor.micros : Int) / microsecondsPerDay + 1) * microsecondsPerDay)
            finish.micros := by
        rw [micros_min, UtcDatetime.nextMidnight_eq_some hboundary]
        simp only [UtcDatetime.date, dayMicros, microsecondsPerDay]
        omega
      have hlt' : (cursor.micros : Int) < finish.micros := by exact_mod_cast hlt
      simp only [hlt, if_true, hboundary, hrest, Except.map, hlt']
      refine ⟨_, rfl, ?_⟩
      rw [List.map_cons, hmicros, microsRange, hnext]
    · have hlt' : ¬ (cursor.micros : Int) < finish.micros := by exact_mod_cast hlt
      simp only [hlt, if_false, hlt']
      exact ⟨[], rfl, rfl⟩

/-- Contiguous half-open ranges, none of them empty, each within one date, that make up the whole
range. -/
structure SplitByDate (start finish : UtcDatetime) (ranges : List UtcRange) : Prop where
  contiguous : Consecutive start.micros (ranges.map microsRange) finish.micros
  oneDate : ∀ range ∈ ranges, ∀ t, range.1 ≤ t → t < range.2 → t.date = range.1.date
  union : ∀ t, (∃ range ∈ ranges, range.1 ≤ t ∧ t < range.2) ↔ start ≤ t ∧ t < finish

theorem within_microsRange (range : UtcRange) (t : UtcDatetime) :
    within (microsRange range) t.micros = true ↔ range.1 ≤ t ∧ t < range.2 := by
  simp only [within, microsRange, Bool.and_eq_true, decide_eq_true_eq, Nat.cast_le, Nat.cast_lt,
    UtcDatetime.le_iff, UtcDatetime.lt_iff]

/-- A range of the loop ends at the next midnight or before. -/
theorem dailyRangesFrom_oneDay (fuel : Nat) (cursor finish : Int) :
    ∀ range ∈ dailyRangesFrom fuel cursor finish,
      range.2 ≤ (range.1 / microsecondsPerDay + 1) * microsecondsPerDay := by
  induction fuel generalizing cursor with
  | zero => exact fun range h => by cases h
  | succ fuel ih =>
    unfold dailyRangesFrom
    split
    · intro range hrange
      cases List.mem_cons.mp hrange with
      | inl heq =>
        rw [heq]
        exact min_le_left _ _
      | inr hin => exact ih _ range hin
    · exact fun range h => by cases h

theorem dailyRangesUtc_eq {start finish : UtcDatetime} (hle : start ≤ finish)
    (hlast : finish ≤ lastMidnight) :
    ∃ ranges, dailyRangesUtc start finish = .ok ranges ∧
      ranges.map microsRange = dailyRanges start.micros finish.micros := by
  obtain ⟨ranges, hok, hmicros⟩ :=
    dailyRangesUtcFrom_eq hlast (finish.date - start.date + 1) start
  refine ⟨ranges, hok, ?_⟩
  rw [hmicros, dailyRanges]
  congr 1
  rw [UtcDatetime.le_iff] at hle
  simp only [UtcDatetime.date, dayMicros, microsecondsPerDay]
  omega

theorem splitByDate_dailyRangesUtc {start finish : UtcDatetime} (hle : start ≤ finish)
    {ranges : List UtcRange}
    (hmicros : ranges.map microsRange = dailyRanges start.micros finish.micros) :
    SplitByDate start finish ranges := by
  have hcontiguous : Consecutive start.micros (ranges.map microsRange) finish.micros := by
    rw [hmicros]
    exact Research.dailyRanges_consecutive (by exact_mod_cast hle)
  refine ⟨hcontiguous, ?_, ?_⟩
  · intro range hrange t hfrom hbefore
    have hday : (range.2.micros : Int) ≤ ((range.1.micros : Int) / 86400000000 + 1) * 86400000000 :=
      dailyRangesFrom_oneDay _ _ _ (microsRange range) (hmicros ▸ List.mem_map_of_mem hrange)
    rw [UtcDatetime.le_iff] at hfrom
    rw [UtcDatetime.lt_iff] at hbefore
    simp only [UtcDatetime.date, dayMicros]
    omega
  · intro t
    constructor
    · intro h
      obtain ⟨range, hrange, hin⟩ := h
      have hbounds := hcontiguous.bounds (List.mem_map_of_mem hrange)
      simp only [microsRange, Nat.cast_le] at hbounds
      exact ⟨le_trans (UtcDatetime.le_iff.mpr hbounds.1) hin.1,
        lt_of_lt_of_le hin.2 (UtcDatetime.le_iff.mpr hbounds.2)⟩
    · intro h
      obtain ⟨range, hrange, hin⟩ := hcontiguous.exists_within
        ((within_microsRange (start, finish) t).mpr h)
      obtain ⟨source, hsource, rfl⟩ := List.mem_map.mp hrange
      exact ⟨source, hsource, (within_microsRange source t).mp hin⟩

/-! ### Entries -/

section Entries

variable {columns : FamilyColumns} {schema : Schema}

/-- The fields of `_entry_from_state` that tell of the rows of a part. -/
structure PartEntry where
  sourceRowCount : Nat
  exportedRowCount : Nat
  uncompressedLogicalBytes : Nat
  minTimestamp : Option String
  maxTimestamp : Option String
  minId : Option String
  maxId : Option String
  keyColumns : List String
  nullCounts : Dict String Nat
  schema : Schema

def isoText (d : UtcDatetime) : String := String.ofList (d.isoformat 'T')

def partEntry (columns : FamilyColumns) (schema : Schema) (state : PartSummary) : PartEntry where
  sourceRowCount := state.rows
  exportedRowCount := state.rows
  uncompressedLogicalBytes := state.logicalBytes
  minTimestamp := state.minTime.map isoText
  maxTimestamp := state.maxTime.map isoText
  minId := state.minId
  maxId := state.maxId
  keyColumns := columns.keyColumns
  nullCounts := state.nullCounts
  schema := schema

/-- The entry of a part: its state was updated with every table as it was written. -/
def PartState.entry (columns : FamilyColumns) (schema : Schema) (part : PartState Row) :
    PartEntry :=
  partEntry columns schema (part.tables.foldl (updatePartState columns schema) openSummary)

/-- An entry that carries the count, the bounds and the null counts of these rows. -/
structure EntryTells (columns : FamilyColumns) (schema : Schema) (rows : List Row)
    (entry : PartEntry) : Prop where
  sourceRowCount : entry.sourceRowCount = rows.length
  exportedRowCount : entry.exportedRowCount = rows.length
  minTimestamp : entry.minTimestamp = (rows.filterMap (observedTime columns)).min?.map isoText
  maxTimestamp : entry.maxTimestamp = (rows.filterMap (observedTime columns)).max?.map isoText
  minId : entry.minId = (rows.filterMap fun row => rowIdentifier row columns.keyColumns).min?
  maxId : entry.maxId = (rows.filterMap fun row => rowIdentifier row columns.keyColumns).max?
  counted : ∀ name ∈ schema.names,
    (entry.nullCounts.get? name).getD 0 = rows.countP fun row => (row name).isNull
  listed : ∀ name, name ∈ entry.nullCounts.keys ↔
    name ∈ schema.names ∧ ∃ row ∈ rows, (row name).isNull = true

/-- The rows that a part holds. -/
def PartState.contents (part : PartState Row) : List Row := part.tables.flatten

theorem foldl_tables (part : PartState Row) :
    part.tables.foldl (updatePartState columns schema) openSummary =
      updatePartState columns schema openSummary part.contents :=
  foldl_updatePartState openSummary part.tables

theorem entryTells (model : Model) (part : PartState Row) :
    EntryTells columns (arrowSchema model) part.contents
      (part.entry columns (arrowSchema model)) := by
  have hnodup : (arrowSchema model).names.Nodup := by
    rw [Schema.names, arrowSchema, List.map_map]
    exact model.nodup
  have htells : Tells columns (arrowSchema model) part.contents _ :=
    tells_updatePartState hnodup part.contents
  rw [← foldl_tables] at htells
  exact {
    sourceRowCount := htells.rowCount
    exportedRowCount := htells.rowCount
    minTimestamp := congrArg (Option.map isoText) htells.minTime
    maxTimestamp := congrArg (Option.map isoText) htells.maxTime
    minId := htells.minId
    maxId := htells.maxId
    counted := htells.counted
    listed := htells.listed }

end Entries

/-! ### Parts -/

section Parts

variable {chunkRows maxFileRows : Nat}

theorem contents_plannedPart (hsize : 0 < maxFileRows) (rows : List Row) (part : Nat) :
    (plannedPart chunkRows maxFileRows rows part).contents =
      (rows.drop (part * maxFileRows)).take maxFileRows :=
  flatten_rowGroups hsize part rows

/-- What the parts of one family and range hold. -/
structure PartsOf (maxFileRows : Nat) (rows : List Row) (parts : List (PartState Row)) : Prop where
  concatenated : (parts.map PartState.contents).flatten = rows
  size_le : ∀ part ∈ parts, part.contents.length ≤ maxFileRows
  nonempty : rows ≠ [] → ∀ part ∈ parts, part.contents ≠ []
  empty : rows = [] → ∃ part, parts = [part] ∧ part.contents = []
  numbers : parts.map PartState.partNumber = List.range parts.length

theorem partsOf_exportOne (hchunk : 0 < chunkRows) (hsize : 0 < maxFileRows) (rows : List Row) :
    PartsOf maxFileRows rows (exportOne chunkRows maxFileRows rows) := by
  rw [exportOne_eq hchunk hsize]
  have hmem {part : PartState Row} (h : part ∈ (List.range (partCount maxFileRows rows.length)).map
      (plannedPart chunkRows maxFileRows rows)) : ∃ n < partCount maxFileRows rows.length,
        part.contents = (rows.drop (n * maxFileRows)).take maxFileRows := by
    obtain ⟨n, hn, rfl⟩ := List.mem_map.mp h
    exact ⟨n, List.mem_range.mp hn, contents_plannedPart hsize rows n⟩
  refine ⟨?_, ?_, ?_, ?_, ?_⟩
  · rw [List.map_map]
    have hcontents : PartState.contents ∘ plannedPart chunkRows maxFileRows rows =
        fun part => (rows.drop (part * maxFileRows)).take maxFileRows :=
      funext (contents_plannedPart hsize rows)
    rw [hcontents, flatten_parts hsize]
  · intro part hpart
    obtain ⟨n, _, hcontents⟩ := hmem hpart
    rw [hcontents]
    exact List.length_take_le _ _
  · intro hne part hpart hnil
    obtain ⟨n, hn, hcontents⟩ := hmem hpart
    have hlt := mul_lt_length hne hn
    have hlength := congrArg List.length (hcontents.symm.trans hnil)
    rw [List.length_take, List.length_drop, List.length_nil] at hlength
    omega
  · intro hnil
    subst hnil
    refine ⟨plannedPart chunkRows maxFileRows [] 0, ?_, ?_⟩
    · simp [partCount]
    · rw [contents_plannedPart hsize, List.drop_nil, List.take_nil]
  · rw [List.map_map, List.length_map, List.length_range]
    have hnumber : PartState.partNumber ∘ plannedPart chunkRows maxFileRows rows = id := rfl
    rw [hnumber, List.map_id]

end Parts

/-! ### Paths -/

/-- `_data_path`. -/
def dataPath (epochNumber : Int) (identity family : String) (startAt : UtcDatetime)
    (partNumber : Nat) : List Char :=
  "schema=v2/family=".toList ++ (family.toList ++ '/' :: ("year=".toList ++
    (padded 4 startAt.ymd.year ++ '/' :: ("month=".toList ++ (padded 2 startAt.ymd.month ++
      '/' :: ("day=".toList ++ (padded 2 startAt.ymd.day ++ '/' :: ("epoch=".toList ++
        (dumpInt epochNumber ++ ("/scope=".toList ++ (identity.toList ++ ("/part-".toList ++
          (padded 5 partNumber ++ '.' :: "parquet".toList)))))))))))))

theorem family_append_inj {family family' : String} {s t : List Char}
    (hfamily : '/' ∉ family.toList) (hfamily' : '/' ∉ family'.toList)
    (h : family.toList ++ '/' :: s = family'.toList ++ '/' :: t) : family = family' ∧ s = t := by
  have hstop (u : List Char) : StartsWith (fun c => ¬ c ≠ '/') ('/' :: u) := by
    intro c hc
    rw [List.head?_cons, Option.mem_some_iff] at hc
    exact not_not.mpr hc.symm
  obtain ⟨hname, hrest⟩ := append_inj_of_class (p := fun c => c ≠ '/')
    (fun c hc heq => hfamily (heq ▸ hc)) (fun c hc heq => hfamily' (heq ▸ hc)) (hstop s) (hstop t) h
  exact ⟨String.toList_inj.mp hname, (List.cons_inj_right '/').mp hrest⟩

/-- Within a scope a path tells its family, its date and its number. -/
theorem dataPath_inj {epochNumber : Int} {identity family family' : String}
    {startAt startAt' : UtcDatetime} {partNumber partNumber' : Nat}
    (hfamily : '/' ∉ family.toList) (hfamily' : '/' ∉ family'.toList)
    (h : dataPath epochNumber identity family startAt partNumber =
      dataPath epochNumber identity family' startAt' partNumber') :
    family = family' ∧ startAt.date = startAt'.date ∧ partNumber = partNumber' := by
  obtain ⟨hname, h⟩ := family_append_inj hfamily hfamily' (List.append_cancel_left h)
  obtain ⟨hyear, h⟩ := UtcDatetime.padded_cons_inj (by decide) (List.append_cancel_left h)
  obtain ⟨hmonth, h⟩ := UtcDatetime.padded_cons_inj (by decide) (List.append_cancel_left h)
  obtain ⟨hday, h⟩ := UtcDatetime.padded_cons_inj (by decide) (List.append_cancel_left h)
  have hpart := List.append_cancel_left (List.append_cancel_left (List.append_cancel_left
    (List.append_cancel_left (List.append_cancel_left h))))
  have hdate : startAt.ymd = startAt'.ymd := by
    rw [YearMonthDay.mk.injEq]
    exact ⟨hyear, hmonth, hday⟩
  exact ⟨hname, UtcDatetime.ymd_inj hdate, (UtcDatetime.padded_cons_inj (by decide) hpart).1⟩

/-! ### Scopes -/

/-- One file of a scope. -/
structure ScopePart where
  family : String
  range : UtcRange
  part : PartState Row

/-- Its path within the archive. -/
def ScopePart.path (epochNumber : Int) (identity : String) (p : ScopePart) : List Char :=
  dataPath epochNumber identity p.family p.range.1 p.part.partNumber

def ExportSpec.rangesUtc (spec : ExportSpec) (start finish : UtcDatetime) :
    Except String (List UtcRange) :=
  if spec.perDay then dailyRangesUtc start finish else .ok [(start, finish)]

section Scopes

variable (rows : String → UtcRange → List Row) (chunkRows maxFileRows : Nat)

/-- The parts of a family, range after range. -/
def familyParts (family : String) (ranges : List UtcRange) : List ScopePart :=
  ranges.flatMap fun range =>
    (exportOne chunkRows maxFileRows (rows family range)).map (ScopePart.mk family range)

/-- The loops of `export_epoch_range` over families and ranges. -/
def exportParts (start finish : UtcDatetime) : Except String (List ScopePart) := do
  let families ← specs.mapM fun spec => do
    let ranges ← spec.rangesUtc start finish
    return familyParts rows chunkRows maxFileRows spec.name ranges
  return families.flatten

variable {rows chunkRows maxFileRows}

theorem specs_names : ∀ spec ∈ specs, '/' ∉ spec.name.toList := by decide +kernel

/-- With the days of the scope, every family has its ranges. -/
theorem exportParts_eq {start finish : UtcDatetime} {days : List UtcRange}
    (hdays : dailyRangesUtc start finish = .ok days) :
    exportParts rows chunkRows maxFileRows start finish =
      .ok (specs.flatMap fun spec => familyParts rows chunkRows maxFileRows spec.name
        (if spec.perDay then days else [(start, finish)])) := by
  have hranges (spec : ExportSpec) : spec.rangesUtc start finish =
      .ok (if spec.perDay then days else [(start, finish)]) := by
    unfold ExportSpec.rangesUtc
    split
    · exact hdays
    · rfl
  simp only [exportParts, hranges, ok_bind]
  rw [List.mapM_pure]
  rfl

theorem dates_nodup {start finish : UtcDatetime} {days : List UtcRange}
    (hmicros : days.map microsRange = dailyRanges start.micros finish.micros) :
    days.Pairwise fun range later => range.1.date ≠ later.1.date := by
  have hdays := Research.dailyRanges_days start.micros finish.micros
  rw [← hmicros, List.pairwise_map] at hdays
  apply hdays.imp
  intro range later hlt heq
  have hlt' : (range.1.micros : Int) / 86400000000 < (later.1.micros : Int) / 86400000000 := hlt
  simp only [UtcDatetime.date, dayMicros] at heq
  omega

/-- Within a family, the parts of ranges of distinct dates have paths of their own. -/
theorem familyParts_paths (hchunk : 0 < chunkRows) (hsize : 0 < maxFileRows) (epochNumber : Int)
    (identity : String) {family : String} (hfamily : '/' ∉ family.toList) {ranges : List UtcRange}
    (hdates : ranges.Pairwise fun range later => range.1.date ≠ later.1.date) :
    ((familyParts rows chunkRows maxFileRows family ranges).map
      (ScopePart.path epochNumber identity)).Nodup := by
  rw [familyParts, List.map_flatMap, List.nodup_flatMap]
  constructor
  · intro range _
    have hnumbers := (partsOf_exportOne hchunk hsize (rows family range)).numbers
    have hnodup : ((exportOne chunkRows maxFileRows (rows family range)).map
        PartState.partNumber).Nodup := by
      rw [hnumbers]
      exact List.nodup_range
    rw [List.map_map]
    refine List.Nodup.map_on ?_ hnodup.of_map
    intro part hpart part' hpart' heq
    exact List.inj_on_of_nodup_map hnodup hpart hpart' (dataPath_inj hfamily hfamily heq).2.2
  · refine hdates.imp fun {range later} hne path hpath hpath' => ?_
    obtain ⟨p, hp, rfl⟩ := List.mem_map.mp hpath
    obtain ⟨part, _, rfl⟩ := List.mem_map.mp hp
    obtain ⟨p', hp', heq⟩ := List.mem_map.mp hpath'
    obtain ⟨part', _, rfl⟩ := List.mem_map.mp hp'
    exact hne (dataPath_inj hfamily hfamily heq).2.1.symm

/-- No two parts of a scope share a path. -/
theorem exportParts_paths (hchunk : 0 < chunkRows) (hsize : 0 < maxFileRows) (epochNumber : Int)
    (identity : String) {start finish : UtcDatetime} {days : List UtcRange}
    (hmicros : days.map microsRange = dailyRanges start.micros finish.micros) :
    ((specs.flatMap fun spec => familyParts rows chunkRows maxFileRows spec.name
      (if spec.perDay then days else [(start, finish)])).map
        (ScopePart.path epochNumber identity)).Nodup := by
  rw [List.map_flatMap, List.nodup_flatMap]
  constructor
  · intro spec hspec
    apply familyParts_paths hchunk hsize epochNumber identity (specs_names spec hspec)
    split
    · exact dates_nodup hmicros
    · exact List.pairwise_singleton _ _
  · have hfamily {spec : ExportSpec} {ranges : List UtcRange} {p : ScopePart}
        (hp : p ∈ familyParts rows chunkRows maxFileRows spec.name ranges) :
        p.family = spec.name := by
      obtain ⟨range, _, hin⟩ := List.mem_flatMap.mp hp
      obtain ⟨part, _, rfl⟩ := List.mem_map.mp hin
      rfl
    have hspecs := specs_nodup
    rw [List.Nodup, List.pairwise_map] at hspecs
    refine List.Pairwise.imp_of_mem (fun {spec spec'} hspec hspec' hne path hpath hpath' => ?_) hspecs
    obtain ⟨p, hp, rfl⟩ := List.mem_map.mp hpath
    obtain ⟨p', hp', heq⟩ := List.mem_map.mp hpath'
    have hslash : '/' ∉ p.family.toList := by
      rw [hfamily hp]
      exact specs_names spec hspec
    have hslash' : '/' ∉ p'.family.toList := by
      rw [hfamily hp']
      exact specs_names spec' hspec'
    have hsame := (dataPath_inj hslash' hslash heq).1
    rw [hfamily hp, hfamily hp'] at hsame
    exact hne hsame.symm

end Scopes

/-! ### Lossless partition -/

/-- `_daily_ranges` as it is meant: a result that splits the range by date. -/
def SplitsByDate (start finish : UtcDatetime) : Prop :=
  ∃ ranges, dailyRangesUtc start finish = .ok ranges ∧ SplitByDate start finish ranges

/-- An export that cuts its range by date and writes exactly the rows of every family and range,
in parts with entries and paths of their own. -/
structure LosslessExport (start finish : UtcDatetime) (chunkRows maxFileRows : Nat) : Prop where
  days : SplitsByDate start finish
  parts : ∀ rows : List Row, PartsOf maxFileRows rows (exportOne chunkRows maxFileRows rows)
  entries : ∀ (rows : List Row) (columns : FamilyColumns) (model : Model),
    ∀ part ∈ exportOne chunkRows maxFileRows rows,
      EntryTells columns (arrowSchema model) part.contents (part.entry columns (arrowSchema model))
  paths : ∀ (rows : String → UtcRange → List Row) (epochNumber : Int) (identity : String),
    ∃ parts, exportParts rows chunkRows maxFileRows start finish = .ok parts ∧
      (parts.map (ScopePart.path epochNumber identity)).Nodup

/-- Up to the first instant of the last date, exports are lossless. -/
theorem export_partitions_rows (start finish : UtcDatetime) (hlt : start < finish)
    (hlast : finish ≤ lastMidnight) (chunkRows maxFileRows : Nat) (hchunk : 1 ≤ chunkRows)
    (hsize : chunkRows ≤ maxFileRows) : LosslessExport start finish chunkRows maxFileRows := by
  obtain ⟨days, hdays, hmicros⟩ := dailyRangesUtc_eq hlt.le hlast
  exact {
    days := ⟨days, hdays, splitByDate_dailyRangesUtc hlt.le hmicros⟩
    parts := partsOf_exportOne hchunk (by omega)
    entries := fun _ _ model part _ => entryTells model part
    paths := fun _ epochNumber identity => ⟨_, exportParts_eq hdays,
      exportParts_paths hchunk (by omega) epochNumber identity hmicros⟩ }

/-- Noon of a leap day and the morning of the day after it. -/
def leapDayNoon : UtcDatetime := ⟨738944 * dayMicros + 43200000000, by decide⟩

def nextMorning : UtcDatetime := ⟨738945 * dayMicros + 21600000000, by decide⟩

theorem leap_day_export : LosslessExport leapDayNoon nextMorning 2 3 :=
  export_partitions_rows leapDayNoon nextMorning (by decide) (by decide) 2 3 (by decide) (by decide)

/-- The first hour of the last date. -/
def lastDateHour : UtcDatetime := ⟨(maxOrdinal - 1) * dayMicros + 3600000000, by decide⟩

/-- The last date has no midnight after it to end its range. -/
theorem last_date_not_split :
    lastMidnight < lastDateHour ∧ ¬ SplitsByDate lastMidnight lastDateHour := by
  have hlt : lastMidnight < lastDateHour := by decide
  refine ⟨hlt, fun h => ?_⟩
  obtain ⟨ranges, hok, _⟩ := h
  have hfuel : lastDateHour.date - lastMidnight.date + 1 = 1 := by decide
  have hnone : lastMidnight.nextMidnight = none := by decide
  rw [dailyRangesUtc, hfuel] at hok
  unfold dailyRangesUtcFrom at hok
  rw [if_pos hlt, hnone] at hok
  cases hok

end PumpResearch.Archive
