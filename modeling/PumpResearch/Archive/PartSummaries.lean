import PumpResearch.Archive.ArchiveRows
import PumpResearch.Library.KeyedTotals

/-! What an export keeps of the rows of a part: their count, their canonical content, the bounds
of their times and identities, and the nulls of every column. The content tells the rows. -/
namespace PumpResearch.Archive

open Calendar Framing JsonDump OrderedDict KeyedTotals

/-! ### Identities -/

/-- Python's `str` of a decimal: with an exponent where the point would stand far away. -/
def decimalText : PyDecimal → List Char
  | .finite negative coefficient exponent =>
    let digits := Nat.toDigits 10 coefficient
    let leftDigits := exponent + digits.length
    PyDecimal.sign negative ++
      if exponent ≤ 0 ∧ -6 < leftDigits then PyDecimal.digits coefficient exponent
      else
        digits.take 1 ++ (if digits.length = 1 then [] else '.' :: digits.drop 1) ++
          'E' :: (if 0 ≤ leftDigits - 1 then '+' :: dumpInt (leftDigits - 1)
            else dumpInt (leftDigits - 1))
  | .infinity negative => PyDecimal.sign negative ++ ['I', 'n', 'f', 'i', 'n', 'i', 't', 'y']
  | .nan => ['N', 'a', 'N']

/-- Python's `str` of a value. -/
def Value.str : Value → String
  | .null => "None"
  | .text s => s
  | .instant d => String.ofList (d.isoformat ' ')
  | .decimal d => String.ofList (decimalText d)
  | .integer n => String.ofList (dumpInt n)
  | .boolean true => "True"
  | .boolean false => "False"

def rowIdentifier (row : Row) (keys : List String) : Option String :=
  if keys.isEmpty then none else some ("|".intercalate (keys.map fun key => (row key).str))

/-! ### Summaries -/

/-- The columns of an `_ExportSpec` that the summary of a part reads. -/
structure FamilyColumns where
  timestampColumn : String
  keyColumns : List String

/-- `part_state`, apart from the file itself. -/
structure PartSummary where
  rows : Nat
  logicalBytes : Nat
  content : ByteArray
  minTime : Option UtcDatetime
  maxTime : Option UtcDatetime
  minId : Option String
  maxId : Option String
  nullCounts : Dict String Nat

def openSummary : PartSummary where
  rows := 0
  logicalBytes := 0
  content := .empty
  minTime := none
  maxTime := none
  minId := none
  maxId := none
  nullCounts := .empty

/-- The observed value against the one kept before, if any. -/
def bound {α : Type} (choose : α → α → α) (previous observed : Option α) : Option α :=
  match previous, observed with
  | previous, none => previous
  | none, some b => some b
  | some a, some b => some (choose a b)

/-- The time of a row, if its timestamp column holds one. -/
def observedTime (columns : FamilyColumns) (row : Row) : Option UtcDatetime :=
  match row columns.timestampColumn with
  | .instant d => some d
  | _ => none

def Value.isNull : Value → Bool
  | .null => true
  | _ => false

def countNull (row : Row) (counts : Dict String Nat) (name : String) : Dict String Nat :=
  if (row name).isNull then counts.set name ((counts.get? name).getD 0 + 1) else counts

/-- The loop of `_update_part_state` over one row. -/
def summarizeRow (columns : FamilyColumns) (schema : Schema) (state : PartSummary) (row : Row) :
    PartSummary :=
  let encoded := canonicalRow row schema.names
  { state with
    content := state.content ++ encoded
    logicalBytes := state.logicalBytes + encoded.size
    minTime := bound min state.minTime (observedTime columns row)
    maxTime := bound max state.maxTime (observedTime columns row)
    minId := bound min state.minId (rowIdentifier row columns.keyColumns)
    maxId := bound max state.maxId (rowIdentifier row columns.keyColumns)
    nullCounts := schema.names.foldl (countNull row) state.nullCounts }

/-- `_update_part_state`. -/
def updatePartState (columns : FamilyColumns) (schema : Schema) (state : PartSummary)
    (rows : List Row) : PartSummary :=
  let summary := rows.foldl (summarizeRow columns schema) state
  { summary with rows := state.rows + rows.length }

section Summaries

variable {columns : FamilyColumns} {schema : Schema}

theorem rows_foldl_summarizeRow (state : PartSummary) (rows : List Row) :
    (rows.foldl (summarizeRow columns schema) state).rows = state.rows := by
  induction rows generalizing state with
  | nil => rfl
  | cons row rows ih => exact ih _

/-- The row count is written last, so it does not take part in the loop. -/
theorem foldl_summarizeRow_rows (state : PartSummary) (n : Nat) (rows : List Row) :
    rows.foldl (summarizeRow columns schema) { state with rows := n } =
      { rows.foldl (summarizeRow columns schema) state with rows := n } := by
  induction rows generalizing state with
  | nil => rfl
  | cons row rows ih => exact ih (summarizeRow columns schema state row)

theorem updatePartState_nil (state : PartSummary) :
    updatePartState columns schema state [] = state := rfl

/-- Two updates do what one update with all the rows does. -/
theorem updatePartState_append (state : PartSummary) (rows rows' : List Row) :
    updatePartState columns schema state (rows ++ rows') =
      updatePartState columns schema (updatePartState columns schema state rows) rows' := by
  simp only [updatePartState, List.foldl_append, List.length_append, foldl_summarizeRow_rows,
    Nat.add_assoc]

/-- Chunk by chunk as in one pass. -/
theorem foldl_updatePartState (state : PartSummary) (chunks : List (List Row)) :
    chunks.foldl (updatePartState columns schema) state =
      updatePartState columns schema state chunks.flatten := by
  induction chunks generalizing state with
  | nil => rfl
  | cons chunk chunks ih =>
    rw [List.foldl_cons, ih, List.flatten_cons, updatePartState_append]

/-! ### Bounds -/

theorem foldl_bound {α : Type} (choose : α → α → α) (observed : Row → Option α) (rows : List Row)
    (previous : Option α) :
    rows.foldl (fun kept row => bound choose kept (observed row)) previous =
      (rows.filterMap observed).foldl (fun kept a => bound choose kept (some a)) previous := by
  induction rows generalizing previous with
  | nil => rfl
  | cons row rows ih =>
    rw [List.foldl_cons, ih, List.filterMap_cons]
    cases observed row with
    | none => cases previous <;> rfl
    | some a => rfl

theorem foldl_bound_some {α : Type} (choose : α → α → α) (a : α) (as : List α) :
    as.foldl (fun kept b => bound choose kept (some b)) (some a) = some (as.foldl choose a) := by
  induction as generalizing a with
  | nil => rfl
  | cons b as ih => exact ih (choose a b)

theorem foldl_min {α : Type} [Min α] (observed : Row → Option α) (rows : List Row) :
    rows.foldl (fun kept row => bound min kept (observed row)) none =
      (rows.filterMap observed).min? := by
  rw [foldl_bound]
  cases rows.filterMap observed with
  | nil => rfl
  | cons a as => exact foldl_bound_some min a as

theorem foldl_max {α : Type} [Max α] (observed : Row → Option α) (rows : List Row) :
    rows.foldl (fun kept row => bound max kept (observed row)) none =
      (rows.filterMap observed).max? := by
  rw [foldl_bound]
  cases rows.filterMap observed with
  | nil => rfl
  | cons a as => exact foldl_bound_some max a as

/-! ### Null counts -/

/-- The columns of a row that hold null. -/
def nullNames (schema : Schema) (row : Row) : List String :=
  schema.names.filter fun name => (row name).isNull

theorem foldl_countNull (rows : List Row) :
    rows.foldl (fun counts row => schema.names.foldl (countNull row) counts) .empty =
      totals id (fun _ => 1) (rows.flatMap (nullNames schema)) := by
  have hrow (row : Row) (counts : Dict String Nat) : schema.names.foldl (countNull row) counts =
      (nullNames schema row).foldl (fun counts name =>
        counts.set name ((counts.get? name).getD 0 + 1)) counts := by
    rw [nullNames, List.foldl_filter]
    rfl
  simp only [hrow, totals, List.foldl_flatMap]
  rfl

theorem count_nullNames (hnodup : schema.names.Nodup) {name : String} (hname : name ∈ schema.names)
    (rows : List Row) :
    (rows.flatMap (nullNames schema)).count name = rows.countP fun row => (row name).isNull := by
  have hrow (row : Row) : (nullNames schema row).count name =
      if (row name).isNull then 1 else 0 := by
    by_cases hnull : (row name).isNull = true
    · rw [if_pos hnull, nullNames, List.count_filter (p := fun name => (row name).isNull) hnull,
        List.count_eq_one_of_mem hnodup hname]
    · rw [if_neg hnull, List.count_eq_zero]
      exact fun h => hnull (List.mem_filter.mp h).2
  induction rows with
  | nil => rfl
  | cons row rows ih =>
    rw [List.flatMap_cons, List.count_append, ih, hrow, List.countP_cons, Nat.add_comm]

/-- What an entry says about the rows of its part. -/
structure Tells (columns : FamilyColumns) (schema : Schema) (rows : List Row)
    (state : PartSummary) : Prop where
  rowCount : state.rows = rows.length
  minTime : state.minTime = (rows.filterMap (observedTime columns)).min?
  maxTime : state.maxTime = (rows.filterMap (observedTime columns)).max?
  minId : state.minId = (rows.filterMap fun row => rowIdentifier row columns.keyColumns).min?
  maxId : state.maxId = (rows.filterMap fun row => rowIdentifier row columns.keyColumns).max?
  counted : ∀ name ∈ schema.names,
    (state.nullCounts.get? name).getD 0 = rows.countP fun row => (row name).isNull
  listed : ∀ name, name ∈ state.nullCounts.keys ↔
    name ∈ schema.names ∧ ∃ row ∈ rows, (row name).isNull = true

theorem tells_updatePartState (hnodup : schema.names.Nodup) (rows : List Row) :
    Tells columns schema rows (updatePartState columns schema openSummary rows) := by
  have hnulls : (updatePartState columns schema openSummary rows).nullCounts =
      totals id (fun _ => 1) (rows.flatMap (nullNames schema)) :=
    (List.foldl_hom PartSummary.nullCounts fun _ _ => rfl).symm.trans (foldl_countNull rows)
  refine ⟨?_, ?_, ?_, ?_, ?_, ?_, ?_⟩
  · exact Nat.zero_add _
  · exact (List.foldl_hom PartSummary.minTime fun _ _ => rfl).symm.trans (foldl_min _ rows)
  · exact (List.foldl_hom PartSummary.maxTime fun _ _ => rfl).symm.trans (foldl_max _ rows)
  · exact (List.foldl_hom PartSummary.minId fun _ _ => rfl).symm.trans (foldl_min _ rows)
  · exact (List.foldl_hom PartSummary.maxId fun _ _ => rfl).symm.trans (foldl_max _ rows)
  · intro name hname
    rw [hnulls, getD_totals, ← count_nullNames hnodup hname, weightOf, List.map_const',
      List.sum_replicate, smul_eq_mul, mul_one, List.count_eq_length_filter]
    rfl
  · intro name
    rw [hnulls, mem_keys_totals]
    constructor
    · intro h
      obtain ⟨found, hfound, rfl⟩ := h
      obtain ⟨row, hrow, hin⟩ := List.mem_flatMap.mp hfound
      obtain ⟨hname, hnull⟩ := List.mem_filter.mp hin
      exact ⟨hname, row, hrow, hnull⟩
    · intro h
      obtain ⟨hname, row, hrow, hnull⟩ := h
      exact ⟨name, List.mem_flatMap.mpr ⟨row, hrow, List.mem_filter.mpr ⟨hname, hnull⟩⟩, rfl⟩

/-! ### Content -/

/-- The bytes that `_verify_entry` digests as it reads the rows back. -/
def readbackContent (schema : Schema) (rows : List Row) : ByteArray :=
  rows.foldl (fun content row => content ++ canonicalRow row schema.names) .empty

def rowsText (schema : Schema) (rows : List Row) : String :=
  String.ofList (rows.flatMap fun row => rowText row schema.names)

theorem foldl_canonicalRow (content : ByteArray) (rows : List Row) :
    rows.foldl (fun content row => content ++ canonicalRow row schema.names) content =
      content ++ (rowsText schema rows).toByteArray := by
  induction rows generalizing content with
  | nil =>
    have hempty : (rowsText schema []).toByteArray = .empty := String.toByteArray_empty
    rw [List.foldl_nil, hempty, ByteArray.append_empty]
  | cons row rows ih =>
    have hcons : rowsText schema (row :: rows) =
        String.ofList (rowText row schema.names) ++ rowsText schema rows := by
      rw [rowsText, List.flatMap_cons, String.ofList_append]
      rfl
    rw [List.foldl_cons, ih, hcons, String.toByteArray_append, ByteArray.append_assoc]
    rfl

theorem readbackContent_eq (rows : List Row) :
    readbackContent schema rows = (rowsText schema rows).toByteArray := by
  rw [readbackContent, foldl_canonicalRow, ByteArray.empty_append]

/-- The content that an export takes is the one that a readback takes. -/
theorem content_updatePartState (rows : List Row) :
    (updatePartState columns schema openSummary rows).content = readbackContent schema rows := by
  have hfold (state : PartSummary) :
      (rows.foldl (summarizeRow columns schema) state).content =
        rows.foldl (fun content row => content ++ canonicalRow row schema.names) state.content := by
    induction rows generalizing state with
    | nil => rfl
    | cons row rows ih => exact ih _
  exact hfold openSummary

/-- Equal column by column, as values. -/
def SameRow (schema : Schema) (row row' : Row) : Prop :=
  ∀ field ∈ schema, (row field.name).Same (row' field.name)

/-- Equal content comes from rows that are equal one by one. -/
theorem same_of_content_eq {rows rows' : List (NormalizedRow schema)}
    (h : readbackContent schema (rows.map NormalizedRow.row) =
      readbackContent schema (rows'.map NormalizedRow.row)) :
    List.Forall₂ (fun row row' => SameRow schema row.row row'.row) rows rows' := by
  rw [readbackContent_eq, readbackContent_eq, String.toByteArray_inj] at h
  have hlines := String.ofList_injective h
  simp only [rowText, List.flatMap_map] at hlines
  have hscalars : rows.map (fun row => schema.names.map fun name => (row.row name).scalar) =
      rows'.map fun row => schema.names.map fun name => (row.row name).scalar := by
    apply lines_injective
    simpa only [List.flatMap_map] using hlines
  have hrelated := List.forall₂_map_left_iff.mp (List.forall₂_map_right_iff.mp
    (List.forall₂_eq_eq_eq ▸ hscalars))
  apply hrelated.imp
  intro row row' hrow field hfield
  rw [List.map_inj_left] at hrow
  exact same_of_scalar_eq (row.fits field hfield) (row'.fits field hfield)
    (hrow field.name (List.mem_map_of_mem hfield))

/-- Null is the same as nothing else. -/
theorem null_same_iff {v : Value} : Value.null.Same v ↔ v = .null := by
  cases v <;> simp [Value.Same]

/-- The content digest of an entry, however its rows were chunked, is that of the rows read back,
and it determines them. -/
theorem content_digest_determines_rows {Digest : Type} (sha256 : ByteArray → Digest)
    (hsha256 : Function.Injective sha256) (columns : FamilyColumns) (schema : Schema)
    (rows rows' : List (NormalizedRow schema)) :
    (readbackContent schema (rows.map NormalizedRow.row) =
        readbackContent schema (rows'.map NormalizedRow.row) →
      List.Forall₂ (fun row row' => SameRow schema row.row row'.row) rows rows') ∧
    (∀ chunks chunks' : List (List Row),
      chunks.flatten = rows.map NormalizedRow.row → chunks'.flatten = rows'.map NormalizedRow.row →
      sha256 (chunks.foldl (updatePartState columns schema) openSummary).content =
        sha256 (chunks'.foldl (updatePartState columns schema) openSummary).content →
      List.Forall₂ (fun row row' => SameRow schema row.row row'.row) rows rows') ∧
    (∀ chunks : List (List Row), chunks.flatten = rows.map NormalizedRow.row →
      chunks.foldl (updatePartState columns schema) openSummary =
          updatePartState columns schema openSummary (rows.map NormalizedRow.row) ∧
        sha256 (chunks.foldl (updatePartState columns schema) openSummary).content =
          sha256 (readbackContent schema (rows.map NormalizedRow.row))) ∧
    ∀ v : Value, Value.null.Same v ↔ v = .null := by
  have hchunks (chunks : List (List Row)) :
      (chunks.foldl (updatePartState columns schema) openSummary).content =
        readbackContent schema chunks.flatten := by
    rw [foldl_updatePartState, content_updatePartState]
  refine ⟨same_of_content_eq, ?_, ?_, fun v => null_same_iff⟩
  · intro chunks chunks' hrows hrows' hdigest
    have hcontent := hsha256 hdigest
    rw [hchunks, hchunks, hrows, hrows'] at hcontent
    exact same_of_content_eq hcontent
  · intro chunks hrows
    rw [foldl_updatePartState, hrows]
    exact ⟨rfl, by rw [content_updatePartState]⟩

end Summaries

/-! A fact without a price and one whose price is zero. -/

def priceSchema : Schema :=
  [⟨"id", .string, false⟩, ⟨"price_usd", .decimal128 38 18, true⟩]

def priceRow (price : Value) (h : price.Fits (.decimal128 38 18)) : NormalizedRow priceSchema where
  row name := if name = "id" then .text "f1" else price
  fits := by
    intro field hfield
    simp only [priceSchema, List.mem_cons, List.not_mem_nil, or_false] at hfield
    obtain rfl | rfl := hfield
    · intro kind hkind
      exact (Option.some.inj hkind).symm
    · exact h

theorem fits_null (type : ArrowType) : Value.null.Fits type := fun _ h => by cases h

def zeroPrice : Value := .decimal (.finite false 0 (-18))

theorem zeroPrice_fits : zeroPrice.Fits (.decimal128 38 18) :=
  fun _ h => (Option.some.inj h).symm

theorem absent_price_has_own_content :
    readbackContent priceSchema [(priceRow .null (fits_null _)).row] ≠
      readbackContent priceSchema [(priceRow zeroPrice zeroPrice_fits).row] := by
  intro h
  have hsame := (content_digest_determines_rows id Function.injective_id
    ⟨"received_at", ["id"]⟩ priceSchema [priceRow .null (fits_null _)]
    [priceRow zeroPrice zeroPrice_fits]).1 h
  have hprice := (List.forall₂_cons.mp hsame).1 ⟨"price_usd", .decimal128 38 18, true⟩
    (by simp [priceSchema])
  cases null_same_iff.mp hprice

end PumpResearch.Archive
