import PumpResearch.Library.Calendar
import PumpResearch.Library.JsonDump
import PumpResearch.Library.KeyedTable
import PumpResearch.Library.PyDecimal
import PumpResearch.Instants

/-! Rows of an archive as archival.py writes them: the Arrow type of every column, the
normalisation of a database row, and the canonical encoding that content digests are taken of. -/
namespace PumpResearch.Archive

open Calendar Framing JsonDump KeyedTable

/-! ### Columns -/

/-- Column types of the models that an archive can hold. -/
inductive ColumnType where
  | uuid
  | dateTime
  | jsonb
  | numeric (precision scale : Option Nat)
  | bigInteger
  | integer
  | boolean
  | string
deriving DecidableEq

inductive ArrowType where
  | string
  | timestampMicros
  | decimal128 (precision scale : Nat)
  | decimal256 (precision scale : Nat)
  | int64
  | int32
  | bool
deriving DecidableEq

/-- A precision of zero counts as none, as `precision or 38` has it. -/
def numericPrecision : Option Nat → Nat
  | some 0 | none => 38
  | some n => n

def arrowType : ColumnType → ArrowType
  | .uuid => .string
  | .dateTime => .timestampMicros
  | .jsonb => .string
  | .numeric precision scale =>
    if numericPrecision precision ≤ 38 then
      .decimal128 (numericPrecision precision) (scale.getD 0)
    else if numericPrecision precision ≤ 76 then
      .decimal256 (numericPrecision precision) (scale.getD 0)
    else .string
  | .bigInteger => .int64
  | .integer => .int32
  | .boolean => .bool
  | .string => .string

structure Column where
  name : String
  type : ColumnType
  nullable : Bool

/-- A mapped table: its columns have names of their own. -/
abbrev Model := Table Column.name

structure Field where
  name : String
  type : ArrowType
  nullable : Bool
deriving DecidableEq

abbrev Schema := List Field

def Schema.names (schema : Schema) : List String := schema.map Field.name

def arrowSchema (model : Model) : Schema :=
  model.rows.map fun column => ⟨column.name, arrowType column.type, column.nullable⟩

/-! ### Values -/

/-- A value of a normalised row, or of a row read back from Parquet. -/
inductive Value where
  | null
  | text (s : String)
  | instant (at_ : UtcDatetime)
  | decimal (d : PyDecimal)
  | integer (n : Int)
  | boolean (b : Bool)

inductive ValueKind where
  | text
  | instant
  | decimal
  | integer
  | boolean
deriving DecidableEq

def ArrowType.kind : ArrowType → ValueKind
  | .string => .text
  | .timestampMicros => .instant
  | .decimal128 _ _ => .decimal
  | .decimal256 _ _ => .decimal
  | .int64 => .integer
  | .int32 => .integer
  | .bool => .boolean

def Value.kind? : Value → Option ValueKind
  | .null => none
  | .text _ => some .text
  | .instant _ => some .instant
  | .decimal _ => some .decimal
  | .integer _ => some .integer
  | .boolean _ => some .boolean

/-- The values of a column type. Every column may hold null. -/
def Value.Fits (type : ArrowType) (v : Value) : Prop := ∀ kind ∈ v.kind?, kind = type.kind

/-- Two values of one type that are not null are of one kind. -/
theorem Value.Fits.kind_eq {type : ArrowType} {v w : Value} {k l : ValueKind} (hv : v.Fits type)
    (hw : w.Fits type) (hk : v.kind? = some k) (hl : w.kind? = some l) : k = l :=
  (hv k hk).trans (hw l hl).symm

/-- Equal as values: decimals by the number they stand for. -/
def Value.Same : Value → Value → Prop
  | .decimal d, .decimal e => d.number = e.number
  | v, w => v = w

/-- A row by the names of its columns. -/
abbrev Row := String → Value

/-- A row whose columns hold values of their types. -/
structure NormalizedRow (schema : Schema) where
  row : Row
  fits : ∀ field ∈ schema, (row field.name).Fits field.type

/-! ### Normalisation -/

section Normalisation

variable {Document : Type}

/-- What the database driver returns for a column. -/
inductive SourceValue (Document : Type) where
  | null
  | uuid (u : Fin (2 ^ 128))
  | instant (at_ : UtcDatetime)
  | document (d : Document)
  | decimal (d : PyDecimal)
  | integer (n : Int)
  | boolean (b : Bool)
  | text (s : String)

/-- The hexadecimal digits of a UUID in their five groups. -/
def uuidText (u : Fin (2 ^ 128)) : String :=
  let hex := (Nat.toDigits 16 u.val).leftpad 32 '0'
  String.ofList (hex.take 8 ++ '-' :: ((hex.drop 8).take 4 ++ '-' :: ((hex.drop 12).take 4 ++
    '-' :: ((hex.drop 16).take 4 ++ '-' :: hex.drop 20))))

/-- None for a value that the driver does not return for the type. -/
def normalizeValue (dumps : Document → String) :
    ColumnType → SourceValue Document → Option Value
  | _, .null => some .null
  | .uuid, .uuid u => some (.text (uuidText u))
  | .dateTime, .instant d => some (.instant d)
  | .jsonb, .document document => some (.text (dumps document))
  | .numeric precision _, .decimal d =>
    if numericPrecision precision > 76 then some (.text (String.ofList d.formatF))
    else some (.decimal d)
  | .bigInteger, .integer n => some (.integer n)
  | .integer, .integer n => some (.integer n)
  | .boolean, .boolean b => some (.boolean b)
  | .string, .text s => some (.text s)
  | _, _ => none

theorem kind_arrowType_numeric (precision scale : Option Nat) :
    (arrowType (.numeric precision scale)).kind =
      if numericPrecision precision > 76 then .text else .decimal := by
  simp only [arrowType]
  split
  · rw [if_neg (by omega)]
    rfl
  · split
    · rw [if_neg (by omega)]
      rfl
    · rw [if_pos (by omega)]
      rfl

theorem fits_of_normalizeValue {dumps : Document → String} {type : ColumnType}
    {value : SourceValue Document} {v : Value} (h : normalizeValue dumps type value = some v) :
    v.Fits (arrowType type) := by
  intro kind hkind
  unfold normalizeValue at h
  split at h
  case h_5 =>
    rw [kind_arrowType_numeric]
    split at h
    · next hwide =>
      rw [← Option.some.inj h] at hkind
      rw [if_pos hwide, Option.some.inj hkind]
    · next hnarrow =>
      rw [← Option.some.inj h] at hkind
      rw [if_neg hnarrow, Option.some.inj hkind]
  case h_10 => cases h
  all_goals
    rw [← Option.some.inj h] at hkind
    first | exact (Option.some.inj hkind).symm | cases hkind

/-- The normalised row, if the driver returned a value of its type for every column. -/
def normalizeRow (dumps : Document → String) (model : Model)
    (row : String → SourceValue Document) : Option (NormalizedRow (arrowSchema model)) :=
  let normalized (column : Column) := normalizeValue dumps column.type (row column.name)
  if h : ∀ column ∈ model.rows, (normalized column).isSome then
    some {
      row := fun name => ((model.find? name).bind normalized).getD .null
      fits := by
        intro field hfield
        obtain ⟨column, hcolumn, rfl⟩ := List.mem_map.mp hfield
        have hfind := Table.find?_eq_some_iff.mpr ⟨hcolumn, rfl⟩
        obtain ⟨v, hv⟩ := Option.isSome_iff_exists.mp (h column hcolumn)
        simp only [hfind, Option.bind_some, hv, Option.getD_some]
        exact fits_of_normalizeValue hv }
  else none

end Normalisation

/-! ### Canonical rows -/

/-- The JSON scalar that stands for a value. -/
def Value.scalar : Value → Scalar
  | .null => .null
  | .text s => .string s
  | .instant d => .string (String.ofList (d.isoformat 'T'))
  | .decimal d => .string (String.ofList d.formatF)
  | .integer n => .integer n
  | .boolean b => .boolean b

def rowText (row : Row) (columns : List String) : List Char :=
  dumpList (columns.map fun column => (row column).scalar) ++ ['\n']

/-- The line of a row, as its bytes. -/
def canonicalRow (row : Row) (columns : List String) : ByteArray :=
  (String.ofList (rowText row columns)).toByteArray

/-- Within a type, a scalar tells its value. -/
theorem same_of_scalar_eq {type : ArrowType} {v w : Value} (hv : v.Fits type) (hw : w.Fits type)
    (h : v.scalar = w.scalar) : v.Same w := by
  cases v with
  | null => cases w <;> first | rfl | cases h
  | text s =>
    cases w with
    | text t => rw [Scalar.string.inj h]; rfl
    | instant _ => cases hv.kind_eq hw rfl rfl
    | decimal _ => cases hv.kind_eq hw rfl rfl
    | _ => cases h
  | instant c =>
    cases w with
    | instant d =>
      have htext := String.ofList_injective (Scalar.string.inj h)
      rw [UtcDatetime.isoformat_injective (by decide) htext]
      rfl
    | text _ => cases hv.kind_eq hw rfl rfl
    | decimal _ => cases hv.kind_eq hw rfl rfl
    | _ => cases h
  | decimal d =>
    cases w with
    | decimal e =>
      exact PyDecimal.number_eq_of_formatF (String.ofList_injective (Scalar.string.inj h))
    | text _ => cases hv.kind_eq hw rfl rfl
    | instant _ => cases hv.kind_eq hw rfl rfl
    | _ => cases h
  | integer n => cases w <;> first | (rw [Scalar.integer.inj h]; rfl) | cases h
  | boolean b => cases w <;> first | (rw [Scalar.boolean.inj h]; rfl) | cases h

theorem readable_line : Readable fun values : List Scalar => dumpList values ++ ['\n'] := by
  intro as bs s t _ _ heq
  simp only [List.append_assoc] at heq
  obtain ⟨hab, hrest⟩ := readable_dumpList as bs _ _ trivial trivial heq
  exact ⟨hab, List.append_cancel_left hrest⟩

/-- Lines one after another tell the scalars of every row. -/
theorem lines_injective :
    Function.Injective fun rows : List (List Scalar) =>
      rows.flatMap fun values => dumpList values ++ ['\n'] :=
  flatMap_injective readable_line fun _ => List.append_ne_nil_of_right_ne_nil _ (by decide)

end PumpResearch.Archive
