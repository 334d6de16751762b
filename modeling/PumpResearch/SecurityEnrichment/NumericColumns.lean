import PumpResearch.Library.DecimalRounding
import PumpResearch.Library.RelatedLists
import PumpResearch.Library.Results

/-! Comparing decimals with what a `NUMERIC` column has stored of them. -/
namespace PumpResearch.SecurityEnrichment

open PyDecimal Results

/-! ### Columns -/

/-- `NUMERIC(p, s)`, within the limits of PostgreSQL. -/
structure NumericType where
  precision : Nat
  scale : Int
  precision_le : 1 ≤ precision ∧ precision ≤ 1000
  scale_le : -1000 ≤ scale ∧ scale ≤ 1000

/-- A stored decimal has exactly the places of its column. Zero has no sign. -/
def NumericType.store (type : NumericType) : PyDecimal → Option PyDecimal
  | .finite negative coefficient exponent =>
    let units := unitsAt (-type.scale) coefficient exponent
    if units < 10 ^ type.precision then some (.finite (negative && units ≠ 0) units (-type.scale))
    else none
  | .infinity _ => none
  | .nan => some .nan

/-- `len(value.as_tuple().digits)`. -/
def tupleDigits : PyDecimal → Nat
  | .finite _ coefficient _ => digitCount coefficient
  | .infinity _ => 1
  | .nan => 0

/-- The value that `_canonical_model_values` gives a decimal of a fixed-scale column. -/
def canonicalValue (type : NumericType) (value : PyDecimal) : Except DecimalError PyDecimal := do
  let prec ← setPrec (max (tupleDigits value + type.scale.natAbs + 1) type.precision)
  quantize prec (-type.scale) value

/-- `_database_value_equal` of two decimals. -/
def databaseValueEqual (stored proposed : PyDecimal) : Except DecimalError Bool :=
  if numberEq stored proposed then .ok true
  else
    match stored, proposed with
    | .finite _ storedCoefficient storedExponent, .finite _ proposedCoefficient proposedExponent => do
      let precision := max (digitCount storedCoefficient + storedExponent.natAbs)
        (digitCount proposedCoefficient + proposedExponent.natAbs)
      let prec ← setPrec (max precision 1)
      match quantize prec storedExponent proposed with
      | .error _ => return false
      | .ok coerced => return numberEq stored coerced
    | _, _ => .ok false

/-! ### Verified inserts -/

section Insert

variable {α : Type} [DecidableEq α]

/-- A value of a model's field. -/
inductive FieldValue (α : Type) where
  | decimal (d : PyDecimal)
  | other (a : α)

def FieldValue.eq : FieldValue α → FieldValue α → Bool
  | .decimal d, .decimal d' => numberEq d d'
  | .other a, .other a' => a = a'
  | _, _ => false

/-- The values of a row by their fields. -/
abbrev ModelValues (α : Type) := List (String × FieldValue α)

inductive InsertFailure where
  | decimal (error : DecimalError)
  | data
  | integrity
deriving DecidableEq

/-- The fixed-scale columns of a model: `none` for a field of any other type. -/
abbrev ModelColumns := String → Option NumericType

/-- `_canonical_model_values` on one field. -/
def canonicalField (columns : ModelColumns) (entry : String × FieldValue α) :
    Except DecimalError (String × FieldValue α) :=
  match entry.2, columns entry.1 with
  | .decimal d, some type => (canonicalValue type d).map fun c => (entry.1, .decimal c)
  | _, _ => .ok entry

/-- `_canonical_model_values`. -/
def canonicalModelValues (columns : ModelColumns) (values : ModelValues α) :
    Except DecimalError (ModelValues α) :=
  values.mapM (canonicalField columns)

/-- A field as the database stores it, if its column has room for it. -/
def storeField (columns : ModelColumns) (entry : String × FieldValue α) :
    Except InsertFailure (String × FieldValue α) :=
  match entry.2, columns entry.1 with
  | .decimal d, some type =>
    match type.store d with
    | some c => .ok (entry.1, .decimal c)
    | none => .error .data
  | _, _ => .ok entry

def storeValues (columns : ModelColumns) (values : ModelValues α) :
    Except InsertFailure (ModelValues α) :=
  values.mapM (storeField columns)

/-- Whether a row has the value expected of a field. -/
def fieldEq (row : ModelValues α) (field : String) (expected : FieldValue α) : Bool :=
  (row.lookup field).any fun value => value.eq expected

/-- `_insert_verified`, on the rows of the model's table, with its lookup field. -/
def insertVerifiedValues (columns : ModelColumns) (lookupField : String) (values : ModelValues α)
    (rows : List (ModelValues α)) :
    Except InsertFailure (ModelValues α × List (ModelValues α)) := do
  let values ← (canonicalModelValues columns values).mapError .decimal
  let stored ← storeValues columns values
  let some expected := values.lookup lookupField | throw .integrity
  let rows := if rows.any (fieldEq · lookupField expected) then rows else rows ++ [stored]
  let some row := rows.find? (fieldEq · lookupField expected) | throw .integrity
  if values.all fun (field, value) => fieldEq row field value then return (row, rows)
  else throw .integrity

end Insert

/-! ### Rounding -/

/-- A decimal whose rounding the column has room for, and whose digits a context has room for. -/
structure FitsColumn (type : NumericType) (negative : Bool) (coefficient : Nat) (exponent : Int) :
    Prop where
  room : |roundHalfAway type.scale (value negative coefficient exponent)| <
    (10 : ℚ) ^ (type.precision - type.scale)
  digits : digitCount coefficient + type.scale.natAbs + 1 ≤ maxPrec

theorem digitCount_le_of_lt {n p : Nat} (hp : 1 ≤ p) (h : n < 10 ^ p) : digitCount n ≤ p := by
  rw [digitCount]
  have hlog := Nat.log_lt_of_lt_pow' (b := 10) (by omega) h
  omega

/-- The rounded number fits its column exactly when its units do. -/
theorem units_lt_iff (type : NumericType) (b : Bool) (c : Nat) (e : Int) :
    unitsAt (-type.scale) c e < 10 ^ type.precision ↔
      |roundHalfAway type.scale (value b c e)| < (10 : ℚ) ^ (type.precision - type.scale) := by
  have hpos : (0 : ℚ) < (10 : ℚ) ^ (-type.scale) := by positivity
  have hsplit : (10 : ℚ) ^ ((type.precision : Int) - type.scale) =
      ((10 ^ type.precision : Nat) : ℚ) * (10 : ℚ) ^ (-type.scale) := by
    rw [sub_eq_add_neg, zpow_add₀ (by norm_num), zpow_natCast]
    push_cast
    rfl
  rw [← value_unitsAt, value, abs_signed (by positivity), hsplit, mul_lt_mul_iff_left₀ hpos,
    Nat.cast_lt]

theorem hasRoom_of_le {prec n : Nat} {scale : Int} (hscale : -1000 ≤ scale ∧ scale ≤ 1000)
    (hdigits : digitCount n ≤ prec) (hsmall : digitCount n ≤ 1000) :
    hasRoom prec (-scale) n = true := by
  have hemax : emax = 999999 := rfl
  simp only [hasRoom, Bool.and_eq_true, decide_eq_true_eq]
  omega

/-- A canonical value is the rounding of its decimal, and equals what the column stores. -/
theorem canonicalValue_eq {type : NumericType} {b : Bool} {c : Nat} {e : Int}
    (h : FitsColumn type b c e) :
    ∃ canonical stored, canonicalValue type (.finite b c e) = .ok canonical ∧
      type.store (.finite b c e) = some stored ∧ numberEq stored canonical = true ∧
      canonical = .finite b (unitsAt (-type.scale) c e) (-type.scale) := by
  have hunits := (units_lt_iff type b c e).mpr h.room
  have hdigits := digitCount_le_of_lt type.precision_le.1 hunits
  have hprec : max (tupleDigits (.finite b c e) + type.scale.natAbs + 1) type.precision ≤ maxPrec := by
    refine max_le h.digits (type.precision_le.2.trans ?_)
    decide
  have hroom : hasRoom (max (tupleDigits (.finite b c e) + type.scale.natAbs + 1) type.precision)
      (-type.scale) (unitsAt (-type.scale) c e) = true :=
    hasRoom_of_le type.scale_le (hdigits.trans (le_max_right _ _)) (hdigits.trans type.precision_le.2)
  refine ⟨_, .finite (b && unitsAt (-type.scale) c e ≠ 0) (unitsAt (-type.scale) c e) (-type.scale),
    ?_, ?_, ?_, rfl⟩
  · rw [canonicalValue, setPrec, if_pos hprec, ok_bind]
    simp only [quantize, hroom, if_true]
  · simp only [NumericType.store, hunits, if_true]
  · rw [numberEq_finite]
    by_cases hzero : unitsAt (-type.scale) c e = 0
    · simp [hzero, value, signed]
    · simp [hzero]

/-- Comparing with a stored decimal tells whether the other rounds to it. -/
theorem databaseValueEqual_iff {type : NumericType} {sb : Bool} {sc : Nat} {b : Bool} {c : Nat}
    {e : Int} (hstored : sc < 10 ^ type.precision) (hdigits : digitCount c + e.natAbs ≤ maxPrec) :
    databaseValueEqual (.finite sb sc (-type.scale)) (.finite b c e) =
      .ok (decide (value sb sc (-type.scale) = roundHalfAway type.scale (value b c e))) := by
  have hcount := digitCount_le_of_lt type.precision_le.1 hstored
  have hscale : (-type.scale).natAbs ≤ 1000 := by
    have hle := type.scale_le
    omega
  have hprec : max (max (digitCount sc + (-type.scale).natAbs) (digitCount c + e.natAbs)) 1 ≤
      maxPrec := by
    have hsmall := type.precision_le.2
    have hlimit : maxPrec = 999999999999999999 := rfl
    omega
  rw [databaseValueEqual]
  by_cases heq : numberEq (.finite sb sc (-type.scale)) (.finite b c e) = true
  · rw [if_pos heq, ← numberEq_finite.mp heq, roundHalfAway_value, decide_eq_true rfl]
  · rw [if_neg heq]
    simp only [setPrec, if_pos hprec, ok_bind, quantize]
    by_cases hround : value sb sc (-type.scale) = roundHalfAway type.scale (value b c e)
    · have hunits : unitsAt (-type.scale) c e = sc := by
        rw [← value_unitsAt] at hround
        exact (coefficient_inj hround).symm
      have hroom : hasRoom
          (max (max (digitCount sc + (-type.scale).natAbs) (digitCount c + e.natAbs)) 1)
          (-type.scale) sc = true := by
        refine hasRoom_of_le type.scale_le ?_ (hcount.trans type.precision_le.2)
        omega
      have hequal : numberEq (.finite sb sc (-type.scale)) (.finite b sc (-type.scale)) = true := by
        rw [numberEq_finite, hround, ← value_unitsAt, hunits]
      rw [hunits, hroom, if_pos rfl]
      simp only [hequal, hround, decide_true]
      rfl
    · rw [decide_eq_false hround]
      split
      · rfl
      · next coerced hcoerced =>
        split at hcoerced
        · obtain rfl := Except.ok.inj hcoerced
          have hne : numberEq (.finite sb sc (-type.scale))
              (.finite b (unitsAt (-type.scale) c e) (-type.scale)) = false := by
            rw [Bool.eq_false_iff, ne_eq, numberEq_finite, value_unitsAt]
            exact hround
          rw [hne]
          rfl
        · cases hcoerced

/-! ### Inserting again -/

section Reinsert

variable {α : Type} [DecidableEq α] {columns : ModelColumns} {values canonical stored : ModelValues α}

/-- A value that its column has room for: a finite decimal of a fixed-scale column, or a value of
another type. -/
def FitsField (columns : ModelColumns) (entry : String × FieldValue α) : Prop :=
  match entry.2, columns entry.1 with
  | .decimal (.finite b c e), some type => FitsColumn type b c e
  | .decimal _, _ => False
  | .other _, _ => True

/-- Entries of one field whose values are equal. -/
def SameEntry (entry entry' : String × FieldValue α) : Prop :=
  entry.1 = entry'.1 ∧ entry'.2.eq entry.2 = true

/-- A canonical entry: of the same field, and itself where it is no decimal. -/
def CanonicalEntry (entry canonical : String × FieldValue α) : Prop :=
  canonical.1 = entry.1 ∧ ∀ a, entry.2 = .other a → canonical.2 = .other a

theorem unitsAt_self (target : Int) (n : Nat) : unitsAt target n target = n := by
  rw [unitsAt, if_pos le_rfl, sub_self]
  exact Nat.mul_one n

/-- A canonical value is stored as it is, up to the sign of zero. -/
theorem store_canonical {type : NumericType} {b : Bool} {c : Nat} {e : Int}
    (h : FitsColumn type b c e) :
    ∃ stored, type.store (.finite b (unitsAt (-type.scale) c e) (-type.scale)) = some stored ∧
      numberEq stored (.finite b (unitsAt (-type.scale) c e) (-type.scale)) = true := by
  obtain ⟨canonical, stored, _, hstore, hequal, rfl⟩ := canonicalValue_eq h
  refine ⟨stored, ?_, hequal⟩
  rw [← hstore, NumericType.store, NumericType.store, unitsAt_self]

theorem exists_canonical_field {entry : String × FieldValue α} (h : FitsField columns entry) :
    ∃ c s, canonicalField columns entry = .ok c ∧ storeField columns c = .ok s ∧
      SameEntry c s ∧ CanonicalEntry entry c := by
  obtain ⟨field, value⟩ := entry
  cases value with
  | other a =>
    refine ⟨(field, .other a), (field, .other a), rfl, rfl, ⟨rfl, ?_⟩, rfl, fun _ h => h⟩
    exact decide_eq_true rfl
  | decimal d =>
    cases d with
    | infinity b => exact h.elim
    | nan => exact h.elim
    | finite b c e =>
      cases hcolumn : columns field with
      | none =>
        simp only [FitsField, hcolumn] at h
      | some type =>
        simp only [FitsField, hcolumn] at h
        obtain ⟨canonical, _, hcanonical, _, _, rfl⟩ := canonicalValue_eq h
        obtain ⟨stored, hstored, hequal⟩ := store_canonical h
        refine ⟨(field, .decimal (.finite b (unitsAt (-type.scale) c e) (-type.scale))),
          (field, .decimal stored), ?_, ?_, ⟨rfl, hequal⟩, rfl, ?_⟩
        · simp only [canonicalField, hcolumn, hcanonical]
          rfl
        · simp only [storeField, hcolumn, hstored]
        · intro a ha
          cases ha

/-- The canonical values of fitting values are stored as equal values. -/
theorem exists_canonical_stored (h : ∀ entry ∈ values, FitsField columns entry) :
    ∃ canonical stored, canonicalModelValues columns values = .ok canonical ∧
      storeValues columns canonical = .ok stored ∧ List.Forall₂ SameEntry canonical stored ∧
      List.Forall₂ CanonicalEntry values canonical := by
  induction values with
  | nil => exact ⟨[], [], rfl, rfl, .nil, .nil⟩
  | cons entry rest ih =>
    obtain ⟨c, s, hc, hs, hsame, hcanonical⟩ := exists_canonical_field (h entry List.mem_cons_self)
    obtain ⟨canonical, stored, hvalues, hstored, hall, hentries⟩ :=
      ih fun other hother => h other (List.mem_cons_of_mem _ hother)
    refine ⟨c :: canonical, s :: stored, ?_, ?_, .cons hsame hall, .cons hcanonical hentries⟩
    · rw [canonicalModelValues] at hvalues ⊢
      rw [List.mapM_cons, hc, ok_bind, hvalues]
      rfl
    · rw [storeValues] at hstored ⊢
      rw [List.mapM_cons, hs, ok_bind, hstored]
      rfl

theorem lookup_canonical (h : List.Forall₂ CanonicalEntry values canonical) {field : String} {a : α}
    (hlookup : values.lookup field = some (.other a)) :
    canonical.lookup field = some (.other a) := by
  induction h with
  | nil => exact hlookup
  | @cons entry c rest canonical hentry hrest ih =>
    obtain ⟨name, value⟩ := entry
    obtain ⟨name', value'⟩ := c
    obtain ⟨hname, hother⟩ := hentry
    simp only at hname hother
    rw [hname]
    rw [List.lookup_cons] at hlookup ⊢
    cases hfield : field == name with
    | true =>
      rw [hfield] at hlookup
      simp only [Option.some.injEq] at hlookup ⊢
      exact hother a hlookup
    | false =>
      rw [hfield] at hlookup
      exact ih hlookup

/-- Every field of the canonical values is equal to the stored row's. -/
theorem fieldEq_stored (h : List.Forall₂ SameEntry canonical stored)
    (hnodup : (canonical.map Prod.fst).Nodup) :
    ∀ entry ∈ canonical, fieldEq stored entry.1 entry.2 = true := by
  induction h with
  | nil =>
    intro entry hentry
    cases hentry
  | @cons c s canonical stored hsame hrest ih =>
    rw [List.map_cons, List.nodup_cons] at hnodup
    obtain ⟨hhead, htail⟩ := hnodup
    obtain ⟨name, value⟩ := s
    obtain ⟨hname, hvalue⟩ := hsame
    intro entry hentry
    rcases List.mem_cons.mp hentry with rfl | hmem
    · rw [fieldEq, List.lookup_cons, hname, beq_self_eq_true]
      exact hvalue
    · have hne : (entry.1 == name) = false := by
        rw [beq_eq_false_iff_ne]
        intro heq
        refine hhead ?_
        rw [hname, ← heq]
        exact List.mem_map.mpr ⟨entry, hmem, rfl⟩
      rw [fieldEq, List.lookup_cons, hne]
      exact ih htail entry hmem

/-- Values that fit are inserted once, and inserting them again finds their row. -/
theorem insertVerifiedValues_again (hfits : ∀ entry ∈ values, FitsField columns entry)
    (hnodup : (values.map Prod.fst).Nodup) {lookupField : String} {key : α}
    (hkey : values.lookup lookupField = some (.other key)) {rows : List (ModelValues α)}
    (hnew : ∀ row ∈ rows, fieldEq row lookupField (.other key) = false) :
    ∃ row, insertVerifiedValues columns lookupField values rows = .ok (row, rows ++ [row]) ∧
      ∀ later, insertVerifiedValues columns lookupField values (rows ++ row :: later) =
        .ok (row, rows ++ row :: later) := by
  obtain ⟨canonical, stored, hcanonical, hstored, hsame, hentries⟩ :=
    exists_canonical_stored hfits
  have hlookup := lookup_canonical hentries hkey
  have hnames : canonical.map Prod.fst = values.map Prod.fst := by
    symm
    exact RelatedLists.map_eq_of_forall₂ hentries fun _ _ h => h.1.symm
  have hequal := fieldEq_stored hsame (hnames ▸ hnodup)
  have hfound : fieldEq stored lookupField (.other key) = true := by
    obtain ⟨before, after, hsplit, _⟩ := List.lookup_eq_some_iff.mp hlookup
    refine hequal (lookupField, .other key) ?_
    rw [hsplit]
    exact List.mem_append_right _ List.mem_cons_self
  have hall : (canonical.all fun (field, value) => fieldEq stored field value) = true :=
    List.all_eq_true.mpr hequal
  have hnone : rows.any (fieldEq · lookupField (.other key)) = false := by
    rw [List.any_eq_false]
    intro row hrow
    rw [hnew row hrow]
    exact Bool.false_ne_true
  have hfind : ∀ later, (rows ++ stored :: later).find? (fieldEq · lookupField (.other key)) =
      some stored := by
    intro later
    have hskip : rows.find? (fieldEq · lookupField (.other key)) = none := by
      rw [List.find?_eq_none]
      intro row hrow
      rw [hnew row hrow]
      exact Bool.false_ne_true
    rw [List.find?_append, hskip, Option.none_or, List.find?_cons, hfound]
  refine ⟨stored, ?_, ?_⟩
  · simp only [insertVerifiedValues, hcanonical, Except.mapError, ok_bind, hstored, hlookup, hnone,
      Bool.false_eq_true, if_false, hfind, hall, if_true]
    rfl
  · intro later
    have hany : (rows ++ stored :: later).any (fieldEq · lookupField (.other key)) = true := by
      rw [List.any_append, List.any_cons, hfound, Bool.true_or, Bool.or_true]
    simp only [insertVerifiedValues, hcanonical, Except.mapError, ok_bind, hstored, hlookup, hany,
      if_true, hfind, hall]
    rfl

end Reinsert

/-- Canonical values are what the column stores, values that fit are accepted again, and a stored
decimal is equal to exactly those that round to it. -/
theorem comparison_rounds (type : NumericType) :
    (∀ b c e, FitsColumn type b c e →
      ∃ canonical stored, canonicalValue type (.finite b c e) = .ok canonical ∧
        type.store (.finite b c e) = some stored ∧ numberEq stored canonical = true ∧
        canonical = .finite b (unitsAt (-type.scale) c e) (-type.scale)) ∧
    (∀ (columns : ModelColumns) (values : ModelValues String) (lookupField key : String) rows,
      (∀ entry ∈ values, FitsField columns entry) → (values.map Prod.fst).Nodup →
      values.lookup lookupField = some (.other key) →
      (∀ row ∈ rows, fieldEq row lookupField (.other key) = false) →
      ∃ row, insertVerifiedValues columns lookupField values rows = .ok (row, rows ++ [row]) ∧
        ∀ later, insertVerifiedValues columns lookupField values (rows ++ row :: later) =
          .ok (row, rows ++ row :: later)) ∧
    ∀ sb sc b c e, sc < 10 ^ type.precision → digitCount c + e.natAbs ≤ maxPrec →
      databaseValueEqual (.finite sb sc (-type.scale)) (.finite b c e) =
        .ok (decide (value sb sc (-type.scale) = roundHalfAway type.scale (value b c e))) := by
  refine ⟨fun _ _ _ => canonicalValue_eq, ?_, fun _ _ _ _ _ => databaseValueEqual_iff⟩
  intro columns values lookupField key rows hfits hnodup hkey hnew
  exact insertVerifiedValues_again hfits hnodup hkey hnew

/-- `NUMERIC(20, 2)`. -/
def numeric20 : NumericType := ⟨20, 2, by decide, by decide⟩

theorem digitCount_of_lt_ten {n : Nat} (h : n < 10) : digitCount n = 1 := by
  rw [digitCount, Nat.log_of_lt h]

/-- One in a thousand, negative, is stored as zero, and five in a thousand as one in a hundred. -/
theorem comparison_rounds_thousandths :
    (∃ canonical stored, canonicalValue numeric20 (.finite true 1 (-3)) = .ok canonical ∧
      numeric20.store (.finite true 1 (-3)) = some stored ∧ numberEq stored canonical = true ∧
      canonical = .finite true (unitsAt (-2) 1 (-3)) (-2)) ∧
    (∃ row, insertVerifiedValues (fun _ => some numeric20) "key"
        [("key", FieldValue.other "a"), ("share", .decimal (.finite true 1 (-3)))] [] =
          .ok (row, [row]) ∧
      ∀ later, insertVerifiedValues (fun _ => some numeric20) "key"
        [("key", FieldValue.other "a"), ("share", .decimal (.finite true 1 (-3)))]
          (row :: later) = .ok (row, row :: later)) ∧
    databaseValueEqual (.finite false 1 (-2)) (.finite false 5 (-3)) =
      .ok (decide (value false 1 (-2) = roundHalfAway 2 (value false 5 (-3)))) := by
  have hfits : FitsColumn numeric20 true 1 (-3) := by
    constructor
    · rw [← units_lt_iff]
      decide
    · rw [digitCount_of_lt_ten (by decide)]
      decide
  obtain ⟨hcanonical, hinsert, hequal⟩ := comparison_rounds numeric20
  refine ⟨hcanonical true 1 (-3) hfits, ?_, ?_⟩
  · refine hinsert (fun _ => some numeric20) _ "key" "a" [] ?_ (by decide) rfl ?_
    · intro entry hentry
      simp only [List.mem_cons, List.not_mem_nil, or_false] at hentry
      rcases hentry with rfl | rfl
      · trivial
      · exact hfits
    · intro row hrow
      cases hrow
  · refine hequal false 1 false 5 (-3) (by decide) ?_
    rw [digitCount_of_lt_ten (by decide)]
    decide

theorem value_one (e : Int) : value false 1 e = (10 : ℚ) ^ e := by
  rw [value, Nat.cast_one, one_mul, signed, if_neg Bool.false_ne_true]

theorem value_zero (b : Bool) (e : Int) : value b 0 e = 0 := by
  rw [value, Nat.cast_zero, zero_mul, signed, neg_zero, ite_self]

/-- A power of ten below the places rounds to zero. -/
theorem roundHalfAway_small {places e : Int} (h : e + places < 0) :
    roundHalfAway places (value false 1 e) = 0 := by
  have hpos : (0 : ℚ) < (10 : ℚ) ^ e := by positivity
  have hnonneg : (0 : ℚ) ≤ (10 : ℚ) ^ (e + places) := by positivity
  have hsmall : (10 : ℚ) ^ (e + places) ≤ 1 / 10 := by
    have hle : (10 : ℚ) ^ (e + places) ≤ (10 : ℚ) ^ (-1 : Int) :=
      zpow_le_zpow_right₀ (by norm_num) (by omega)
    rwa [zpow_neg_one, ← one_div] at hle
  have hfloor : ⌊(10 : ℚ) ^ e * (10 : ℚ) ^ places + 1 / 2⌋ = 0 := by
    rw [← zpow_add₀ (by norm_num), Int.floor_eq_zero_iff]
    constructor
    · linarith only [hnonneg]
    · linarith only [hsmall]
  rw [value_one, roundHalfAway, abs_of_pos hpos, hfloor, if_neg (not_lt.mpr hpos.le),
    Int.cast_zero, zero_mul]

/-- Comparing zero with a power of ten of too many places raises. -/
theorem databaseValueEqual_tiny {places e : Int} (h : maxPrec ≤ e.natAbs) :
    databaseValueEqual (.finite false 0 places) (.finite false 1 e) = .error .valueError := by
  have hne : numberEq (.finite false 0 places) (.finite false 1 e) = false := by
    rw [Bool.eq_false_iff, ne_eq, numberEq_finite, value_one, value_zero]
    have hpos : (0 : ℚ) < (10 : ℚ) ^ e := by positivity
    exact hpos.ne
  have hprec : ¬ max (max (digitCount 0 + places.natAbs) (digitCount 1 + e.natAbs)) 1 ≤ maxPrec := by
    rw [digitCount_of_lt_ten (by norm_num : 1 < 10)]
    omega
  rw [databaseValueEqual, hne]
  simp only [Bool.false_eq_true, if_false, setPrec, if_neg hprec]
  rfl

/-- The decimal `1E-999999999999999999` rounds to the stored zero, and comparing the two raises. -/
theorem tiny_decimal_raises :
    roundHalfAway numeric20.scale (value false 1 (-999999999999999999)) = value false 0 (-2) ∧
    databaseValueEqual (.finite false 0 (-2)) (.finite false 1 (-999999999999999999)) =
      .error .valueError := by
  constructor
  · rw [value_zero]
    exact roundHalfAway_small (by decide)
  · exact databaseValueEqual_tiny (by decide)

end PumpResearch.SecurityEnrichment
