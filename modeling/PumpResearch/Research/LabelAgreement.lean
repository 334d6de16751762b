import PumpResearch.Research.LabelHorizons

/-! Crossing labels, excursions and crossing times of one entry price. They agree unless the path
holds a price of zero, or a float falls on the other side of a threshold than its price. -/
namespace PumpResearch.Research
open KeyedOrder OrderedDict Numerics Results

/-- What agreement needs of Decimals: products of positives are positive, and quotients and
differences keep the order of what they are taken of. -/
structure RoundedDecimals (F : Type) [Numerics F] : Prop where
  mul_pos : ∀ {a b : ℚ}, 0 < a → 0 < b → 0 < decMul F a b
  div_mono : ∀ {a b c : ℚ}, 0 < c → a ≤ b → decDiv F a c ≤ decDiv F b c
  sub_mono : ∀ {a b c : ℚ}, a ≤ b → decSub F a c ≤ decSub F b c

theorem roundedDecimals_exact : @RoundedDecimals ℚ exactNumerics :=
  @RoundedDecimals.mk ℚ exactNumerics (fun ha hb => mul_pos ha hb)
    (fun hc h => div_le_div_of_nonneg_right h hc.le) (fun h => sub_le_sub_right h _)

def multipliers (upward : Bool) : List (String × ℚ) :=
  if upward then upsideMultipliers else downsideMultipliers

/-- A price on or beyond a threshold. -/
def Beyond (threshold : ℚ) (upward : Bool) (price : ℚ) : Prop :=
  if upward then threshold ≤ price else price ≤ threshold

/-- A float on or beyond the float of a threshold. -/
def Reaches {F : Type} [Numerics F] (multiplier : ℚ) (upward : Bool) (excursion : F) : Prop :=
  if upward then le (ofDecimal (multiplier - 1)) excursion = true
  else le excursion (ofDecimal (multiplier - 1)) = true

/-- The float return of a price. -/
def floatReturn (F : Type) [Numerics F] (base price : ℚ) : F :=
  ofDecimal (decSub F (decDiv F price base) 1)

/-- The crossing labels with their crossing times. -/
def timedCrossings : List (String × String × ℚ × Bool) :=
  [("plus_50pct", "time_to_plus_50_seconds", 3 / 2, true),
    ("2x", "time_to_2x_seconds", 2, true),
    ("5x", "time_to_5x_seconds", 5, true),
    ("minus_50pct", "time_to_minus_50_seconds", 1 / 2, false),
    ("minus_80pct", "time_to_minus_80_seconds", 1 / 5, false)]

section Agreement
variable (F : Type) [Numerics F] (history : TokenHistory) (state : TokenStateAsOf)
  (contract : LabelSetContract) (base : ℚ)

/-- Some observation of the pair within a horizon has a price on or beyond a threshold. -/
def ObservedBeyond (horizon : Int) (multiplier : ℚ) (upward : Bool) : Prop :=
  ∃ item ∈ history.observations, some item.pairId = state.selectedPairId ∧
    state.decisionAt < item.receivedAt ∧
    item.receivedAt ≤ state.decisionAt + seconds (horizon + forwardTolerance horizon) ∧
    ∃ price, item.priceUsd = some price ∧ Beyond (decMul F base multiplier) upward price

/-- The labels of an entry price agree with each other and with the observations. -/
structure CrossingsAgree (result : LabelResult F) : Prop where
  crossings : ∀ horizon ∈ contract.horizonsSeconds, ∀ upward, ∀ entry ∈ multipliers upward,
    (result.values.get? ("crossed_" ++ entry.1 ++ "_" ++ horizonName horizon) =
      some (.text "TRUE") ↔ ObservedBeyond F history state base horizon entry.2 upward)
  favorable : ∀ horizon ∈ contract.horizonsSeconds, ∀ excursion : F,
    result.values.get? ("maximum_favorable_excursion_" ++ horizonName horizon) =
      some (.float excursion) → ∀ entry ∈ multipliers true, (Reaches entry.2 true excursion ↔
        result.values.get? ("crossed_" ++ entry.1 ++ "_" ++ horizonName horizon) =
          some (.text "TRUE"))
  adverse : ∀ horizon ∈ contract.horizonsSeconds, ∀ excursion : F,
    result.values.get? ("maximum_adverse_excursion_" ++ horizonName horizon) =
      some (.float excursion) → ∀ entry ∈ multipliers false, (Reaches entry.2 false excursion ↔
        result.values.get? ("crossed_" ++ entry.1 ++ "_" ++ horizonName horizon) =
          some (.text "TRUE"))
  timings : ∀ longest, contract.horizonsSeconds.max? = some longest →
    ∀ timed ∈ timedCrossings,
      (result.values.get? ("crossed_" ++ timed.1 ++ "_" ++ horizonName longest) =
        some (.text "TRUE") ↔ ∃ elapsed, result.values.get? timed.2.1 = some (.float elapsed))

/-- The known prices of a horizon. -/
def pricesAt (horizon : Int) : List ℚ := (pathAt history state horizon).filterMap (·.priceUsd)

/-- No price of a horizon is zero unless another one is as low as the lowest threshold, and on
complete paths the extreme prices lie on the side of the thresholds where their floats do. -/
structure ThresholdsDecided : Prop where
  zero : ∀ horizon ∈ contract.horizonsSeconds, 0 ∈ pricesAt history state horizon →
    ∀ entry ∈ multipliers false, ∃ price ∈ pricesAt history state horizon,
      price ≠ 0 ∧ price ≤ decMul F base entry.2
  greatest : ∀ horizon ∈ contract.horizonsSeconds, completeAt F history state horizon = true →
    ∀ price ∈ (pricesAt history state horizon).max?, ∀ entry ∈ multipliers true,
      (Reaches entry.2 true (floatReturn F base price) ↔ decMul F base entry.2 ≤ price)
  least : ∀ horizon ∈ contract.horizonsSeconds, completeAt F history state horizon = true →
    ∀ price ∈ (pricesAt history state horizon).min?, ∀ entry ∈ multipliers false,
      (Reaches entry.2 false (floatReturn F base price) ↔ price ≤ decMul F base entry.2)

end Agreement

section Proofs
variable {F : Type} [Numerics F] {H : Hashing} {history : TokenHistory} {state : TokenStateAsOf}
  {contract : LabelSetContract} {base : ℚ} {current : ObservationFact}

theorem observedBeyond_iff {horizon : Int} {multiplier : ℚ} {upward : Bool} :
    ObservedBeyond F history state base horizon multiplier upward ↔
      ∃ price ∈ pricesAt history state horizon, Beyond (decMul F base multiplier) upward price := by
  unfold ObservedBeyond pricesAt
  constructor
  · intro h
    obtain ⟨item, hitem, hpair, hafter, hwithin, price, hprice, hbeyond⟩ := h
    exact ⟨price, List.mem_filterMap.mpr
      ⟨item, mem_pathAt.mpr ⟨hitem, hpair, hafter, hwithin⟩, hprice⟩, hbeyond⟩
  · intro h
    obtain ⟨price, hmem, hbeyond⟩ := h
    obtain ⟨item, hitem, hprice⟩ := List.mem_filterMap.mp hmem
    obtain ⟨hobserved, hpair, hafter, hwithin⟩ := mem_pathAt.mp hitem
    exact ⟨item, hobserved, hpair, hafter, hwithin, price, hprice, hbeyond⟩

/-- A crossing label skips prices of zero. -/
theorem crossed_iff (hbase : 0 < base) {path : List ObservationFact} {multiplier : ℚ}
    {upward : Bool} :
    crossed (F := F) path (some base) multiplier upward = true ↔
      ∃ price ∈ path.filterMap (·.priceUsd), price ≠ 0 ∧
        Beyond (decMul F base multiplier) upward price := by
  have htruthy : truthy (some base) = some base := by simp [truthy, hbase.ne']
  have hitem : ∀ item : ObservationFact, ((truthy item.priceUsd).any fun price =>
      if upward then decide (price ≥ decMul F base multiplier)
      else decide (price ≤ decMul F base multiplier)) = true ↔
      ∃ price, item.priceUsd = some price ∧ price ≠ 0 ∧
        Beyond (decMul F base multiplier) upward price := by
    intro item
    cases hprice : item.priceUsd with
    | none => simp [truthy]
    | some price =>
      by_cases hzero : price = 0
      · simp [truthy, hzero]
      · cases upward with
        | true => simp [truthy, hzero, Beyond]
        | false => simp [truthy, hzero, Beyond]
  unfold crossed
  rw [htruthy, Option.any_some, List.any_eq_true]
  constructor
  · intro h
    obtain ⟨item, hmem, hcross⟩ := h
    obtain ⟨price, hprice, hbeyond⟩ := (hitem item).mp hcross
    exact ⟨price, List.mem_filterMap.mpr ⟨item, hmem, hprice⟩, hbeyond⟩
  · intro h
    obtain ⟨price, hmem, hbeyond⟩ := h
    obtain ⟨item, hin, hprice⟩ := List.mem_filterMap.mp hmem
    exact ⟨item, hin, (hitem item).mpr ⟨price, hprice, hbeyond⟩⟩

/-- A crossing time takes them. -/
theorem firstCross_isSome_iff (hbase : 0 < base) {path : List ObservationFact} {multiplier : ℚ}
    {upward : Bool} :
    (firstCross (decMul F) path (some base) multiplier upward).isSome = true ↔
      ∃ price ∈ path.filterMap (·.priceUsd), Beyond (decMul F base multiplier) upward price := by
  have hitem : ∀ item : ObservationFact, (item.priceUsd.any fun price =>
      if upward then decide (price ≥ decMul F base multiplier)
      else decide (price ≤ decMul F base multiplier)) = true ↔
      ∃ price, item.priceUsd = some price ∧ Beyond (decMul F base multiplier) upward price := by
    intro item
    cases hprice : item.priceUsd with
    | none => simp
    | some price =>
      cases upward with
      | true => simp [Beyond]
      | false => simp [Beyond]
  unfold firstCross
  dsimp only
  rw [if_neg (not_le.mpr hbase), List.find?_isSome]
  constructor
  · intro h
    obtain ⟨item, hmem, hcross⟩ := h
    obtain ⟨price, hprice, hbeyond⟩ := (hitem item).mp hcross
    exact ⟨price, List.mem_filterMap.mpr ⟨item, hmem, hprice⟩, hbeyond⟩
  · intro h
    obtain ⟨price, hmem, hbeyond⟩ := h
    obtain ⟨item, hin, hprice⟩ := List.mem_filterMap.mp hmem
    exact ⟨item, hin, (hitem item).mpr ⟨price, hprice, hbeyond⟩⟩

theorem multipliers_pos {upward : Bool} {entry : String × ℚ} (h : entry ∈ multipliers upward) :
    0 < entry.2 := by
  have hall : ∀ upward, ∀ entry ∈ multipliers upward, (0 : ℚ) < entry.2 := by
    decide +kernel
  exact hall upward entry h

section Result
variable {result : LabelResult F}
  (hresult : buildOutcomeLabels H history state contract = .ok result)
  (hcurrent : state.currentObservation = some current) (hprice : current.priceUsd = some base)
  (hbase : 0 < base)
include hresult hcurrent hprice

/-- A crossing label of the result is true when a price other than zero is beyond its threshold. -/
theorem crossed_column {horizon : Int} (hhorizon : horizon ∈ contract.horizonsSeconds)
    (hbase : 0 < base) {upward : Bool} {entry : String × ℚ} (hentry : entry ∈ multipliers upward) :
    result.values.get? ("crossed_" ++ entry.1 ++ "_" ++ horizonName horizon) =
        some (.text "TRUE") ↔
      ∃ price ∈ pricesAt history state horizon, price ≠ 0 ∧
        Beyond (decMul F base entry.2) upward price := by
  obtain ⟨hcolumns, _⟩ := buildOutcomeLabels_eq_ok hresult
  obtain ⟨_, hcolumn⟩ := hcolumns horizon hhorizon
  have hlasting : ("crossed_" ++ entry.1 ++ "_", crossed (F := F) (pathAt history state horizon)
      (state.currentObservation.bind (·.priceUsd)) entry.2 upward) ∈
      lastingColumns F state.currentObservation (pathAt history state horizon) := by
    simp only [lastingColumns, List.mem_append, List.mem_map]
    cases upward with
    | true => exact .inl (.inl ⟨entry, hentry, rfl⟩)
    | false => exact .inl (.inr ⟨entry, hentry, rfl⟩)
  have hbound : state.currentObservation.bind (·.priceUsd) = some base := by
    rw [hcurrent]
    exact hprice
  rw [hbound] at hlasting
  rw [hcolumn _ (mem_pathColumns_of_lasting hlasting _ _), Option.some.injEq, Value.text.injEq,
    tri_eq_true, crossed_iff hbase]
  rfl

theorem timing_column {longest : Int} (hlongest : contract.horizonsSeconds.max? = some longest)
    (hbase : 0 < base) {timed : String × String × ℚ × Bool} (htimed : timed ∈ timedCrossings) :
    (∃ elapsed, result.values.get? timed.2.1 = some (.float elapsed)) ↔
      ∃ price ∈ pricesAt history state longest,
        Beyond (decMul F base timed.2.2.1) timed.2.2.2 price := by
  obtain ⟨_, other, values, hother, hvalues⟩ := buildOutcomeLabels_eq_ok hresult
  cases hlongest.symm.trans hother
  have hbound : state.currentObservation.bind (·.priceUsd) = some base := by
    rw [hcurrent]
    exact hprice
  have hcolumn : result.values.get? timed.2.1 = some (.optFloat (elapsed
      ((firstCross (decMul F) (pathAt history state longest) (some base) timed.2.2.1
        timed.2.2.2).map fun _ => state.decisionAt)
      ((firstCross (decMul F) (pathAt history state longest) (some base) timed.2.2.1
        timed.2.2.2).map (·.receivedAt)))) := by
    rw [hvalues, orderedAndTimingLabels, hbound]
    apply Dict.get?_setAll_of_mem
    · simp only [List.map_cons, List.map_nil]
      decide
    · simp only [timedCrossings, List.mem_cons, List.not_mem_nil, or_false] at htimed
      rcases htimed with rfl | rfl | rfl | rfl | rfl <;> simp
  rw [hcolumn]
  unfold pricesAt
  rw [← firstCross_isSome_iff hbase]
  cases firstCross (decMul F) (pathAt history state longest) (some base) timed.2.2.1
      timed.2.2.2 with
  | none => simp [elapsed, Value.optFloat]
  | some item => simp [elapsed, Value.optFloat]

/-- An excursion is known on a complete path with prices. -/
theorem excursion_column {horizon : Int} (hhorizon : horizon ∈ contract.horizonsSeconds)
    (hbase : 0 < base) (excursion : F) :
    (result.values.get? ("maximum_favorable_excursion_" ++ horizonName horizon) =
        some (.float excursion) ↔ completeAt F history state horizon = true ∧
        floatMax ((pricesAt history state horizon).map (floatReturn F base)) = some excursion) ∧
      (result.values.get? ("maximum_adverse_excursion_" ++ horizonName horizon) =
        some (.float excursion) ↔ completeAt F history state horizon = true ∧
        floatMin ((pricesAt history state horizon).map (floatReturn F base)) = some excursion) := by
  obtain ⟨hcolumns, _⟩ := buildOutcomeLabels_eq_ok hresult
  obtain ⟨_, hcolumn⟩ := hcolumns horizon hhorizon
  have hreturns : (returnDecimals F state.currentObservation (pathAt history state horizon)).map
      ofDecimal = (pricesAt history state horizon).map (floatReturn F base) := by
    unfold returnDecimals pricesAt
    rw [hcurrent, Option.bind_some, hprice]
    simp only [gt_iff_lt, hbase, if_true, List.map_filterMap, Option.map_map]
    rfl
  obtain ⟨hmax, hmin, _⟩ := mem_pathColumns_extrema (F := F) (horizonName horizon)
    state.currentObservation (pathAt history state horizon) (completeAt F history state horizon)
  rw [hreturns] at hmax hmin
  rw [hcolumn _ hmax, hcolumn _ hmin, Option.some.injEq, Option.some.injEq, whenComplete_eq_float,
    whenComplete_eq_float]
  exact ⟨Iff.rfl, Iff.rfl⟩

end Result

section Extremes
variable (laws : OrderedFloats F) (decimals : RoundedDecimals F) (hbase : 0 < base)
include laws decimals hbase

theorem floatReturn_mono {a b : ℚ} (h : a ≤ b) :
    le (floatReturn F base a) (floatReturn F base b) = true :=
  laws.mono (decimals.sub_mono (decimals.div_mono hbase h))

/-- The greatest float return is that of the greatest price. -/
theorem reaches_max {prices : List ℚ} {excursion : F}
    (h : floatMax (prices.map (floatReturn F base)) = some excursion) :
    ∃ price, prices.max? = some price ∧ ∀ multiplier,
      (Reaches multiplier true excursion ↔ Reaches multiplier true (floatReturn F base price)) := by
  have hmap : prices.map (floatReturn F base) =
      (prices.map fun price => decSub F (decDiv F price base) 1).map ofDecimal := by
    rw [List.map_map]
    rfl
  rw [hmap] at h
  obtain ⟨value, hvalue, hexcursion, hall⟩ := floatMax_spec laws h
  obtain ⟨own, hown, rfl⟩ := List.mem_map.mp hvalue
  cases hmax : prices.max? with
  | none => exact absurd hown (by simp [List.max?_eq_none_iff.mp hmax])
  | some price =>
    obtain ⟨hmem, hgreatest⟩ := List.max?_eq_some_iff.mp hmax
    have hle : le excursion (floatReturn F base price) = true := by
      rw [hexcursion]
      exact floatReturn_mono laws decimals hbase (hgreatest own hown)
    have hge : le (floatReturn F base price) excursion = true :=
      hall _ (List.mem_map_of_mem (f := fun price => decSub F (decDiv F price base) 1) hmem)
    refine ⟨price, rfl, fun multiplier => ?_⟩
    simp only [Reaches, if_true]
    rw [hexcursion] at hle hge ⊢
    exact ⟨fun h => laws.trans h hle, fun h => laws.trans h hge⟩

theorem reaches_min {prices : List ℚ} {excursion : F}
    (h : floatMin (prices.map (floatReturn F base)) = some excursion) :
    ∃ price, prices.min? = some price ∧ ∀ multiplier,
      (Reaches multiplier false excursion ↔
        Reaches multiplier false (floatReturn F base price)) := by
  have hmap : prices.map (floatReturn F base) =
      (prices.map fun price => decSub F (decDiv F price base) 1).map ofDecimal := by
    rw [List.map_map]
    rfl
  rw [hmap] at h
  obtain ⟨value, hvalue, hexcursion, hall⟩ := floatMin_spec laws h
  obtain ⟨own, hown, rfl⟩ := List.mem_map.mp hvalue
  cases hmin : prices.min? with
  | none => exact absurd hown (by simp [List.min?_eq_none_iff.mp hmin])
  | some price =>
    obtain ⟨hmem, hleast⟩ := List.min?_eq_some_iff.mp hmin
    have hge : le (floatReturn F base price) excursion = true := by
      rw [hexcursion]
      exact floatReturn_mono laws decimals hbase (hleast own hown)
    have hle : le excursion (floatReturn F base price) = true :=
      hall _ (List.mem_map_of_mem (f := fun price => decSub F (decDiv F price base) 1) hmem)
    refine ⟨price, rfl, fun multiplier => ?_⟩
    simp only [Reaches, Bool.false_eq_true, if_false]
    rw [hexcursion] at hle hge ⊢
    exact ⟨fun h => laws.trans hge h, fun h => laws.trans hle h⟩

end Extremes

/-- Excursions are known as soon as there are prices. -/
theorem floatMax_map_isSome {prices : List ℚ} (h : prices ≠ []) (f : ℚ → F) :
    ∃ value, floatMax (prices.map f) = some value := by
  cases hmax : floatMax (prices.map f) with
  | some value => exact ⟨value, rfl⟩
  | none => exact absurd (List.map_eq_nil_iff.mp (floatMax_eq_none.mp hmax)) h

theorem floatMin_map_isSome {prices : List ℚ} (h : prices ≠ []) (f : ℚ → F) :
    ∃ value, floatMin (prices.map f) = some value := by
  cases hmin : floatMin (prices.map f) with
  | some value => exact ⟨value, rfl⟩
  | none => exact absurd (List.map_eq_nil_iff.mp (floatMin_eq_none.mp hmin)) h

/-- Beyond an upward threshold lies the greatest price, if any does. -/
theorem exists_beyond_max {prices : List ℚ} {price threshold : ℚ} (h : prices.max? = some price) :
    (∃ p ∈ prices, Beyond threshold true p) ↔ threshold ≤ price := by
  obtain ⟨hmem, hgreatest⟩ := List.max?_eq_some_iff.mp h
  simp only [Beyond, if_true]
  exact ⟨fun ⟨p, hp, hle⟩ => hle.trans (hgreatest p hp), fun hle => ⟨price, hmem, hle⟩⟩

theorem exists_beyond_min {prices : List ℚ} {price threshold : ℚ} (h : prices.min? = some price) :
    (∃ p ∈ prices, Beyond threshold false p) ↔ price ≤ threshold := by
  obtain ⟨hmem, hleast⟩ := List.min?_eq_some_iff.mp h
  simp only [Beyond, Bool.false_eq_true, if_false]
  exact ⟨fun ⟨p, hp, hle⟩ => (hleast p hp).trans hle, fun hle => ⟨price, hmem, hle⟩⟩

/-- Crossing labels see every crossing as long as a price of zero is not the only one. -/
theorem crossings_iff_zero (decimals : RoundedDecimals F) {result : LabelResult F}
    (hresult : buildOutcomeLabels H history state contract = .ok result)
    (hcurrent : state.currentObservation = some current) (hprice : current.priceUsd = some base)
    (hbase : 0 < base) :
    (∀ horizon ∈ contract.horizonsSeconds, ∀ upward, ∀ entry ∈ multipliers upward,
      (result.values.get? ("crossed_" ++ entry.1 ++ "_" ++ horizonName horizon) =
        some (.text "TRUE") ↔ ∃ price ∈ pricesAt history state horizon,
          Beyond (decMul F base entry.2) upward price)) ↔
      ∀ horizon ∈ contract.horizonsSeconds, 0 ∈ pricesAt history state horizon →
        ∀ entry ∈ multipliers false, ∃ price ∈ pricesAt history state horizon,
          price ≠ 0 ∧ price ≤ decMul F base entry.2 := by
  have hcrossed := @crossed_column F _ H history state contract base current result hresult hcurrent
    hprice
  constructor
  · intro h horizon hhorizon hzero entry hentry
    have hpos := decimals.mul_pos hbase (multipliers_pos hentry)
    have hbeyond : ∃ price ∈ pricesAt history state horizon,
        Beyond (decMul F base entry.2) false price := ⟨0, hzero, hpos.le⟩
    exact (hcrossed hhorizon hbase hentry).mp ((h horizon hhorizon false entry hentry).mpr hbeyond)
  · intro h horizon hhorizon upward entry hentry
    rw [hcrossed hhorizon hbase hentry]
    have hpos := decimals.mul_pos hbase (multipliers_pos hentry)
    constructor
    · intro hcross
      obtain ⟨price, hmem, _, hbeyond⟩ := hcross
      exact ⟨price, hmem, hbeyond⟩
    · intro hcross
      obtain ⟨price, hmem, hbeyond⟩ := hcross
      by_cases hzero : price = 0
      · rw [hzero] at hmem hbeyond
        cases upward with
        | true => exact absurd hbeyond (not_le.mpr hpos)
        | false => exact h horizon hhorizon hmem entry hentry
      · exact ⟨price, hmem, hzero, hbeyond⟩

/-- The labels agree exactly when the thresholds are decided. -/
theorem crossings_agree_iff (laws : OrderedFloats F) (decimals : RoundedDecimals F) (H : Hashing)
    (history : TokenHistory) (state : TokenStateAsOf) (contract : LabelSetContract)
    (current : ObservationFact) (base : ℚ) (result : LabelResult F)
    (hcurrent : state.currentObservation = some current) (hprice : current.priceUsd = some base)
    (hbase : 0 < base) (hresult : buildOutcomeLabels H history state contract = .ok result) :
    CrossingsAgree F history state contract base result ↔
      ThresholdsDecided F history state contract base := by
  have hsees := crossings_iff_zero decimals hresult hcurrent hprice hbase
  have hexcursion := @excursion_column F _ H history state contract base current result hresult
    hcurrent hprice
  have htiming := @timing_column F _ H history state contract base current result hresult hcurrent
    hprice
  constructor
  · intro h
    have hsame := h.crossings
    simp only [observedBeyond_iff] at hsame
    constructor
    · exact hsees.mp hsame
    · intro horizon hhorizon hcomplete price hmax entry hentry
      have hne : pricesAt history state horizon ≠ [] := by
        intro hnil
        rw [hnil] at hmax
        cases hmax
      obtain ⟨excursion, hvalue⟩ := floatMax_map_isSome hne (floatReturn F base)
      obtain ⟨greatest, hgreatest, hreach⟩ := reaches_max laws decimals hbase hvalue
      cases hmax.symm.trans hgreatest
      rw [← hreach, h.favorable horizon hhorizon excursion
        ((hexcursion hhorizon hbase excursion).1.mpr ⟨hcomplete, hvalue⟩) entry hentry,
        hsame horizon hhorizon true entry hentry, exists_beyond_max hmax]
    · intro horizon hhorizon hcomplete price hmin entry hentry
      have hne : pricesAt history state horizon ≠ [] := by
        intro hnil
        rw [hnil] at hmin
        cases hmin
      obtain ⟨excursion, hvalue⟩ := floatMin_map_isSome hne (floatReturn F base)
      obtain ⟨least, hleast, hreach⟩ := reaches_min laws decimals hbase hvalue
      cases hmin.symm.trans hleast
      rw [← hreach, h.adverse horizon hhorizon excursion
        ((hexcursion hhorizon hbase excursion).2.mpr ⟨hcomplete, hvalue⟩) entry hentry,
        hsame horizon hhorizon false entry hentry, exists_beyond_min hmin]
  · intro h
    have hsame := hsees.mpr h.zero
    constructor
    · simp only [observedBeyond_iff]
      exact hsame
    · intro horizon hhorizon excursion hcolumn entry hentry
      obtain ⟨hcomplete, hvalue⟩ := (hexcursion hhorizon hbase excursion).1.mp hcolumn
      obtain ⟨greatest, hgreatest, hreach⟩ := reaches_max laws decimals hbase hvalue
      rw [hreach, h.greatest horizon hhorizon hcomplete greatest hgreatest entry hentry,
        hsame horizon hhorizon true entry hentry, exists_beyond_max hgreatest]
    · intro horizon hhorizon excursion hcolumn entry hentry
      obtain ⟨hcomplete, hvalue⟩ := (hexcursion hhorizon hbase excursion).2.mp hcolumn
      obtain ⟨least, hleast, hreach⟩ := reaches_min laws decimals hbase hvalue
      rw [hreach, h.least horizon hhorizon hcomplete least hleast entry hentry,
        hsame horizon hhorizon false entry hentry, exists_beyond_min hleast]
    · intro longest hlongest timed htimed
      obtain ⟨hmem, _⟩ := List.max?_eq_some_iff.mp hlongest
      have hentry : (timed.1, timed.2.2.1) ∈ multipliers timed.2.2.2 := by
        have hall : ∀ timed ∈ timedCrossings,
            (timed.1, timed.2.2.1) ∈ multipliers timed.2.2.2 := by decide +kernel
        exact hall timed htimed
      rw [hsame longest hmem timed.2.2.2 _ hentry, htiming hlongest hbase htimed]

end Proofs

instance decidableReaches {F : Type} [Numerics F] (multiplier : ℚ) (upward : Bool)
    (excursion : F) : Decidable (Reaches multiplier upward excursion) :=
  inferInstanceAs (Decidable (if upward then _ = true else _ = true))

/-- On the rising path, whose lowest price is that of the entry, all labels agree. -/
theorem crossings_agree_rising :
    let state := stateAtZero (pairAt "entry" 0 (some 1) (some 100))
    ∃ result, @buildOutcomeLabels ℚ exactNumerics plainHashing risingHistory state
        { horizonsSeconds := [30, 60] } = .ok result ∧
      @CrossingsAgree ℚ exactNumerics risingHistory state { horizonsSeconds := [30, 60] } 1
        result := by
  intro state
  let contract : LabelSetContract := { horizonsSeconds := [30, 60] }
  obtain ⟨result, hresult⟩ := @buildOutcomeLabels_total ℚ exactNumerics plainHashing risingHistory
    state contract (by decide) (by decide)
  refine ⟨result, hresult, (@crossings_agree_iff ℚ exactNumerics orderedFloats_exact
    roundedDecimals_exact plainHashing risingHistory state contract _ 1 result rfl rfl
    (by decide) hresult).mpr (@ThresholdsDecided.mk ℚ exactNumerics _ _ _ _ ?_ ?_ ?_)⟩
  · decide +kernel
  · decide +kernel
  · decide +kernel

/-- A token that falls from 1 to 0 within 35 s. -/
def worthlessHistory : TokenHistory :=
  observedHistory [pairAt "entry" 0 (some 1) (some 100), pairAt "last" 35 (some 0) (some 50)]

/-- The fall to zero has a crossing time and an excursion of -1, and no crossing label is true. -/
theorem fall_to_zero_is_no_crossing :
    ¬ ∀ (F : Type) (_ : Numerics F), OrderedFloats F → RoundedDecimals F →
      ∀ (H : Hashing) (history : TokenHistory) (state : TokenStateAsOf)
        (contract : LabelSetContract) (current : ObservationFact) (base : ℚ)
        (result : LabelResult F), state.currentObservation = some current →
      current.priceUsd = some base → 0 < base →
      buildOutcomeLabels H history state contract = .ok result →
      CrossingsAgree F history state contract base result := by
  intro h
  let state := stateAtZero (pairAt "entry" 0 (some 1) (some 100))
  obtain ⟨result, hresult⟩ := @buildOutcomeLabels_total ℚ exactNumerics plainHashing
    worthlessHistory state {} (by decide) (by decide)
  have hagree := h ℚ exactNumerics orderedFloats_exact roundedDecimals_exact plainHashing
    worthlessHistory state {} _ 1 result rfl rfl (by decide) hresult
  obtain ⟨hsame, _, _, _⟩ := hagree
  simp only [@observedBeyond_iff ℚ exactNumerics] at hsame
  have hzero := (@crossings_iff_zero ℚ exactNumerics plainHashing worthlessHistory state {} 1 _
    roundedDecimals_exact result hresult rfl rfl (by decide)).mp hsame
  have hnone : ¬ ∃ price ∈ pricesAt worthlessHistory state 30, price ≠ 0 ∧ price ≤ 1 * (1 / 2) := by
    decide +kernel
  exact hnone (hzero 30 (by decide) (by decide +kernel) ("minus_50pct", 1 / 2) (by decide +kernel))

end PumpResearch.Research
