import PumpResearch.Research.FloatOrder
import PumpResearch.Research.LabelColumns
import PumpResearch.Research.SplitBoundary

/-! A longer horizon sees what a shorter one sees: its path begins with the shorter path. -/
namespace PumpResearch.Research
open KeyedOrder OrderedDict Numerics Results

theorem tri_eq_true {value complete : Bool} : tri value complete = "TRUE" ↔ value = true := by
  cases value with
  | true => simp [tri]
  | false => cases complete <;> simp [tri]

section Paths
variable {F : Type} [Numerics F] {path path' : List ObservationFact}

/-! ### Longer paths -/

theorem crossed_mono (hsub : path ⊆ path') {base : Option ℚ} {multiplier : ℚ} {upward : Bool}
    (h : crossed (F := F) path base multiplier upward = true) :
    crossed (F := F) path' base multiplier upward = true := by
  unfold crossed at *
  rw [Option.any_eq_true] at *
  obtain ⟨entry, hentry, hany⟩ := h
  obtain ⟨item, hitem, hcross⟩ := List.any_eq_true.mp hany
  exact ⟨entry, hentry, List.any_eq_true.mpr ⟨item, hsub hitem, hcross⟩⟩

theorem liquidityCollapsed_mono (hsub : path ⊆ path') {current : Option ObservationFact}
    (h : liquidityCollapsed F current path = true) :
    liquidityCollapsed F current path' = true := by
  unfold liquidityCollapsed at *
  rw [Option.any_eq_true] at *
  obtain ⟨entry, hentry, hany⟩ := h
  obtain ⟨value, hvalue, hle⟩ := List.any_eq_true.mp hany
  exact ⟨entry, hentry, List.any_eq_true.mpr
    ⟨value, List.filterMap_subset _ hsub hvalue, hle⟩⟩

/-- The Decimals behind the discontinuities. -/
def gapDecimals (F : Type) [Numerics F] (path : List ObservationFact) : List ℚ :=
  (path.zip path.tail).filterMap fun step =>
    match truthy step.1.priceUsd, truthy step.2.priceUsd with
    | some left, some right => if left > 0 then some |decSub F (decDiv F right left) 1| else none
    | _, _ => none

theorem discontinuities_eq (laws : OrderedFloats F) (path : List ObservationFact) :
    (discontinuities path : List F) = (gapDecimals F path).map ofDecimal := by
  unfold discontinuities gapDecimals
  rw [List.map_filterMap]
  apply List.filterMap_congr
  intro step _
  cases truthy step.1.priceUsd with
  | none => rfl
  | some left =>
    cases truthy step.2.priceUsd with
    | none => rfl
    | some right =>
      by_cases hpos : left > 0
      · simp [hpos, laws.fabs]
      · simp [hpos]

theorem zip_tail_subset {α : Type} {xs ys : List α} (h : xs <+: ys) :
    xs.zip xs.tail ⊆ ys.zip ys.tail := by
  obtain ⟨after, hys⟩ := h
  rw [← hys]
  clear hys
  induction xs with
  | nil => exact List.nil_subset _
  | cons x rest ih =>
    cases rest with
    | nil => exact List.nil_subset _
    | cons y rest => exact List.cons_subset_cons _ ih

/-- A gap that reaches the bound is still there on a longer path. -/
theorem extremeGap_mono (laws : OrderedFloats F) (hshort : path <+: path')
    (h : extremeGap F path = true) : extremeGap F path' = true := by
  unfold extremeGap at *
  rw [Option.any_eq_true] at *
  rw [discontinuities_eq laws] at *
  obtain ⟨value, hvalue, hle⟩ := h
  obtain ⟨gap, hgap, hvalueEq, _⟩ := floatMax_spec laws hvalue
  have hgap' : gap ∈ gapDecimals F path' :=
    List.filterMap_subset _ (zip_tail_subset hshort) hgap
  cases hmax : floatMax ((gapDecimals F path').map (ofDecimal : ℚ → F)) with
  | none =>
    rw [floatMax_eq_none, List.map_eq_nil_iff] at hmax
    rw [hmax] at hgap'
    cases hgap'
  | some value' =>
    obtain ⟨gap', _, hvalueEq', hall⟩ := floatMax_spec laws hmax
    refine ⟨value', rfl, ?_⟩
    have hstep := hall gap hgap'
    rw [hvalueEq] at hle
    rw [hvalueEq'] at hstep ⊢
    exact laws.trans hle hstep

/-- The Decimals behind the returns. -/
def returnDecimals (F : Type) [Numerics F] (current : Option ObservationFact)
    (path : List ObservationFact) : List ℚ :=
  match current.bind (·.priceUsd) with
  | some base =>
    if base > 0 then path.filterMap fun item =>
      item.priceUsd.map fun price => decSub F (decDiv F price base) 1
    else []
  | none => []

theorem pathReturns_eq (current : Option ObservationFact) (path : List ObservationFact) :
    (pathReturns current path : List F) = (returnDecimals F current path).map ofDecimal := by
  unfold pathReturns returnDecimals
  cases current.bind (·.priceUsd) with
  | none => rfl
  | some base =>
    by_cases hpos : base > 0
    · simp only [hpos, if_true, List.map_filterMap, Option.map_map]
      rfl
    · simp [hpos]

theorem returnDecimals_mono (hsub : path ⊆ path') (current : Option ObservationFact) :
    returnDecimals F current path ⊆ returnDecimals F current path' := by
  unfold returnDecimals
  cases current.bind (·.priceUsd) with
  | none => exact List.Subset.refl _
  | some base =>
    by_cases hpos : base > 0
    · simp only [hpos, if_true]
      exact List.filterMap_subset _ hsub
    · simp [hpos]

theorem floatMax_mono (laws : OrderedFloats F) {xs ys : List ℚ} (hsub : xs ⊆ ys) {value : F}
    (h : floatMax (xs.map ofDecimal) = some value) :
    ∃ value', floatMax (ys.map ofDecimal) = some value' ∧ le value value' = true := by
  obtain ⟨m, hm, hvalue, _⟩ := floatMax_spec laws h
  cases hmax : floatMax (ys.map (ofDecimal : ℚ → F)) with
  | none =>
    rw [floatMax_eq_none, List.map_eq_nil_iff] at hmax
    exact absurd (hsub hm) (by simp [hmax])
  | some value' =>
    obtain ⟨_, _, _, hall⟩ := floatMax_spec laws hmax
    exact ⟨value', rfl, hvalue ▸ hall m (hsub hm)⟩

theorem floatMin_mono (laws : OrderedFloats F) {xs ys : List ℚ} (hsub : xs ⊆ ys) {value : F}
    (h : floatMin (xs.map ofDecimal) = some value) :
    ∃ value', floatMin (ys.map ofDecimal) = some value' ∧ le value' value = true := by
  obtain ⟨m, hm, hvalue, _⟩ := floatMin_spec laws h
  cases hmin : floatMin (ys.map (ofDecimal : ℚ → F)) with
  | none =>
    rw [floatMin_eq_none, List.map_eq_nil_iff] at hmin
    exact absurd (hsub hm) (by simp [hmin])
  | some value' =>
    obtain ⟨_, _, _, hall⟩ := floatMin_spec laws hmin
    exact ⟨value', rfl, hvalue ▸ hall m (hsub hm)⟩

end Paths

/-! ### Longer horizons -/

section Horizons
variable {F : Type} [Numerics F] {H : Hashing} {history : TokenHistory} {state : TokenStateAsOf}
  {contract : LabelSetContract}

/-- The labels that stay true at longer horizons. -/
def lastingLabels : List String :=
  (upsideMultipliers ++ downsideMultipliers).map (fun entry => "crossed_" ++ entry.1 ++ "_") ++
    ["major_liquidity_collapse_", "extreme_gap_or_rug_proxy_"]

/-- Whether each of them holds for a path. -/
def lastingColumns (F : Type) [Numerics F] (current : Option ObservationFact)
    (path : List ObservationFact) : List (String × Bool) :=
  upsideMultipliers.map (fun entry => ("crossed_" ++ entry.1 ++ "_",
    crossed (F := F) path (current.bind (·.priceUsd)) entry.2 true)) ++
  downsideMultipliers.map (fun entry => ("crossed_" ++ entry.1 ++ "_",
    crossed (F := F) path (current.bind (·.priceUsd)) entry.2 false)) ++
  [("major_liquidity_collapse_", liquidityCollapsed F current path),
    ("extreme_gap_or_rug_proxy_", extremeGap F path)]

theorem map_fst_lastingColumns (current : Option ObservationFact) (path : List ObservationFact) :
    (lastingColumns F current path).map Prod.fst = lastingLabels := by
  simp only [lastingColumns, lastingLabels, List.map_append, List.map_map, List.map_cons,
    List.map_nil]
  rfl

theorem mem_pathColumns_of_lasting {current : Option ObservationFact}
    {path : List ObservationFact} {column : String × Bool}
    (h : column ∈ lastingColumns F current path) (name : String) (complete : Bool) :
    (column.1 ++ name, Value.text (tri column.2 complete)) ∈
      (pathColumns name current path complete : List (String × Value F)) := by
  simp only [lastingColumns, List.mem_append, List.mem_map, List.mem_cons, List.not_mem_nil,
    or_false] at h
  simp only [pathColumns, List.mem_append, List.mem_map, List.mem_cons, List.not_mem_nil, or_false]
  cases h with
  | inl h =>
    cases h with
    | inl h =>
      obtain ⟨entry, hentry, hcolumn⟩ := h
      rw [← hcolumn]
      exact .inl (.inl (.inr ⟨entry, hentry, rfl⟩))
    | inr h =>
      obtain ⟨entry, hentry, hcolumn⟩ := h
      rw [← hcolumn]
      exact .inl (.inr ⟨entry, hentry, rfl⟩)
  | inr h =>
    cases h with
    | inl hcolumn =>
      rw [hcolumn]
      exact .inr (.inr (.inl rfl))
    | inr hcolumn =>
      rw [hcolumn]
      exact .inr (.inr (.inr (.inr (.inr rfl))))

/-- What holds for a path holds for every path that it begins. -/
theorem lastingColumns_mono (laws : OrderedFloats F) {path path' : List ObservationFact}
    (hshort : path <+: path') (current : Option ObservationFact) {front : String}
    (h : (front, true) ∈ lastingColumns F current path) :
    (front, true) ∈ lastingColumns F current path' := by
  simp only [lastingColumns, List.mem_append, List.mem_map, List.mem_cons, List.not_mem_nil,
    or_false, Prod.mk.injEq] at h ⊢
  cases h with
  | inl h =>
    cases h with
    | inl h =>
      obtain ⟨entry, hentry, hfront, hcross⟩ := h
      exact .inl (.inl ⟨entry, hentry, hfront, crossed_mono hshort.subset hcross⟩)
    | inr h =>
      obtain ⟨entry, hentry, hfront, hcross⟩ := h
      exact .inl (.inr ⟨entry, hentry, hfront, crossed_mono hshort.subset hcross⟩)
  | inr h =>
    cases h with
    | inl h => exact .inr (.inl ⟨h.1, (liquidityCollapsed_mono hshort.subset h.2.symm).symm⟩)
    | inr h => exact .inr (.inr ⟨h.1, (extremeGap_mono laws hshort h.2.symm).symm⟩)

omit [Numerics F] in
theorem whenComplete_eq_float {complete : Bool} {value : Option F} {e : F} :
    whenComplete complete value = .float e ↔ complete = true ∧ value = some e := by
  cases complete with
  | false => simp [whenComplete]
  | true =>
    cases value with
    | none => simp [whenComplete, Value.optFloat]
    | some v => simp [whenComplete, Value.optFloat]

/-- Extrema are known on complete paths only. -/
theorem mem_pathColumns_extrema (name : String) (current : Option ObservationFact)
    (path : List ObservationFact) (complete : Bool) :
    ("maximum_favorable_excursion_" ++ name,
        whenComplete complete (floatMax ((returnDecimals F current path).map ofDecimal))) ∈
        (pathColumns name current path complete : List (String × Value F)) ∧
      ("maximum_adverse_excursion_" ++ name,
        whenComplete complete (floatMin ((returnDecimals F current path).map ofDecimal))) ∈
        (pathColumns name current path complete : List (String × Value F)) ∧
      ("minimum_future_liquidity_usd_" ++ name,
        whenComplete complete (number (path.filterMap (·.liquidityUsd)).min?)) ∈
        (pathColumns name current path complete : List (String × Value F)) := by
  rw [← pathReturns_eq]
  simp [pathColumns]

theorem minimum_mono (laws : OrderedFloats F) {xs ys : List ℚ} (hsub : xs ⊆ ys) {value : F}
    (h : number xs.min? = some value) :
    ∃ value', number ys.min? = some value' ∧ le value' value = true := by
  cases hx : xs.min? with
  | none =>
    rw [hx] at h
    cases h
  | some x =>
    rw [hx] at h
    cases h
    obtain ⟨hmem, _⟩ := List.min?_eq_some_iff.mp hx
    cases hy : ys.min? with
    | none => exact absurd (hsub hmem) (by simp [List.min?_eq_none_iff.mp hy])
    | some y =>
      obtain ⟨_, hall⟩ := List.min?_eq_some_iff.mp hy
      exact ⟨ofDecimal y, rfl, laws.mono (hall x (hsub hmem))⟩

/-- Longer horizons keep the true labels, widen the extrema and use the same observations. -/
theorem label_horizons_monotone (laws : OrderedFloats F) (H : Hashing) (history : TokenHistory)
    (state : TokenStateAsOf) (contract : LabelSetContract) (result : LabelResult F)
    (hresult : buildOutcomeLabels H history state contract = .ok result) (short long : Int)
    (hshort : short ∈ contract.horizonsSeconds) (hlong : long ∈ contract.horizonsSeconds)
    (hlt : short < long) :
    (∀ front ∈ lastingLabels,
      result.values.get? (front ++ horizonName short) = some (.text "TRUE") →
        result.values.get? (front ++ horizonName long) = some (.text "TRUE")) ∧
      (completeAt F history state short = true → completeAt F history state long = true →
        (∀ excursion, result.values.get? ("maximum_favorable_excursion_" ++ horizonName short) =
            some (.float excursion) →
          ∃ later, result.values.get? ("maximum_favorable_excursion_" ++ horizonName long) =
            some (.float later) ∧ le excursion later = true) ∧
        (∀ excursion, result.values.get? ("maximum_adverse_excursion_" ++ horizonName short) =
            some (.float excursion) →
          ∃ later, result.values.get? ("maximum_adverse_excursion_" ++ horizonName long) =
            some (.float later) ∧ le later excursion = true) ∧
        (∀ liquidity, result.values.get? ("minimum_future_liquidity_usd_" ++ horizonName short) =
            some (.float liquidity) →
          ∃ later, result.values.get? ("minimum_future_liquidity_usd_" ++ horizonName long) =
            some (.float later) ∧ le later liquidity = true)) ∧
      ∀ item ∈ usedAt history state short, item ∈ usedAt history state long := by
  obtain ⟨hcolumns, _⟩ := buildOutcomeLabels_eq_ok hresult
  obtain ⟨hknownShort, hcolumnsShort⟩ := hcolumns short hshort
  obtain ⟨hknownLong, hcolumnsLong⟩ := hcolumns long hlong
  have hpaths := pathAt_prefix history state hknownShort hknownLong hlt.le
  refine ⟨fun front hfront htrue => ?_, fun _ hcomplete => ⟨?_, ?_, ?_⟩, fun item hitem => ?_⟩
  · rw [← map_fst_lastingColumns state.currentObservation (pathAt history state short) (F := F)]
      at hfront
    obtain ⟨column, hcolumn, rfl⟩ := List.mem_map.mp hfront
    rw [hcolumnsShort _ (mem_pathColumns_of_lasting hcolumn _ _)] at htrue
    have hholds : column.2 = true := tri_eq_true.mp (by injection htrue with h; injection h)
    have hlasting : (column.1, true) ∈
        lastingColumns F state.currentObservation (pathAt history state long) :=
      lastingColumns_mono laws hpaths _ (by rw [← hholds]; exact hcolumn)
    rw [hcolumnsLong _ (mem_pathColumns_of_lasting hlasting _ _)]
    rfl
  · intro excursion hexcursion
    rw [hcolumnsShort _ (mem_pathColumns_extrema _ _ _ _).1] at hexcursion
    obtain ⟨_, hmax⟩ := whenComplete_eq_float.mp (Option.some.inj hexcursion)
    obtain ⟨later, hlater, hle⟩ :=
      floatMax_mono laws (returnDecimals_mono hpaths.subset state.currentObservation) hmax
    refine ⟨later, ?_, hle⟩
    rw [hcolumnsLong _ (mem_pathColumns_extrema _ _ _ _).1, Option.some.injEq]
    exact whenComplete_eq_float.mpr ⟨hcomplete, hlater⟩
  · intro excursion hexcursion
    rw [hcolumnsShort _ (mem_pathColumns_extrema _ _ _ _).2.1] at hexcursion
    obtain ⟨_, hmin⟩ := whenComplete_eq_float.mp (Option.some.inj hexcursion)
    obtain ⟨later, hlater, hle⟩ :=
      floatMin_mono laws (returnDecimals_mono hpaths.subset state.currentObservation) hmin
    refine ⟨later, ?_, hle⟩
    rw [hcolumnsLong _ (mem_pathColumns_extrema _ _ _ _).2.1, Option.some.injEq]
    exact whenComplete_eq_float.mpr ⟨hcomplete, hlater⟩
  · intro liquidity hliquidity
    rw [hcolumnsShort _ (mem_pathColumns_extrema _ _ _ _).2.2] at hliquidity
    obtain ⟨_, hmin⟩ := whenComplete_eq_float.mp (Option.some.inj hliquidity)
    obtain ⟨later, hlater, hle⟩ :=
      minimum_mono laws (List.filterMap_subset (·.liquidityUsd) hpaths.subset) hmin
    refine ⟨later, ?_, hle⟩
    rw [hcolumnsLong _ (mem_pathColumns_extrema _ _ _ _).2.2, Option.some.injEq]
    exact whenComplete_eq_float.mpr ⟨hcomplete, hlater⟩
  · obtain ⟨hfuture, _, htolerance, hwithin⟩ := mem_usedAt.mp hitem
    cases (known_lookup hknownShort).2.symm.trans htolerance
    refine mem_usedAt.mpr ⟨hfuture, _, (known_lookup hknownLong).2, ?_⟩
    have hreach := reach_le hknownShort hknownLong hlt.le
    unfold seconds at hwithin ⊢
    lia

end Horizons

/-- The state of a token whose only pair was observed at 0 s. -/
def stateAtZero (current : ObservationFact) : TokenStateAsOf where
  epochId := "epoch"
  epochNumber := 1
  tokenId := "token"
  chain := "solana"
  address := "mint"
  decisionAt := 0
  identityKnown := true
  admissionAt := some 0
  lifecycle := none
  coverage := none
  candidate := none
  candidateTier := none
  selectedPairId := some "pair"
  currentObservation := some current
  observationHistory := [current]
  pairFact := none
  boost := none
  firstBoostReceivedAt := none
  previousBoost := none
  metadata := none
  security := none
  holderSnapshot := none
  traderDistribution := none
  creatorHistory := none
  securityFeatures := none
  liquidityEvents := []
  walletEdges := []
  walletClusters := []
  fundingRelationships := []
  context := none
  featureSetIdentifier := "market-v1"
  featureSetSha256 := "features"
  availabilityWatermark := some 0

/-- An observation of the pair. -/
def pairAt (id : String) (second : Int) (priceUsd liquidityUsd : Option ℚ) : ObservationFact where
  id := id
  pairId := "pair"
  pairAddress := "pool"
  receivedAt := seconds second
  priceUsd := priceUsd
  liquidityUsd := liquidityUsd

def observedHistory (observations : List ObservationFact) : TokenHistory where
  epochId := "epoch"
  epochNumber := 1
  epochDataValid := true
  tokenId := "token"
  chain := "solana"
  address := "mint"
  observations := observations

/-- The price doubles at 35 s and triples at 70 s, while liquidity falls. -/
def risingHistory : TokenHistory :=
  observedHistory [pairAt "entry" 0 (some 1) (some 100), pairAt "first" 35 (some 2) (some 50),
    pairAt "second" 70 (some 3) (some 10)]

theorem label_horizons_monotone_rising :
    let state := stateAtZero (pairAt "entry" 0 (some 1) (some 100))
    ∃ result, @buildOutcomeLabels ℚ exactNumerics plainHashing risingHistory state {} =
        .ok result ∧
      (result.values.get? "crossed_2x_30s" = some (.text "TRUE") →
        result.values.get? "crossed_2x_1m" = some (.text "TRUE")) ∧
      @completeAt ℚ exactNumerics risingHistory state 30 = true ∧
      @completeAt ℚ exactNumerics risingHistory state 60 = true ∧
      ∀ excursion, result.values.get? "maximum_favorable_excursion_30s" =
          some (.float excursion) →
        ∃ later, result.values.get? "maximum_favorable_excursion_1m" = some (.float later) ∧
          decide (excursion ≤ later) = true := by
  intro state
  obtain ⟨result, hresult⟩ := @buildOutcomeLabels_total ℚ exactNumerics plainHashing risingHistory
    state {} (by decide) (by decide)
  have hshort : @completeAt ℚ exactNumerics risingHistory state 30 = true := by decide +kernel
  have hlong : @completeAt ℚ exactNumerics risingHistory state 60 = true := by decide +kernel
  obtain ⟨hlasting, hextrema, _⟩ := @label_horizons_monotone ℚ exactNumerics orderedFloats_exact
    plainHashing risingHistory state {} result hresult 30 60 (by decide) (by decide) (by decide)
  exact ⟨result, hresult, hlasting "crossed_2x_" (by decide), hshort, hlong,
    (hextrema hshort hlong).1⟩

end PumpResearch.Research
