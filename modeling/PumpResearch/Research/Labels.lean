import PumpResearch.Library.Results
import PumpResearch.Research.Features

/-! Outcome labels of a row, computed from the observations after its decision time. -/
namespace PumpResearch.Research
open KeyedOrder OrderedDict Results

def labelHorizonNames : List (Int × String) :=
  [(30, "30s"), (60, "1m"), (300, "5m"), (900, "15m"), (3600, "1h"), (21600, "6h"),
    (86400, "24h"), (604800, "7d")]

/-- `_UPSIDE`. -/
def upsideMultipliers : List (String × ℚ) :=
  [("plus_25pct", 5 / 4), ("plus_50pct", 3 / 2), ("plus_100pct", 2), ("plus_200pct", 3),
    ("plus_500pct", 6), ("2x", 2), ("5x", 5), ("10x", 10), ("50x", 50)]

/-- `_DOWNSIDE`. -/
def downsideMultipliers : List (String × ℚ) :=
  [("minus_20pct", 4 / 5), ("minus_30pct", 7 / 10), ("minus_50pct", 1 / 2),
    ("minus_80pct", 1 / 5), ("minus_95pct", 1 / 20)]

structure LabelResult (F : Type) where
  values : Columns F
  futureObservationIds : List String
  maximumFutureAt : Option Timestamp
deriving DecidableEq

/-- `future`: later observations of the selected pair, in time order. -/
def futureObservations (history : TokenHistory) (state : TokenStateAsOf) : List ObservationFact :=
  sortOn (timeKey (·.receivedAt) (·.id)) (history.observations.filter fun item =>
    decide (some item.pairId = state.selectedPairId) && decide (item.receivedAt > state.decisionAt))

/-- `_endpoint`, with the horizon's forward tolerance. -/
def endpoint (future : List ObservationFact) (decisionAt horizon tolerance : Int) :
    Option ObservationFact :=
  future.find? fun item =>
    decide (decisionAt + seconds horizon ≤ item.receivedAt) &&
      decide (item.receivedAt ≤ decisionAt + seconds horizon + seconds tolerance)

/-- `path`: everything up to the horizon plus its forward tolerance. -/
def horizonPath (future : List ObservationFact) (decisionAt horizon tolerance : Int) :
    List ObservationFact :=
  future.filter fun item => item.receivedAt ≤ decisionAt + seconds (horizon + tolerance)

/-- `_tri`. -/
def tri (value complete : Bool) : String :=
  if value then "TRUE" else if complete then "FALSE" else "UNKNOWN"

/-- A Decimal that is neither `None` nor zero. -/
def truthy (value : Option ℚ) : Option ℚ := value.filter (· ≠ 0)

/-- `_first_cross`; `threshold` multiplies in the caller's Decimal arithmetic. -/
def firstCross (decMul : ℚ → ℚ → ℚ) (path : List ObservationFact) (base : Option ℚ)
    (multiplier : ℚ) (upward : Bool) : Option ObservationFact :=
  match base with
  | some base =>
    if base ≤ 0 then none
    else path.find? fun item => item.priceUsd.any fun price =>
      if upward then decide (price ≥ decMul base multiplier)
      else decide (price ≤ decMul base multiplier)
  | none => none

/-- `_lifecycle_at`. -/
def lifecycleAt (items : List LifecycleFact) (timestamp : Option Timestamp) : Option String :=
  timestamp.bind fun timestamp => (latestLifecycle timestamp items).map (·.newState)

/-- The ordered crossing label of an up and a down multiplier. -/
def crossOrder (up down : Option ObservationFact) (complete : Bool) : String :=
  match up, down with
  | some up, some down => if up.receivedAt < down.receivedAt then "TRUE" else "FALSE"
  | some _, none => "TRUE"
  | none, some _ => "FALSE"
  | none, none => if complete then "FALSE" else "UNKNOWN"

section Labels
variable {F : Type} [Numerics F]
open Numerics

/-- `_notional_ratio`. -/
def notionalRatio (notional : Int) (liquidity : Option ℚ) : Option F :=
  match liquidity with
  | some liquidity => if liquidity ≤ 0 then none else some (ofDecimal (decDiv F notional liquidity))
  | none => none

/-- `_price_return`. -/
def priceReturn (current endpoint : Option ObservationFact) : Option F :=
  match current.bind (·.priceUsd), endpoint.bind (·.priceUsd) with
  | some currentPrice, some endpointPrice =>
    if currentPrice ≤ 0 then none
    else some (ofDecimal (decSub F (decDiv F endpointPrice currentPrice) 1))
  | _, _ => none

/-- `_path_complete`: no gap longer than a tenth of the horizon, within fixed bounds. -/
def pathComplete (current : Option ObservationFact) (path : List ObservationFact)
    (horizon : Int) : Bool :=
  match current with
  | none => false
  | some current =>
    let times := current.receivedAt :: path.map (·.receivedAt)
    let gaps : List F := (times.zip times.tail).map fun gap => totalSeconds (gap.2 - gap.1)
    let tenth : F := mul (ofInt horizon) (ofDecimal (1 / 10))
    let atLeast : F := if lt (ofInt 60) tenth then tenth else ofInt 60
    let allowed : F := if lt (ofInt 1800) atLeast then ofInt 1800 else atLeast
    match floatMax gaps with
    | some maximumGap => le maximumGap allowed
    | none => false

/-- The price discontinuities of adjacent path items. -/
def discontinuities (path : List ObservationFact) : List F :=
  (path.zip path.tail).filterMap fun step =>
    match truthy step.1.priceUsd, truthy step.2.priceUsd with
    | some left, some right =>
      if left > 0 then some (fabs (ofDecimal (decSub F (decDiv F right left) 1))) else none
    | _, _ => none

/-- Whether some priced item of the path crosses `base * multiplier`. -/
def crossed (path : List ObservationFact) (base : Option ℚ) (multiplier : ℚ) (upward : Bool) :
    Bool :=
  (truthy base).any fun base => path.any fun item => (truthy item.priceUsd).any fun price =>
    if upward then decide (price ≥ decMul F base multiplier)
    else decide (price ≤ decMul F base multiplier)

/-- `_path_labels`. -/
def pathLabels (values : Columns F) (name : String) (current : Option ObservationFact)
    (path : List ObservationFact) (complete : Bool) : Columns F :=
  let base := current.bind (·.priceUsd)
  let returns : List F := match base with
    | some base =>
      if base > 0 then path.filterMap fun item =>
        item.priceUsd.map fun price => ofDecimal (decSub F (decDiv F price base) 1)
      else []
    | none => []
  let liquidity := path.filterMap (·.liquidityUsd)
  let entryLiquidity := truthy (current.bind (·.liquidityUsd))
  let collapsed := entryLiquidity.any fun entry =>
    liquidity.any fun value => decide (value ≤ decMul F entry (1 / 5))
  let survived := entryLiquidity.any fun entry =>
    (path.getLast?.bind (·.liquidityUsd)).any fun value => decide (value ≥ decMul F entry (1 / 2))
  let gaps : List F := discontinuities path
  let whenComplete (value : Option F) : Value F := if complete then .optFloat value else .none
  values.setAll <|
    [("maximum_favorable_excursion_" ++ name, whenComplete (floatMax returns)),
      ("maximum_adverse_excursion_" ++ name, whenComplete (floatMin returns))] ++
    upsideMultipliers.map (fun entry => ("crossed_" ++ entry.1 ++ "_" ++ name,
      .text (tri (crossed (F := F) path base entry.2 true) complete))) ++
    downsideMultipliers.map (fun entry => ("crossed_" ++ entry.1 ++ "_" ++ name,
      .text (tri (crossed (F := F) path base entry.2 false) complete))) ++
    [("minimum_future_liquidity_usd_" ++ name, whenComplete (number liquidity.min?)),
      ("major_liquidity_collapse_" ++ name, .text (tri collapsed complete)),
      ("liquidity_survival_" ++ name, .text (tri survived complete)),
      ("maximum_observed_price_discontinuity_" ++ name, whenComplete (floatMax gaps)),
      ("extreme_gap_or_rug_proxy_" ++ name, .text (tri
        ((floatMax gaps).any fun value => le (ofDecimal (19 / 20)) value) complete))]

/-- `_ordered_and_timing_labels`. -/
def orderedAndTimingLabels (values : Columns F) (current : Option ObservationFact)
    (path : List ObservationFact) (complete : Bool) (decisionAt : Timestamp) : Columns F :=
  let base := current.bind (·.priceUsd)
  let first := firstCross (decMul F) path base
  let since (item : Option ObservationFact) : Value F :=
    .optFloat (elapsed (item.map fun _ => decisionAt) (item.map (·.receivedAt)))
  let peak := firstMax (fun item => item.priceUsd.getD 0) (path.filter (·.priceUsd.isSome))
  values.setAll [
    ("plus_50_before_minus_25",
      .text (crossOrder (first (3 / 2) true) (first (3 / 4) false) complete)),
    ("plus_100_before_minus_30", .text (crossOrder (first 2 true) (first (7 / 10) false) complete)),
    ("plus_200_before_minus_40", .text (crossOrder (first 3 true) (first (3 / 5) false) complete)),
    ("5x_before_minus_50", .text (crossOrder (first 5 true) (first (1 / 2) false) complete)),
    ("time_to_plus_50_seconds", since (first (3 / 2) true)),
    ("time_to_2x_seconds", since (first 2 true)),
    ("time_to_5x_seconds", since (first 5 true)),
    ("time_to_minus_50_seconds", since (first (1 / 2) false)),
    ("time_to_minus_80_seconds", since (first (1 / 5) false)),
    ("time_to_peak_seconds", if complete then since peak else .none),
    ("time_to_collapse_seconds", since (first (1 / 5) false))]

/-- The dictionary before the horizon loop. -/
def entryLabels (H : Hashing) (contract : LabelSetContract) (current : Option ObservationFact) :
    Columns F :=
  Dict.empty.setAll <|
    [("label_set", .text contract.identifier),
      ("label_set_sha256", .text (contract.sha256 H)),
      ("theoretical_entry_price_usd", .optFloat (number (current.bind (·.priceUsd)))),
      ("entry_liquidity_usd", .optFloat (number (current.bind (·.liquidityUsd)))),
      ("execution_adjusted_return", .none),
      ("execution_adjusted_return_availability", .text "UNAVAILABLE_NO_HISTORICAL_QUOTES")] ++
    contract.proxyNotionalsUsd.map fun notional =>
      ("entry_notional_" ++ toString notional ++ "_liquidity_ratio",
        .optFloat (notionalRatio notional (current.bind (·.liquidityUsd))))

/-- What the horizon loop accumulates; `used` keeps the observations whose ids it collects. -/
structure LabelLoop (F : Type) where
  values : Columns F
  used : List ObservationFact
  horizonPaths : Dict Int (List ObservationFact)
  horizonComplete : Dict Int Bool

/-- The columns one horizon adds before its path labels. -/
def horizonColumns (contract : LabelSetContract) (state : TokenStateAsOf) (name : String)
    (final : Option ObservationFact) (complete : Bool) : List (String × Value F) :=
  [("horizon_" ++ name ++ "_available", .bool final.isSome),
    ("horizon_" ++ name ++ "_path_complete", .bool complete),
    ("horizon_" ++ name ++ "_actual_seconds",
      .optFloat (elapsed (final.map fun _ => state.decisionAt) (final.map (·.receivedAt)))),
    ("theoretical_market_return_" ++ name, .optFloat (priceReturn state.currentObservation final)),
    ("exit_liquidity_usd_" ++ name, .optFloat (number (final.bind (·.liquidityUsd))))] ++
  contract.proxyNotionalsUsd.map fun notional =>
    ("exit_notional_" ++ toString notional ++ "_liquidity_ratio_" ++ name,
      .optFloat (notionalRatio notional (final.bind (·.liquidityUsd))))

def labelStep (contract : LabelSetContract) (history : TokenHistory) (state : TokenStateAsOf)
    (acc : LabelLoop F) (horizon : Int) : Except ResearchError (LabelLoop F) := do
  let name ← lookupSeconds labelHorizonNames horizon
  let tolerance ← lookupSeconds labelForwardToleranceTable horizon
  let future := futureObservations history state
  let final := endpoint future state.decisionAt horizon tolerance
  let path := horizonPath future state.decisionAt horizon tolerance
  let complete := final.isSome && pathComplete (F := F) state.currentObservation path horizon
  let values := acc.values.setAll (horizonColumns contract state name final complete)
  let values := pathLabels values name state.currentObservation path complete
  return {
    values := values.set ("future_lifecycle_state_" ++ name)
      (.optText (lifecycleAt history.lifecycle (final.map (·.receivedAt))))
    used := acc.used ++ (final.toList ++ path)
    horizonPaths := acc.horizonPaths.set horizon path
    horizonComplete := acc.horizonComplete.set horizon complete }

/-- The longest horizon with a path, or the longest of all; `max` of nothing raises. -/
def maximumHorizon (contract : LabelSetContract) (paths : Dict Int (List ObservationFact)) :
    Except ResearchError Int :=
  match ((paths.entries.filter fun entry => !entry.2.isEmpty).map (·.1)).max? with
  | some horizon => .ok horizon
  | none =>
    match contract.horizonsSeconds.max? with
    | some horizon => .ok horizon
    | none => .error (.value "max() iterable argument is empty")

/-- `build_outcome_labels`. -/
def buildOutcomeLabels (H : Hashing) (history : TokenHistory) (state : TokenStateAsOf)
    (contract : LabelSetContract) : Except ResearchError (LabelResult F) := do
  let loop ← contract.horizonsSeconds.foldlM (labelStep contract history state)
    ⟨entryLabels H contract state.currentObservation, [], .empty, .empty⟩
  let horizon ← maximumHorizon contract loop.horizonPaths
  match loop.horizonPaths.get? horizon, loop.horizonComplete.get? horizon with
  | some path, some complete =>
    return {
      values := orderedAndTimingLabels loop.values state.currentObservation path complete
        state.decisionAt
      futureObservationIds := sortOn id (loop.used.map (·.id)).dedup
      maximumFutureAt := ((futureObservations history state).map (·.receivedAt)).max? }
  | _, _ => throw (.key (toString horizon))

theorem lookupSeconds_eq_ok {β : Type} {table : List (Int × β)} {horizon : Int} {value : β} :
    lookupSeconds table horizon = .ok value ↔ table.lookup horizon = some value := by
  cases h : table.lookup horizon <;> simp [lookupSeconds, h]

theorem labelStep_total (contract : LabelSetContract) (history : TokenHistory)
    (state : TokenStateAsOf) (acc : LabelLoop F) {horizon : Int} {name : String} {tolerance : Int}
    (hname : labelHorizonNames.lookup horizon = some name)
    (htol : labelForwardToleranceTable.lookup horizon = some tolerance) :
    ∃ acc', labelStep contract history state acc horizon = .ok acc' := by
  simp only [labelStep, lookupSeconds_eq_ok.mpr hname, lookupSeconds_eq_ok.mpr htol]
  exact ⟨_, rfl⟩

theorem labelStep_keys {contract : LabelSetContract} {history : TokenHistory}
    {state : TokenStateAsOf} {acc acc' : LabelLoop F} {horizon : Int}
    (h : labelStep contract history state acc horizon = .ok acc') :
    ∃ path complete, acc'.horizonPaths = acc.horizonPaths.set horizon path ∧
      acc'.horizonComplete = acc.horizonComplete.set horizon complete := by
  rw [labelStep, bind_eq_ok] at h
  obtain ⟨name, _, h⟩ := h
  rw [bind_eq_ok] at h
  obtain ⟨tolerance, _, h⟩ := h
  simp only [pure_eq_ok] at h
  subst h
  exact ⟨_, _, rfl, rfl⟩

/-- The loop has a path and a flag for exactly the horizons it processed. -/
theorem labelLoop_keys {contract : LabelSetContract} {history : TokenHistory}
    {state : TokenStateAsOf} {values : Columns F} {acc : LabelLoop F} {horizons : List Int}
    (h : horizons.foldlM (labelStep contract history state) ⟨values, [], .empty, .empty⟩ =
      .ok acc) (horizon : Int) :
    ((acc.horizonPaths.get? horizon).isSome ↔ horizon ∈ horizons) ∧
      ((acc.horizonComplete.get? horizon).isSome ↔ horizon ∈ horizons) := by
  apply foldlM_invariant (fun done (s : LabelLoop F) =>
    ((s.horizonPaths.get? horizon).isSome ↔ horizon ∈ done) ∧
      ((s.horizonComplete.get? horizon).isSome ↔ horizon ∈ done)) ?_ h
  · simp [Dict.get?, Dict.empty]
  · intro done next s s' hkeys hs
    obtain ⟨hp, hc⟩ := hkeys
    obtain ⟨path, complete, hpath, hcomplete⟩ := labelStep_keys hs
    rw [hpath, hcomplete, Dict.get?_set, Dict.get?_set]
    by_cases hn : horizon = next
    · simp [hn]
    · simp [hn, hp, hc]

theorem maximumHorizon_total {contract : LabelSetContract}
    {paths : Dict Int (List ObservationFact)} (hne : contract.horizonsSeconds ≠ [])
    (hkeys : ∀ horizon, (paths.get? horizon).isSome ↔ horizon ∈ contract.horizonsSeconds) :
    ∃ horizon ∈ contract.horizonsSeconds, maximumHorizon contract paths = .ok horizon := by
  cases hm : ((paths.entries.filter fun entry => !entry.2.isEmpty).map (·.1)).max? with
  | some horizon =>
    obtain ⟨entry, he, rfl⟩ := List.mem_map.mp (List.max?_mem hm)
    have hmem := (paths.get?_eq_some_iff entry.1 entry.2).mpr (List.mem_filter.mp he).1
    exact ⟨entry.1, (hkeys entry.1).mp (by simp [hmem]), by simp [maximumHorizon, hm]⟩
  | none =>
    cases hc : contract.horizonsSeconds.max? with
    | none => exact absurd (List.max?_eq_none_iff.mp hc) hne
    | some horizon => exact ⟨horizon, List.max?_mem hc, by simp [maximumHorizon, hm, hc]⟩

/-- A non-empty label set with known horizons always gets its labels. -/
theorem buildOutcomeLabels_total (H : Hashing) (history : TokenHistory) (state : TokenStateAsOf)
    (contract : LabelSetContract) (hne : contract.horizonsSeconds ≠ [])
    (hknown : ∀ horizon ∈ contract.horizonsSeconds, horizon ∈ labelHorizonsSeconds) :
    ∃ result, buildOutcomeLabels (F := F) H history state contract = .ok result := by
  obtain ⟨loop, hloop, _⟩ := foldlM_total (labelStep (F := F) contract history state)
    (fun _ => True) contract.horizonsSeconds
    ⟨entryLabels H contract state.currentObservation, [], .empty, .empty⟩ (by
      intro s horizon hh _
      have htable : ∀ x ∈ labelHorizonsSeconds, (labelHorizonNames.lookup x).isSome ∧
          (labelForwardToleranceTable.lookup x).isSome := by decide
      obtain ⟨hname, htol⟩ := htable horizon (hknown horizon hh)
      obtain ⟨name, hname⟩ := Option.isSome_iff_exists.mp hname
      obtain ⟨tolerance, htol⟩ := Option.isSome_iff_exists.mp htol
      obtain ⟨acc', hacc⟩ := labelStep_total contract history state s hname htol
      exact ⟨acc', hacc, trivial⟩) trivial
  have hkeys := labelLoop_keys hloop
  obtain ⟨horizon, hh, hmax⟩ := maximumHorizon_total hne (fun x => (hkeys x).1)
  obtain ⟨path, hpath⟩ := Option.isSome_iff_exists.mp ((hkeys horizon).1.mpr hh)
  obtain ⟨complete, hcomplete⟩ := Option.isSome_iff_exists.mp ((hkeys horizon).2.mpr hh)
  simp only [buildOutcomeLabels, hloop, hmax, hpath, hcomplete, bind, Except.bind]
  exact ⟨_, rfl⟩

/-- Of the history, labels read the later observations of the pair and the lifecycle. -/
theorem buildOutcomeLabels_congr {h₁ h₂ : TokenHistory} {state : TokenStateAsOf}
    (hf : futureObservations h₁ state = futureObservations h₂ state)
    (hl : ∀ t, latestLifecycle t h₁.lifecycle = latestLifecycle t h₂.lifecycle) (H : Hashing)
    (contract : LabelSetContract) :
    buildOutcomeLabels (F := F) H h₁ state contract = buildOutcomeLabels H h₂ state contract := by
  have hstep : labelStep (F := F) contract h₁ state = labelStep contract h₂ state := by
    funext acc horizon
    simp only [labelStep, hf, lifecycleAt, hl]
  simp only [buildOutcomeLabels, hstep, hf]

end Labels

end PumpResearch.Research
