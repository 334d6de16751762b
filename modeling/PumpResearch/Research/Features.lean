import PumpResearch.Library.KeyedOrder
import PumpResearch.Library.OrderedDict
import PumpResearch.Research.AsOf

/-! Market features of a reconstructed state. The arithmetic of the interpreter's floats and
Decimals is a parameter: nothing below depends on how it rounds. -/
namespace PumpResearch.Research
open KeyedOrder OrderedDict

/-- Float and Decimal operations; those that can raise return `Except`. -/
class Numerics (F : Type) where
  decMul : ℚ → ℚ → ℚ
  decDiv : ℚ → ℚ → ℚ
  decSub : ℚ → ℚ → ℚ
  ofDecimal : ℚ → F
  ofInt : Int → F
  totalSeconds : Int → F
  trueDiv : Int → Int → F
  sub : F → F → F
  mul : F → F → F
  div : F → F → Except ResearchError F
  lt : F → F → Bool
  le : F → F → Bool
  isZero : F → Bool
  fabs : F → F
  sqrt : F → F
  log : F → Except ResearchError F
  sum : List F → F
  pstdev : List F → Except ResearchError F

/-- Exact rational arithmetic, for evaluating the model. -/
@[reducible] def exactNumerics : Numerics ℚ where
  decMul := (· * ·)
  decDiv := (· / ·)
  decSub := (· - ·)
  ofDecimal := id
  ofInt n := n
  totalSeconds micros := micros / 1000000
  trueDiv a b := a / b
  sub := (· - ·)
  mul := (· * ·)
  div a b := if b = 0 then .error (.arithmetic "float division by zero") else .ok (a / b)
  lt a b := a < b
  le a b := a ≤ b
  isZero a := a = 0
  fabs a := |a|
  sqrt a := Rat.sqrt a
  log a := if a = 1 then .ok 0 else .error (.arithmetic "irrational logarithm")
  sum := List.sum
  pstdev _ := .error (.arithmetic "irrational deviation")

/-- A cell of a feature, label or dataset row. -/
inductive Value (F : Type) where
  | none
  | bool (value : Bool)
  | int (value : Int)
  | float (value : F)
  | text (value : String)
  | time (value : Timestamp)
deriving DecidableEq

namespace Value
variable {F : Type}

def optInt (value : Option Int) : Value F := value.elim .none .int
def optFloat (value : Option F) : Value F := value.elim .none .float
def optText (value : Option String) : Value F := value.elim .none .text
def optTime (value : Option Timestamp) : Value F := value.elim .none .time
def optBool (value : Option Bool) : Value F := value.elim .none .bool

/-- `isinstance(value, (int, float))`, with the value as a float. -/
def asNumber [Numerics F] : Value F → Option F
  | .bool value => some (Numerics.ofInt (if value then 1 else 0))
  | .int value => some (Numerics.ofInt value)
  | .float value => some value
  | _ => Option.none

end Value

abbrev Columns (F : Type) := Dict String (Value F)

/-- `values[key]`. -/
def getItem {F : Type} (values : Columns F) (key : String) : Except ResearchError (Value F) :=
  match values.get? key with
  | some value => .ok value
  | none => .error (.key key)

def horizonNames : List (Int × String) :=
  [(5, "5s"), (15, "15s"), (30, "30s"), (60, "1m"), (120, "2m"), (300, "5m"), (900, "15m")]

structure FeatureResult (F : Type) where
  values : Columns F
  inputObservationIds : List String
  availabilityWatermark : Option Timestamp
deriving DecidableEq

section Features
variable {F : Type} [Numerics F]
open Numerics

/-- `_elapsed`. -/
def elapsed (start stop : Option Timestamp) : Option F :=
  match start, stop with
  | some start, some stop => some (totalSeconds (stop - start))
  | _, _ => none

/-- `_number`. -/
def number (value : Option ℚ) : Option F := value.map ofDecimal

/-- `_ratio`. -/
def ratio (numerator denominator : Option ℚ) : Option F :=
  match numerator, denominator with
  | some numerator, some denominator =>
    if denominator = 0 then none else some (ofDecimal (decDiv F numerator denominator))
  | _, _ => none

/-- `_count_ratio`. -/
def countRatio (buys sells : Option Int) : Option F :=
  match buys, sells with
  | some buys, some sells =>
    if buys + sells = 0 then none else some (trueDiv buys (buys + sells))
  | _, _ => none

/-- `_imbalance`. -/
def imbalance (buys sells : Option Int) : Option F :=
  match buys, sells with
  | some buys, some sells =>
    if buys + sells = 0 then none else some (trueDiv (buys - sells) (buys + sells))
  | _, _ => none

/-- `_sum_optional`. -/
def sumOptional (left right : Option Int) : Option Int :=
  match left, right with
  | some left, some right => some (left + right)
  | _, _ => none

/-- `_per_second`. -/
def perSecond (value seconds : Value F) : Except ResearchError (Option F) :=
  match value.asNumber, seconds.asNumber with
  | some value, some seconds =>
    if le seconds (ofInt 0) then .ok none else (div value seconds).map some
  | _, _ => .ok none

/-- `_difference`. -/
def difference (left right : Value F) : Option F :=
  match left.asNumber, right.asNumber with
  | some left, some right => some (sub left right)
  | _, _ => none

/-- `_return`. -/
def returnOf (current baseline : Option ObservationFact) (field : ObservationFact → Option ℚ) :
    Option F :=
  match current.bind field, baseline.bind field with
  | some currentValue, some baselineValue =>
    if baselineValue ≤ 0 then none
    else some (ofDecimal (decSub F (decDiv F currentValue baselineValue) 1))
  | _, _ => none

/-- `_slope`. -/
def slope (current baseline : Option ObservationFact) (field : ObservationFact → Option ℚ) :
    Except ResearchError (Option F) :=
  match current, baseline with
  | some current, some baseline =>
    match field current, field baseline with
    | some currentValue, some baselineValue =>
      if current.receivedAt - baseline.receivedAt ≤ 0 then .ok none
      else (div (ofDecimal (decSub F currentValue baselineValue))
        (totalSeconds (current.receivedAt - baseline.receivedAt))).map some
    | _, _ => .ok none
  | _, _ => .ok none

/-- `_lookback`. -/
def lookback (history : List ObservationFact) (endAt horizonSeconds toleranceSeconds : Int) :
    Option ObservationFact :=
  match firstMax (timeKey (·.receivedAt) (·.id))
      (history.filter fun item => item.receivedAt ≤ endAt - seconds horizonSeconds) with
  | some candidate =>
    if endAt - seconds horizonSeconds - candidate.receivedAt > seconds toleranceSeconds then none
    else some candidate
  | none => none

/-- `_authority_state`. -/
def authorityState (security : Option SecurityFact) (field : SecurityFact → Option String) :
    String :=
  match security with
  | some security =>
    if security.status ≠ "available" then "unknown"
    else if (field security).isSome then "present" else "none"
  | none => "unknown"

/-- `_consecutive`. -/
def consecutive (signs : List Int) : Int × Int :=
  match signs.getLast? with
  | none => (0, 0)
  | some final =>
    let count : Int :=
      (signs.reverse.takeWhile fun sign => decide (sign = final) && decide (sign ≠ 0)).length
    (if final > 0 then count else 0, if final < 0 then count else 0)

/-- The dictionary literal that opens `build_market_features`. -/
def baseColumns (state : TokenStateAsOf) : Columns F :=
  Dict.empty.setAll [
    ("epoch_number", .int state.epochNumber),
    ("epoch_id", .text state.epochId),
    ("token_id", .text state.tokenId),
    ("token_address", .text state.address),
    ("decision_at", .time state.decisionAt),
    ("admission_at", .optTime state.admissionAt),
    ("token_age_seconds", .optFloat (elapsed state.admissionAt state.decisionAt)),
    ("identity_known", .bool state.identityKnown),
    ("lifecycle_state", .optText (state.lifecycle.map (·.newState))),
    ("coverage_class", .optText (state.coverage.map (·.coverageClass))),
    ("selected_pair_id", .optText state.selectedPairId),
    ("observation_received_at", .optTime (state.currentObservation.map (·.receivedAt))),
    ("observation_age_seconds",
      .optFloat (elapsed (state.currentObservation.map (·.receivedAt)) state.decisionAt)),
    ("price_usd", .optFloat (number (state.currentObservation.bind (·.priceUsd)))),
    ("price_native", .optFloat (number (state.currentObservation.bind (·.priceNative)))),
    ("market_cap_usd", .optFloat (number (state.currentObservation.bind (·.marketCapUsd)))),
    ("fdv_usd",
      .optFloat (number (state.currentObservation.bind (·.fullyDilutedValuationUsd)))),
    ("liquidity_usd", .optFloat (number (state.currentObservation.bind (·.liquidityUsd)))),
    ("volume_m5_usd", .optFloat (number (state.currentObservation.bind (·.volumeM5Usd)))),
    ("volume_h1_usd", .optFloat (number (state.currentObservation.bind (·.volumeH1Usd)))),
    ("volume_h6_usd", .optFloat (number (state.currentObservation.bind (·.volumeH6Usd)))),
    ("volume_h24_usd", .optFloat (number (state.currentObservation.bind (·.volumeH24Usd)))),
    ("liquidity_market_cap_ratio", .optFloat (ratio (state.currentObservation.bind (·.liquidityUsd))
      (state.currentObservation.bind (·.marketCapUsd)))),
    ("volume_m5_liquidity_ratio", .optFloat (ratio (state.currentObservation.bind (·.volumeM5Usd))
      (state.currentObservation.bind (·.liquidityUsd)))),
    ("liquidity_volume_m5_ratio", .optFloat (ratio (state.currentObservation.bind (·.liquidityUsd))
      (state.currentObservation.bind (·.volumeM5Usd))))]

/-- What the lookback loop accumulates: columns, baselines by horizon and input ids. -/
structure LookbackLoop (F : Type) where
  values : Columns F
  baselines : Dict Int (Option ObservationFact)
  inputs : List String

def lookbackStep (state : TokenStateAsOf) (acc : LookbackLoop F) (horizon : Int) :
    Except ResearchError (LookbackLoop F) := do
  let tolerance ← lookupSeconds lookbackToleranceTable horizon
  let baseline := lookback state.observationHistory state.decisionAt horizon tolerance
  let name ← lookupSeconds horizonNames horizon
  let current := state.currentObservation
  return {
    values := acc.values.setAll [
      ("return_" ++ name, .optFloat (returnOf current baseline (·.priceUsd))),
      ("return_" ++ name ++ "_actual_seconds",
        .optFloat (elapsed (baseline.map (·.receivedAt)) (current.map (·.receivedAt)))),
      ("liquidity_change_" ++ name, .optFloat (returnOf current baseline (·.liquidityUsd)))]
    baselines := acc.baselines.set horizon baseline
    inputs := if current.isSome then acc.inputs ++ (baseline.map (·.id)).toList else acc.inputs }

/-- `baselines[horizon]`. -/
def getBaseline (baselines : Dict Int (Option ObservationFact)) (horizon : Int) :
    Except ResearchError (Option ObservationFact) :=
  match baselines.get? horizon with
  | some baseline => .ok baseline
  | none => .error (.key (toString horizon))

/-- One round of the velocity loop over market cap, volume and liquidity. -/
def slopeStep (current baseline priorEnd priorStart : Option ObservationFact)
    (values : Columns F) (entry : (ObservationFact → Option ℚ) × String) :
    Except ResearchError (Columns F) := do
  let currentSlope ← slope current baseline entry.1
  let priorSlope ← slope priorEnd priorStart entry.1
  return values.setAll [
    (entry.2 ++ "_velocity_1m", .optFloat currentSlope),
    (entry.2 ++ "_acceleration_1m",
      .optFloat (difference (.optFloat currentSlope) (.optFloat priorSlope)))]

/-- The velocity and acceleration part of `build_market_features`. -/
def momentumColumns (state : TokenStateAsOf) (values : Columns F)
    (baselines : Dict Int (Option ObservationFact)) : Except ResearchError (Columns F) := do
  let oneMinute ← getItem values "return_1m"
  let oneMinuteElapsed ← getItem values "return_1m_actual_seconds"
  let velocity ← perSecond oneMinute oneMinuteElapsed
  let values := values.set "return_velocity_1m_per_second" (.optFloat velocity)
  let priorEnd ← getBaseline baselines 60
  let tolerance ← lookupSeconds lookbackToleranceTable 60
  let priorStart := if priorEnd.isSome then
    lookback state.observationHistory (state.decisionAt - seconds 60) 60 tolerance else none
  let priorVelocity ← perSecond (.optFloat (returnOf priorEnd priorStart (·.priceUsd)))
    (.optFloat (elapsed (priorStart.map (·.receivedAt)) (priorEnd.map (·.receivedAt))) : Value F)
  let values := values.set "return_acceleration_1m"
    (.optFloat (difference (.optFloat velocity) (.optFloat priorVelocity)))
  [((·.marketCapUsd), "market_cap"), ((·.volumeM5Usd), "volume_m5"),
    ((·.liquidityUsd), "liquidity")].foldlM
      (slopeStep state.currentObservation priorEnd priorEnd priorStart) values

/-- The order-flow columns of one window. -/
def flowWindow (values : Columns F) (suffix : String) (buys sells : Option Int) : Columns F :=
  values.setAll [
    ("buys_" ++ suffix, .optInt buys),
    ("sells_" ++ suffix, .optInt sells),
    ("buy_ratio_" ++ suffix, .optFloat (countRatio buys sells)),
    ("buy_sell_imbalance_" ++ suffix, .optFloat (imbalance buys sells))]

/-- `_flow_features`. -/
def flowFeatures (values : Columns F) (current baseline : Option ObservationFact) :
    Except ResearchError (Columns F) := do
  let values := flowWindow values "m5" (current.bind (·.buysM5)) (current.bind (·.sellsM5))
  let values := flowWindow values "h1" (current.bind (·.buysH1)) (current.bind (·.sellsH1))
  let values := flowWindow values "h6" (current.bind (·.buysH6)) (current.bind (·.sellsH6))
  let values := flowWindow values "h24" (current.bind (·.buysH24)) (current.bind (·.sellsH24))
  let currentImbalance ← getItem values "buy_sell_imbalance_m5"
  let previousImbalance : Value F :=
    .optFloat (imbalance (baseline.bind (·.buysM5)) (baseline.bind (·.sellsM5)))
  let currentTransactions := sumOptional (current.bind (·.buysM5)) (current.bind (·.sellsM5))
  let priorTransactions := sumOptional (baseline.bind (·.buysM5)) (baseline.bind (·.sellsM5))
  return values.setAll [
    ("buy_sell_imbalance_m5_change_1m", .optFloat (difference currentImbalance previousImbalance)),
    ("transactions_m5", .optInt currentTransactions),
    ("transaction_acceleration_1m",
      .optFloat (difference (.optInt currentTransactions : Value F) (.optInt priorTransactions)))]

/-- Positive prices of the last five minutes as floats, in history order. -/
def pathPrices (history : List ObservationFact) (decisionAt : Timestamp) : List F :=
  (history.filter fun item => item.receivedAt ≥ decisionAt - seconds 300).filterMap fun item =>
    match item.priceUsd with
    | some price => if price > 0 then some (ofDecimal price) else none
    | none => none

/-- `math.log(right / left)` of adjacent prices. -/
def logReturns : List F → Except ResearchError (List F)
  | left :: right :: rest => do
    let quotient ← div right left
    let value ← log quotient
    let values ← logReturns (right :: rest)
    return value :: values
  | _ => .ok []

/-- `max(values)` and `min(values)` of a list of floats. -/
def floatMax : List F → Option F
  | [] => none
  | x :: xs => some (xs.foldl (fun m y => if lt m y then y else m) x)

def floatMin : List F → Option F
  | [] => none
  | x :: xs => some (xs.foldl (fun m y => if lt y m then y else m) x)

/-- `current / extreme - 1`, if there are prices. -/
def relativeTo (current extreme : Option F) : Except ResearchError (Option F) :=
  match current, extreme with
  | some current, some extreme =>
    (div current extreme).map fun quotient => some (sub quotient (ofInt 1))
  | _, _ => .ok none

def signOf (value : F) : Int :=
  if lt (ofInt 0) value then 1 else if lt value (ofInt 0) then -1 else 0

/-- Mean absolute log return over their root mean square. -/
def smoothness (returns : List F) : Except ResearchError (Option F) := do
  if returns.isEmpty then return none
  let count : F := ofInt returns.length
  let meanSquare ← div (sum (returns.map fun value => mul value value)) count
  let rms := sqrt meanSquare
  if isZero rms then return none
  let mean ← div (sum (returns.map fabs)) count
  let value ← div mean rms
  return some value

/-- `realized_volatility_5m`: a deviation needs two returns. -/
def realizedVolatility (returns : List F) : Except ResearchError (Option F) :=
  if returns.length ≥ 2 then (pstdev returns).map some else .ok none

/-- `_path_features`. -/
def pathFeatures (values : Columns F) (history : List ObservationFact) (decisionAt : Timestamp) :
    Except ResearchError (Columns F) := do
  let prices : List F := pathPrices history decisionAt
  let returns ← logReturns prices
  let volatility ← realizedVolatility returns
  let drawdown ← relativeTo prices.getLast? (floatMax prices)
  let recovery ← relativeTo prices.getLast? (floatMin prices)
  let signs := returns.map signOf
  let nonzero := signs.filter (· ≠ 0)
  let monotonicity : Option F :=
    if nonzero.isEmpty then none else some (trueDiv |nonzero.sum| nonzero.length)
  let smooth ← smoothness returns
  let abrupt := match values.get? "liquidity_change_1m" with
    | some (.float change) => some (lt change (ofDecimal (-1 / 2)))
    | _ => none
  return values.setAll [
    ("path_observation_count_5m", .int prices.length),
    ("realized_volatility_5m", .optFloat volatility),
    ("drawdown_from_local_peak_5m", .optFloat drawdown),
    ("recovery_from_local_low_5m", .optFloat recovery),
    ("consecutive_positive_observations", .int (consecutive signs).1),
    ("consecutive_negative_observations", .int (consecutive signs).2),
    ("path_monotonicity_5m", .optFloat monotonicity),
    ("path_smoothness_5m", .optFloat smooth),
    ("abrupt_liquidity_decline_1m", .optBool abrupt)]

/-- `_boost_features`. -/
def boostFeatures (values : Columns F) (state : TokenStateAsOf) : Columns F :=
  values.setAll [
    ("boost_known", .bool state.boost.isSome),
    ("boost_active",
      .optBool ((state.boost.bind (·.activeBoostCount)).map fun count => decide (count > 0))),
    ("boost_active_count", .optInt (state.boost.bind (·.activeBoostCount))),
    ("boost_amount", .optFloat (number (state.boost.bind (·.amount)))),
    ("boost_total_amount", .optFloat (number (state.boost.bind (·.totalAmount)))),
    ("boost_freshness_seconds",
      .optFloat (elapsed (state.boost.map (·.receivedAt)) state.decisionAt)),
    ("time_since_first_boost_seconds",
      .optFloat (elapsed state.firstBoostReceivedAt state.decisionAt)),
    ("boost_amount_change", .optFloat (difference
      (.optFloat (number (state.boost.bind (·.amount))) : Value F)
      (.optFloat (number (state.previousBoost.bind (·.amount)))))),
    ("boost_total_amount_change", .optFloat (difference
      (.optFloat (number (state.boost.bind (·.totalAmount))) : Value F)
      (.optFloat (number (state.previousBoost.bind (·.totalAmount))))))]

/-- `_security_features`. -/
def securityFeatures (values : Columns F) (state : TokenStateAsOf) : Columns F :=
  values.setAll [
    ("security_known", .bool state.security.isSome),
    ("security_status", .text ((state.security.map (·.status)).getD "unknown")),
    ("security_snapshot_freshness_seconds",
      .optFloat (elapsed (state.security.map (·.receivedAt)) state.decisionAt)),
    ("token_program", .text ((state.security.map (·.tokenProgram)).getD "unknown")),
    ("mint_authority_state", .text (authorityState state.security (·.mintAuthority))),
    ("freeze_authority_state", .text (authorityState state.security (·.freezeAuthority)))]

/-- `tracked_admission_rate_per_minute`. -/
def admissionRate (context : Option MarketContextFact) : Except ResearchError (Option F) :=
  match context with
  | some context =>
    match context.admittedTokens with
    | some admitted =>
      let bucketSeconds : F := totalSeconds (context.bucketEnd - context.bucketStart)
      (div (ofInt admitted) (if lt bucketSeconds (ofInt 1) then ofInt 1 else bucketSeconds)).map
        fun rate => some (mul rate (ofInt 60))
    | none => .ok none
  | none => .ok none

/-- `_context_features`. -/
def contextFeatures (values : Columns F) (state : TokenStateAsOf) :
    Except ResearchError (Columns F) := do
  let rate ← admissionRate state.context
  return values.setAll [
    ("context_known", .bool state.context.isSome),
    ("context_freshness_seconds",
      .optFloat (elapsed (state.context.map (·.receivedAt)) state.decisionAt)),
    ("sol_usd_price", .optFloat (number (state.context.bind (·.solUsdPrice)))),
    ("sol_return_5m", .optFloat (number (state.context.bind (·.solReturn5m)))),
    ("sol_realized_volatility_1h",
      .optFloat (number (state.context.bind (·.solRealizedVolatility1h)))),
    ("tracked_admission_rate_per_minute", .optFloat rate),
    ("recent_active_conversion_fraction",
      .optFloat (number (state.context.bind (·.matureCohortActiveFraction)))),
    ("aggregate_tracked_volume_m5_usd",
      .optFloat (number (state.context.bind (·.aggregateVolumeM5Usd)))),
    ("aggregate_tracked_buy_ratio_m5",
      .optFloat (countRatio (state.context.bind (·.aggregateBuysM5))
        (state.context.bind (·.aggregateSellsM5))))]

/-- `build_market_features`. -/
def buildMarketFeatures (H : Hashing) (state : TokenStateAsOf) (contract : FeatureSetContract) :
    Except ResearchError (FeatureResult F) := do
  if state.featureSetSha256 ≠ contract.sha256 H then
    throw (.value "token state was reconstructed with a different feature contract")
  let loop ← contract.lookbackHorizonsSeconds.foldlM (lookbackStep state)
    ⟨baseColumns state, .empty, (state.currentObservation.map (·.id)).toList⟩
  let values ← momentumColumns state loop.values loop.baselines
  let baseline ← getBaseline loop.baselines 60
  let values ← flowFeatures values state.currentObservation baseline
  let values ← pathFeatures values state.observationHistory state.decisionAt
  let values := securityFeatures (boostFeatures values state) state
  let values ← contextFeatures values state
  return {
    values := values.setAll [
      ("metadata_known", .bool state.metadata.isSome),
      ("pair_created_at_known", .bool (state.pairFact.bind (·.pairCreatedAt)).isSome)]
    inputObservationIds := sortOn id loop.inputs.dedup
    availabilityWatermark := state.availabilityWatermark }

end Features

end PumpResearch.Research
