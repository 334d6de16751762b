import PumpResearch.Instants
import PumpResearch.Library.KeyedTable
import PumpResearch.Library.Results
import PumpResearch.Library.Runs
import PumpResearch.Scheduling.Policy

/-! The shared market context: one row for each closed bucket, derived from the observations and
lifecycle decisions of an epoch that are stored by then. -/
namespace PumpResearch.Collection

open KeyedOrder KeyedTable Results Runs Scheduling

/-! ### Facts -/

/-- Arithmetic of the query and of Python's decimals. -/
structure ContextArithmetic (Value : Type) where
  isPositive : Value → Bool
  divide : Value → Value → Value
  median : List Value → Option Value
  sum : List Value → Option Value
  latestReturn : Value → Value → Value
  volatility : List Value → Value
  fraction : Nat → Nat → Value

/-- The columns that a context reads of an observation, with the epoch of its collector run. -/
structure ContextObservation (Value : Type) where
  id : Uuid
  pairId : Uuid
  epochId : Uuid
  receivedAt : Int
  priceUsd : Option Value
  priceNative : Option Value
  volumeM5Usd : Option Value
  buysM5 : Option Int
  sellsM5 : Option Int

/-- The columns that a context reads of a lifecycle event, with the epoch of its collector run. -/
structure ContextTransition where
  tokenId : Uuid
  epochId : Uuid
  newState : LifecycleState
  decidedAt : Int

/-- What a context row is compared by. -/
structure ContextValues (Value : Type) where
  collectionEpochId : Uuid
  bucketStart : Int
  bucketEnd : Int
  sourceObservedAt : Int
  solUsdPrice : Option Value
  solReturn5m : Option Value
  solRealizedVolatility1h : Option Value
  admittedTokens : Nat
  activeTransitions : Nat
  matureCohortTokens : Nat
  matureCohortActiveTokens : Nat
  matureCohortActiveFraction : Option Value
  pairSampleCount : Nat
  aggregateVolumeM5Usd : Option Value
  aggregateBuysM5 : Option Int
  aggregateSellsM5 : Option Int
  policySha256 : String
deriving DecidableEq

structure MarketContextSnapshot (Value : Type) extends ContextValues Value where
  collectorRunId : Uuid
  receivedAt : Int

/-- The bucket that a row is unique for. -/
def MarketContextSnapshot.identity {Value : Type} (row : MarketContextSnapshot Value) :
    Uuid × Int × String :=
  (row.collectionEpochId, row.bucketStart, row.policySha256)

/-- `market_context_snapshots`, under `uq_market_context_epoch_bucket_policy`. -/
abbrev ContextTable (Value : Type) := Table (@MarketContextSnapshot.identity Value)

structure ContextStore (Value : Type) where
  observations : List (ContextObservation Value)
  transitions : List ContextTransition
  snapshots : ContextTable Value

/-- A workflow for one bucket length, in seconds. Its policy is told by its digest. -/
structure ContextWorkflow where
  interval : Int
  policySha256 : String
  interval_pos : 0 < interval

/-- A call's epoch and collector run. -/
structure ContextRun where
  epochId : Uuid
  collectorRunId : Uuid

/-! ### Deriving a bucket -/

/-- `_floor_time`. -/
def floorTime (value interval : Int) : Int :=
  let timestamp := value / 1000000
  seconds (timestamp - timestamp % interval)

section Derivation

variable {Value : Type} (arithmetic : ContextArithmetic Value)

/-- The observations of an epoch received in a bucket. -/
def receivedIn (epochId : Uuid) (bucketStart bucketEnd : Int)
    (observations : List (ContextObservation Value)) : List (ContextObservation Value) :=
  observations.filter fun o =>
    o.epochId = epochId ∧ bucketStart ≤ o.receivedAt ∧ o.receivedAt < bucketEnd

/-- `ORDER BY received_at DESC, id DESC` puts the later observation first. -/
def ContextObservation.order (o : ContextObservation Value) : Int ×ₗ Nat := toLex (o.receivedAt, o.id)

/-- The rows numbered 1 of their pairs: those that no row of the pair comes before. -/
def latestObservations (epochId : Uuid) (bucketStart bucketEnd : Int)
    (observations : List (ContextObservation Value)) : List (ContextObservation Value) :=
  let received := receivedIn epochId bucketStart bucketEnd observations
  received.filter fun o => received.all fun o' => o'.pairId = o.pairId → o'.order ≤ o.order

/-- A ratio of positive prices. -/
def priceRatio (o : ContextObservation Value) : Option Value :=
  match o.priceUsd, o.priceNative with
  | some usd, some native =>
    if arithmetic.isPositive usd && arithmetic.isPositive native then
      some (arithmetic.divide usd native)
    else none
  | _, _ => none

def sumCounts : List Int → Option Int
  | [] => none
  | counts => some counts.sum

/-- The tokens with a transition to a state in a span of time. -/
def transitionTokens (epochId : Uuid) (state : LifecycleState) (start stop : Int)
    (transitions : List ContextTransition) : Finset Uuid :=
  ((transitions.filter fun e => e.epochId = epochId ∧ e.newState = state ∧
    start ≤ e.decidedAt ∧ e.decidedAt < stop).map ContextTransition.tokenId).toFinset

/-- The tokens of a cohort that have been active before the cutoff. -/
def matureActiveTokens (epochId : Uuid) (cohort : Finset Uuid) (cutoff : Int)
    (transitions : List ContextTransition) : Finset Uuid :=
  ((transitions.filter fun e => e.epochId = epochId ∧ e.newState = .active ∧
    e.decidedAt < cutoff ∧ e.tokenId ∈ cohort).map ContextTransition.tokenId).toFinset

/-- The known prices of the hour before a bucket. -/
def priorPrices (workflow : ContextWorkflow) (epochId : Uuid) (bucketStart : Int)
    (snapshots : ContextTable Value) : List Value :=
  (sortOn (fun row => row.bucketEnd) (snapshots.rows.filter fun row =>
    row.collectionEpochId = epochId ∧ row.policySha256 = workflow.policySha256 ∧
      row.bucketEnd ≤ bucketStart ∧ bucketStart - seconds 3600 ≤ row.bucketEnd ∧
      row.solUsdPrice.isSome)).filterMap fun row => row.solUsdPrice

/-- `_returns`. -/
def contextReturns (current : Option Value) (prior : List Value) : Option Value × Option Value :=
  let clean := prior.filter arithmetic.isPositive
  match current.filter arithmetic.isPositive, clean.getLast? with
  | some price, some last =>
    (some (arithmetic.latestReturn price last), some (arithmetic.volatility (clean ++ [price])))
  | _, _ => (none, none)

/-- What `record_closed_bucket` derives for the bucket that ends at an instant. -/
def deriveContext (workflow : ContextWorkflow) (epochId : Uuid) (bucketEnd : Int)
    (store : ContextStore Value) : ContextValues Value :=
  let bucketStart := bucketEnd - seconds workflow.interval
  let latest := latestObservations epochId bucketStart bucketEnd store.observations
  let cohort := transitionTokens epochId .new (bucketEnd - seconds 7200) (bucketEnd - seconds 3600)
    store.transitions
  let matureActive := matureActiveTokens epochId cohort bucketEnd store.transitions
  let solPrice := arithmetic.median (latest.filterMap (priceRatio arithmetic))
  let returns := contextReturns arithmetic solPrice
    (priorPrices workflow epochId bucketStart store.snapshots)
  { collectionEpochId := epochId
    bucketStart := bucketStart
    bucketEnd := bucketEnd
    sourceObservedAt := bucketEnd
    solUsdPrice := solPrice
    solReturn5m := returns.1
    solRealizedVolatility1h := returns.2
    admittedTokens :=
      (transitionTokens epochId .new bucketStart bucketEnd store.transitions).card
    activeTransitions :=
      (transitionTokens epochId .active bucketStart bucketEnd store.transitions).card
    matureCohortTokens := cohort.card
    matureCohortActiveTokens := matureActive.card
    matureCohortActiveFraction :=
      if cohort.card = 0 then none
      else some (arithmetic.fraction matureActive.card cohort.card)
    pairSampleCount := latest.length
    aggregateVolumeM5Usd := arithmetic.sum (latest.filterMap ContextObservation.volumeM5Usd)
    aggregateBuysM5 := sumCounts (latest.filterMap ContextObservation.buysM5)
    aggregateSellsM5 := sumCounts (latest.filterMap ContextObservation.sellsM5)
    policySha256 := workflow.policySha256 }

/-! ### Recording it -/

inductive ContextError where
  | identityConflict
deriving DecidableEq

variable [DecidableEq Value]

/-- `MarketContextRepository.record`. -/
def recordContext (row : MarketContextSnapshot Value) (store : ContextStore Value) :
    Except ContextError (MarketContextSnapshot Value × ContextStore Value) :=
  match store.snapshots.find? row.identity with
  | none => .ok (row, { store with snapshots := store.snapshots.insertNew row })
  | some stored =>
    if stored.toContextValues = row.toContextValues then .ok (stored, store)
    else .error .identityConflict

/-- `record_closed_bucket`. -/
def recordClosedBucket (workflow : ContextWorkflow) (run : ContextRun) (now : Int)
    (store : ContextStore Value) :
    Except ContextError (MarketContextSnapshot Value × ContextStore Value) :=
  let values := deriveContext arithmetic workflow run.epochId (floorTime now workflow.interval) store
  recordContext { values with collectorRunId := run.collectorRunId, receivedAt := now } store

/-- What other work commits: observations and lifecycle decisions. -/
def ContextStore.commit (store : ContextStore Value)
    (observations : List (ContextObservation Value)) (transitions : List ContextTransition) :
    ContextStore Value :=
  { store with
    observations := store.observations ++ observations
    transitions := store.transitions ++ transitions }

/-- A call stores the row of its bucket, or returns the equal row that is stored already. -/
theorem recordContext_eq_ok {row stored : MarketContextSnapshot Value}
    {store store' : ContextStore Value} (h : recordContext row store = .ok (stored, store')) :
    (store.snapshots.find? row.identity = none ∧ stored = row ∧
      store' = { store with snapshots := store.snapshots.insertNew row }) ∨
    (store.snapshots.find? row.identity = some stored ∧ store' = store ∧
      stored.toContextValues = row.toContextValues) := by
  rw [recordContext] at h
  cases hfound : store.snapshots.find? row.identity with
  | none =>
    rw [hfound] at h
    obtain ⟨rfl, rfl⟩ := Prod.mk.inj (Except.ok.inj h)
    exact .inl ⟨rfl, rfl, rfl⟩
  | some other =>
    simp only [hfound] at h
    split at h
    · next heq =>
      obtain ⟨rfl, rfl⟩ := Prod.mk.inj (Except.ok.inj h)
      exact .inr ⟨rfl, rfl, heq⟩
    · cases h

end Derivation

/-! ### Buckets -/

theorem seconds_pos {n : Int} (h : 0 < n) : 0 < seconds n := by
  unfold seconds
  omega

/-- The floor of a time is the last multiple of the interval. -/
theorem floorTime_eq (t interval : Int) :
    floorTime t interval = seconds interval * (t / seconds interval) := by
  have hdiv : t / seconds interval = t / 1000000 / interval := by
    rw [seconds, mul_comm, Int.ediv_ediv_of_nonneg (by norm_num)]
  have hmod := Int.emod_add_mul_ediv (t / 1000000) interval
  have hrest : t / 1000000 - t / 1000000 % interval = interval * (t / 1000000 / interval) := by
    omega
  simp only [floorTime]
  rw [hrest, hdiv]
  simp only [seconds]
  ring

theorem floorTime_mono {s t interval : Int} (hinterval : 0 < interval) (h : s ≤ t) :
    floorTime s interval ≤ floorTime t interval := by
  rw [floorTime_eq, floorTime_eq]
  exact mul_le_mul_of_nonneg_left (Int.ediv_le_ediv (seconds_pos hinterval) h)
    (seconds_pos hinterval).le

/-- An interval later is a bucket later. -/
theorem floorTime_add_interval {interval : Int} (h : 0 < interval) (t : Int) :
    floorTime (t + seconds interval) interval = floorTime t interval + seconds interval := by
  have hdiv : (t + seconds interval) / seconds interval = t / seconds interval + 1 :=
    Int.add_ediv_of_dvd_right (dvd_refl _) |>.trans
      (by rw [Int.ediv_self (seconds_pos h).ne'])
  rw [floorTime_eq, floorTime_eq, hdiv]
  ring

/-- A time stays in its bucket exactly when its phase has room for the delay. -/
theorem floorTime_add_le_iff {interval : Int} (h : 0 < interval) (t delay : Int) :
    floorTime (t + delay) interval ≤ floorTime t interval ↔
      t % seconds interval + delay < seconds interval := by
  have hpos := seconds_pos h
  have hmod := Int.emod_add_mul_ediv t (seconds interval)
  rw [floorTime_eq, floorTime_eq, mul_le_mul_iff_right₀ hpos, ← Int.lt_add_one_iff,
    Int.ediv_lt_iff_lt_mul hpos]
  constructor
  · intro hlt
    linarith
  · intro hlt
    linarith

end PumpResearch.Collection
