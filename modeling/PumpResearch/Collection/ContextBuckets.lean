import PumpResearch.Collection.MarketContext

/-! Which buckets the market-context loop records. Every action starts an interval after the end of
the one before, so that its place in its bucket moves by the time that the actions take. -/
namespace PumpResearch.Collection

open KeyedOrder KeyedTable Results

variable {Value : Type} [DecidableEq Value] (arithmetic : ContextArithmetic Value)
  (workflow : ContextWorkflow) (run : ContextRun)

/-! ### The loop -/

/-- The time that an action takes, and what other work commits until the next one. -/
structure ContextTick (Value : Type) where
  duration : Int
  observations : List (ContextObservation Value)
  transitions : List ContextTransition

/-- The start of the latest action, the tables, and the rows that the actions have returned. -/
structure ContextLoop (Value : Type) where
  clock : Int
  store : ContextStore Value
  recorded : List (MarketContextSnapshot Value)

def ContextLoop.begin (start : Int) (store : ContextStore Value) :
    Except ContextError (ContextLoop Value) := do
  let (row, store) ← recordClosedBucket arithmetic workflow run start store
  return ⟨start, store, [row]⟩

/-- The rest of an action, the wait for an interval, and the next action. -/
def ContextLoop.tick (s : ContextLoop Value) (t : ContextTick Value) :
    Except ContextError (ContextLoop Value) := do
  let now := s.clock + t.duration + seconds workflow.interval
  let (row, store) ← recordClosedBucket arithmetic workflow run now
    (s.store.commit t.observations t.transitions)
  return ⟨now, store, s.recorded ++ [row]⟩

/-- `_loop` of the market context, as long as its actions succeed. -/
def contextLoop (start : Int) (store : ContextStore Value) (ticks : List (ContextTick Value)) :
    Except ContextError (ContextLoop Value) := do
  let s ← ContextLoop.begin arithmetic workflow run start store
  ticks.foldlM (ContextLoop.tick arithmetic workflow run) s

/-- The later of two rows is of the bucket after the earlier one's, or of the same, and between two
known prices its return is over one bucket. -/
def SpansOneBucket (before after : MarketContextSnapshot Value) : Prop :=
  after.bucketEnd ≤ before.bucketEnd + seconds workflow.interval ∧
  ∀ price ∈ before.solUsdPrice, ∀ price' ∈ after.solUsdPrice,
    arithmetic.isPositive price = true → arithmetic.isPositive price' = true →
      after.bucketStart = before.bucketEnd ∧
        after.solReturn5m = some (arithmetic.latestReturn price' price)

/-! ### Stored rows -/

/-- A row of the loop's series. -/
def InSeries (row : MarketContextSnapshot Value) : Prop :=
  row.collectionEpochId = run.epochId ∧ row.policySha256 = workflow.policySha256

/-- The rows of the series are of whole buckets that have closed by an instant. -/
def ClosedBy (t : Int) (table : ContextTable Value) : Prop :=
  ∀ row ∈ table.rows, InSeries workflow run row →
    row.bucketStart + seconds workflow.interval = row.bucketEnd ∧
      row.bucketEnd ≤ floorTime t workflow.interval

/-- The tables hold no later row than the latest one recorded, which ends at the latest boundary. -/
structure ContextLoop.Sound (s : ContextLoop Value) (last : MarketContextSnapshot Value) : Prop where
  closed : ClosedBy workflow run s.clock s.store.snapshots
  stored : last ∈ s.store.snapshots.rows
  series : InSeries workflow run last
  bucketEnd : last.bucketEnd = floorTime s.clock workflow.interval
  recorded : s.recorded.getLast? = some last

section Order

variable {α κ : Type*} [LinearOrder κ]

/-- The one item of greatest key is sorted last. -/
theorem getLast?_sortOn {key : α → κ} {xs : List α} {x : α} (hx : x ∈ xs)
    (h : ∀ y ∈ xs, key x ≤ key y → y = x) : (sortOn key xs).getLast? = some x := by
  cases hlast : (sortOn key xs).getLast? with
  | none =>
    rw [List.getLast?_eq_none_iff] at hlast
    have hmem := (mem_sortOn key xs x).mpr hx
    rw [hlast] at hmem
    cases hmem
  | some y =>
    obtain ⟨before, hsplit⟩ := List.getLast?_eq_some_iff.mp hlast
    have hsorted := sortOn_pairwise key xs
    have hmem := (mem_sortOn key xs x).mpr hx
    rw [hsplit] at hsorted hmem
    have hy : y ∈ xs := by
      rw [← mem_sortOn key xs y, hsplit]
      exact List.mem_append_right _ (List.mem_singleton_self y)
    have hle : key x ≤ key y := by
      cases List.mem_append.mp hmem with
      | inl hbefore =>
        exact (List.pairwise_append.mp hsorted).2.2 x hbefore y (List.mem_singleton_self y)
      | inr hsame => rw [List.mem_singleton.mp hsame]
    rw [h y hy hle]

theorem getLast?_filterMap_of_some {β : Type*} {f : α → Option β} {xs : List α} {x : α} {b : β}
    (hx : xs.getLast? = some x) (hb : f x = some b) : (xs.filterMap f).getLast? = some b := by
  obtain ⟨before, rfl⟩ := List.getLast?_eq_some_iff.mp hx
  rw [List.filterMap_append, List.filterMap_cons_some hb, List.filterMap_nil,
    List.getLast?_concat]

end Order

variable {arithmetic workflow run}

omit [DecidableEq Value] in
/-- The price of the row that ends where a bucket starts is the latest one before the bucket. -/
theorem getLast?_priorPrices {table : ContextTable Value} {t : Int}
    (hclosed : ClosedBy workflow run t table) {last : MarketContextSnapshot Value}
    (hlast : last ∈ table.rows) (hseries : InSeries workflow run last)
    (hend : last.bucketEnd = floorTime t workflow.interval) {price : Value}
    (hprice : last.solUsdPrice = some price) :
    (priorPrices workflow run.epochId last.bucketEnd table).getLast? = some price := by
  rw [priorPrices]
  refine getLast?_filterMap_of_some (getLast?_sortOn (x := last) ?_ ?_) hprice
  · rw [List.mem_filter, decide_eq_true_eq]
    have hhour : 0 < seconds 3600 := by decide
    exact ⟨hlast, hseries.1, hseries.2, le_rfl, by omega, by rw [hprice]; rfl⟩
  · intro row hrow hle
    rw [List.mem_filter, decide_eq_true_eq] at hrow
    obtain ⟨hmem, hepoch, hpolicy, hbefore, _⟩ := hrow
    have hbucket := (hclosed row hmem ⟨hepoch, hpolicy⟩).1
    have hbucket' := (hclosed last hlast hseries).1
    refine table.eq_of_key_eq hmem hlast ?_
    rw [MarketContextSnapshot.identity, MarketContextSnapshot.identity, hepoch, hpolicy, hseries.1,
      hseries.2, show row.bucketStart = last.bucketStart by omega]

omit [DecidableEq Value] in
/-- A return is taken over the latest prior price. -/
theorem contextReturns_of_getLast? {prior : List Value} {price price' : Value}
    (hprior : prior.getLast? = some price) (hprice : arithmetic.isPositive price = true)
    (hprice' : arithmetic.isPositive price' = true) :
    (contextReturns arithmetic (some price') prior).1 =
      some (arithmetic.latestReturn price' price) := by
  obtain ⟨before, rfl⟩ := List.getLast?_eq_some_iff.mp hprior
  have hclean : ((before ++ [price]).filter arithmetic.isPositive).getLast? = some price := by
    rw [List.filter_append, List.filter_cons_of_pos hprice, List.filter_nil, List.getLast?_concat]
  simp only [contextReturns, Option.filter_some_pos hprice', hclean]

/-! ### Steps -/

/-- What the first action leaves. -/
theorem sound_begin {start : Int} {store : ContextStore Value} {s : ContextLoop Value}
    (hclosed : ClosedBy workflow run start store.snapshots)
    (h : ContextLoop.begin arithmetic workflow run start store = .ok s) :
    ∃ row, s.clock = start ∧ s.recorded = [row] ∧ s.Sound workflow run row := by
  rw [ContextLoop.begin, bind_eq_ok] at h
  obtain ⟨⟨row, store'⟩, hrecord, hs⟩ := h
  rw [pure_eq_ok] at hs
  subst hs
  refine ⟨row, rfl, rfl, ?_⟩
  cases recordContext_eq_ok hrecord with
  | inl hnew =>
    obtain ⟨hfree, rfl, rfl⟩ := hnew
    have hrows := Table.rows_insertNew_of_find?_eq_none hfree
    refine ⟨?_, ?_, ⟨rfl, rfl⟩, rfl, rfl⟩
    · intro other hother hseries
      rw [hrows] at hother
      cases List.mem_append.mp hother with
      | inl hold => exact hclosed other hold hseries
      | inr hlast =>
        rw [List.mem_singleton.mp hlast]
        exact ⟨sub_add_cancel _ _, le_rfl⟩
    · rw [hrows]
      exact List.mem_append_right _ (List.mem_singleton_self _)
  | inr hold =>
    obtain ⟨hfound, rfl, hvalues⟩ := hold
    have hepoch := congrArg ContextValues.collectionEpochId hvalues
    have hpolicy := congrArg ContextValues.policySha256 hvalues
    exact ⟨hclosed, (Table.find?_eq_some_iff.mp hfound).1, ⟨hepoch, hpolicy⟩,
      congrArg ContextValues.bucketEnd hvalues, rfl⟩

/-- What a further action leaves: the row of a later bucket. -/
theorem sound_tick {s s' : ContextLoop Value} {last : MarketContextSnapshot Value}
    (hsound : s.Sound workflow run last) {t : ContextTick Value} (hduration : 0 ≤ t.duration)
    (h : s.tick arithmetic workflow run t = .ok s') :
    ∃ row, s'.clock = s.clock + t.duration + seconds workflow.interval ∧
      s'.recorded = s.recorded ++ [row] ∧ s'.Sound workflow run row ∧
      row.toContextValues = deriveContext arithmetic workflow run.epochId
        (floorTime s'.clock workflow.interval) (s.store.commit t.observations t.transitions) := by
  rw [ContextLoop.tick, bind_eq_ok] at h
  obtain ⟨⟨row, store'⟩, hrecord, hs⟩ := h
  rw [pure_eq_ok] at hs
  subst hs
  have hlater : floorTime s.clock workflow.interval + seconds workflow.interval ≤
      floorTime (s.clock + t.duration + seconds workflow.interval) workflow.interval := by
    rw [floorTime_add_interval workflow.interval_pos]
    have hmono := floorTime_mono workflow.interval_pos
      (Int.le_add_of_nonneg_right hduration : s.clock ≤ s.clock + t.duration)
    exact Int.add_le_add_right hmono _
  have hpos := seconds_pos workflow.interval_pos
  cases recordContext_eq_ok hrecord with
  | inl hnew =>
    obtain ⟨hfree, rfl, rfl⟩ := hnew
    have hrows := Table.rows_insertNew_of_find?_eq_none hfree
    refine ⟨_, rfl, rfl, ⟨?_, ?_, ⟨rfl, rfl⟩, rfl, List.getLast?_concat⟩, rfl⟩
    · intro other hother hseries
      rw [hrows] at hother
      cases List.mem_append.mp hother with
      | inl hold =>
        obtain ⟨hbucket, hend⟩ := hsound.closed other hold hseries
        refine ⟨hbucket, ?_⟩
        dsimp only
        omega
      | inr hlast =>
        rw [List.mem_singleton.mp hlast]
        exact ⟨sub_add_cancel _ _, le_rfl⟩
    · rw [hrows]
      exact List.mem_append_right _ (List.mem_singleton_self _)
  | inr hold =>
    -- a stored row of the bucket would end after the latest boundary
    obtain ⟨hfound, _, hvalues⟩ := hold
    have hepoch := congrArg ContextValues.collectionEpochId hvalues
    have hpolicy := congrArg ContextValues.policySha256 hvalues
    have hbucketEnd := congrArg ContextValues.bucketEnd hvalues
    have hmem := (Table.find?_eq_some_iff.mp hfound).1
    have hend := (hsound.closed row hmem ⟨hepoch, hpolicy⟩).2
    rw [hbucketEnd] at hend
    simp only [deriveContext] at hend
    omega

omit [DecidableEq Value] in
/-- The next row spans one bucket exactly when the action leaves the phase in its bucket. -/
theorem spans_tick_iff {s s' : ContextLoop Value} {last row : MarketContextSnapshot Value}
    (hsound : s.Sound workflow run last) {t : ContextTick Value}
    (hclock : s'.clock = s.clock + t.duration + seconds workflow.interval)
    (hvalues : row.toContextValues = deriveContext arithmetic workflow run.epochId
      (floorTime s'.clock workflow.interval) (s.store.commit t.observations t.transitions))
    (hduration : 0 ≤ t.duration) :
    SpansOneBucket arithmetic workflow last row ↔
      s.clock % seconds workflow.interval + t.duration < seconds workflow.interval := by
  have hend : row.bucketEnd = floorTime (s.clock + t.duration) workflow.interval +
      seconds workflow.interval := by
    rw [hvalues, hclock, ← floorTime_add_interval workflow.interval_pos]
    rfl
  have hstart : row.bucketStart = row.bucketEnd - seconds workflow.interval := by
    rw [hvalues]
    rfl
  have hlast := hsound.bucketEnd
  rw [← floorTime_add_le_iff workflow.interval_pos, SpansOneBucket]
  constructor
  · intro h
    have hle := h.1
    omega
  · intro h
    have hmono := floorTime_mono workflow.interval_pos
      (Int.le_add_of_nonneg_right hduration : s.clock ≤ s.clock + t.duration)
    have hadjacent : row.bucketStart = last.bucketEnd := by omega
    refine ⟨by omega, ?_⟩
    intro price hprice price' hprice' hpositive hpositive'
    rw [Option.mem_def] at hprice hprice'
    refine ⟨hadjacent, ?_⟩
    have hprior := getLast?_priorPrices hsound.closed hsound.stored hsound.series hlast hprice
    have hreturn : row.solReturn5m = (contextReturns arithmetic row.solUsdPrice
        (priorPrices workflow run.epochId row.bucketStart s.store.snapshots)).1 := by
      rw [hvalues]
      rfl
    rw [hreturn, hprice', hadjacent]
    exact contextReturns_of_getLast? hprior hpositive hpositive'

/-! ### Runs -/

/-- No bucket is skipped exactly when the actions, all but the last, together take less than what
the first one leaves of its interval. -/
theorem buckets_unbroken_iff {start : Int} {store : ContextStore Value}
    (hclosed : ClosedBy workflow run start store.snapshots) {ticks : List (ContextTick Value)}
    (hduration : ∀ t ∈ ticks, 0 < t.duration ∧ t.duration < seconds workflow.interval)
    {s : ContextLoop Value} (h : contextLoop arithmetic workflow run start store ticks = .ok s) :
    s.recorded.IsChain (SpansOneBucket arithmetic workflow) ↔
      start % seconds workflow.interval + (ticks.map ContextTick.duration).sum <
        seconds workflow.interval := by
  have hpos := seconds_pos workflow.interval_pos
  rw [contextLoop, bind_eq_ok] at h
  obtain ⟨s0, hbegin, hticks⟩ := h
  obtain ⟨first, hclock, hrecorded, hfirst⟩ := sound_begin hclosed hbegin
  -- the clock is the start, the durations and as many intervals
  suffices hgen : (∃ last, s.Sound workflow run last) ∧
      (∃ k : Int, s.clock = start + (ticks.map ContextTick.duration).sum +
        seconds workflow.interval * k) ∧ 0 ≤ (ticks.map ContextTick.duration).sum ∧
      (s.recorded.IsChain (SpansOneBucket arithmetic workflow) ↔
        start % seconds workflow.interval + (ticks.map ContextTick.duration).sum <
          seconds workflow.interval) from hgen.2.2.2
  induction ticks using List.reverseRecOn generalizing s with
  | nil =>
    rw [List.foldlM_nil, pure_eq_ok] at hticks
    subst hticks
    refine ⟨⟨first, hfirst⟩, ⟨0, ?_⟩, le_rfl, ?_⟩
    · rw [hclock, List.map_nil, List.sum_nil]
      ring
    · rw [hrecorded, List.map_nil, List.sum_nil, add_zero]
      exact iff_of_true (List.isChain_singleton _) (Int.emod_lt_of_pos _ hpos)
  | append_singleton ticks t ih =>
    rw [foldlM_concat] at hticks
    obtain ⟨mid, hmid, htick⟩ := hticks
    obtain ⟨⟨last, hlast⟩, ⟨k, hk⟩, hsum, hiff⟩ :=
      ih (fun t ht => hduration t (List.mem_append_left _ ht)) hmid
    have ht := hduration t (List.mem_append_right _ (List.mem_singleton_self t))
    obtain ⟨row, hnow, hrows, hsound, hvalues⟩ := sound_tick hlast ht.1.le htick
    rw [List.map_append, List.sum_append, List.map_singleton, List.sum_singleton]
    refine ⟨⟨row, hsound⟩, ⟨k + 1, ?_⟩, by omega, ?_⟩
    · rw [hnow, hk]
      ring
    have hphase : start % seconds workflow.interval + (ticks.map ContextTick.duration).sum <
        seconds workflow.interval → mid.clock % seconds workflow.interval =
          start % seconds workflow.interval + (ticks.map ContextTick.duration).sum := by
      intro hlt
      have hnonneg := Int.emod_nonneg start hpos.ne'
      rw [hk, Int.add_mul_emod_self_left, ← Int.emod_add_emod,
        Int.emod_eq_of_lt (by omega) hlt]
    have hchain : s.recorded.IsChain (SpansOneBucket arithmetic workflow) ↔
        mid.recorded.IsChain (SpansOneBucket arithmetic workflow) ∧
          SpansOneBucket arithmetic workflow last row := by
      rw [hrows, List.isChain_append, hlast.recorded]
      simp
    rw [hchain, hiff, spans_tick_iff hlast hnow hvalues ht.1.le]
    constructor
    · intro hboth
      have hmod := hphase hboth.1
      omega
    · intro hlt
      have hbefore : start % seconds workflow.interval + (ticks.map ContextTick.duration).sum <
          seconds workflow.interval := by omega
      have hmod := hphase hbefore
      exact ⟨hbefore, by omega⟩

/-- Whole numbers for prices, and their differences for returns. -/
def wholeArithmetic : ContextArithmetic Int where
  isPositive value := 0 < value
  divide a b := a / b
  median values := values.head?
  sum values := values.head?.map fun _ => values.sum
  latestReturn current previous := current - previous
  volatility values := values.sum
  fraction a b := a / b

def fiveMinutes : ContextWorkflow := ⟨300, "five minutes", by decide⟩

def emptyContext : ContextStore Int := ⟨[], [], Table.empty⟩

/-- An observation of a price, in seconds after the epoch. -/
def pricedObservation (id : Uuid) (receivedAt price : Int) : ContextObservation Int :=
  ⟨id, 1, 1, seconds receivedAt, some price, some 1, none, none, none⟩

/-- Actions of one and of two seconds. -/
def shortTicks : List (ContextTick Int) :=
  [⟨seconds 1, [pricedObservation 1 400 5], []⟩, ⟨seconds 2, [pricedObservation 2 700 8], []⟩]

/-- Begun with the bucket, they leave no bucket out. -/
theorem buckets_unbroken_from_start :
    ∃ s, contextLoop wholeArithmetic fiveMinutes ⟨1, 1⟩ (seconds 300) emptyContext shortTicks =
        .ok s ∧
      s.recorded.IsChain (SpansOneBucket wholeArithmetic fiveMinutes) := by
  have hrun : ∃ s, contextLoop wholeArithmetic fiveMinutes ⟨1, 1⟩ (seconds 300) emptyContext
      shortTicks = .ok s := ⟨_, rfl⟩
  obtain ⟨s, hs⟩ := hrun
  refine ⟨s, hs, (buckets_unbroken_iff ?_ (by decide) hs).mpr (by decide)⟩
  intro row hrow
  cases hrow

/-- An action of two seconds, begun a second before the end of its bucket: no row is recorded of
the next bucket, and the return of the row after it is over two. -/
theorem bucket_skipped :
    ∃ s, contextLoop wholeArithmetic fiveMinutes ⟨1, 1⟩ (seconds 599)
        ⟨[pricedObservation 1 200 5], [], Table.empty⟩
        [⟨seconds 2, [pricedObservation 2 700 8], []⟩] = .ok s ∧
      s.recorded.map (fun row => (row.bucketEnd, row.solUsdPrice, row.solReturn5m)) =
        [(seconds 300, some 5, none), (seconds 900, some 8, some 3)] ∧
      ¬ s.recorded.IsChain (SpansOneBucket wholeArithmetic fiveMinutes) := by
  refine ⟨_, rfl, by decide, ?_⟩
  intro hchain
  have hspan := List.isChain_pair.mp hchain
  exact absurd hspan.1 (by decide)

end PumpResearch.Collection
