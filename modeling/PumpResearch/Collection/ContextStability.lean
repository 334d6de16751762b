import PumpResearch.Collection.ContextBuckets

/-! Deriving a market-context bucket again. The row comes out the same as long as no fact that is
committed late changes what was read for it. -/
namespace PumpResearch.Collection

open KeyedOrder KeyedTable Results Runs Scheduling

variable {Value : Type} (arithmetic : ContextArithmetic Value) (workflow : ContextWorkflow)

/-! ### Late facts -/

/-- A late observation of a recorded bucket comes before one of its pair that was stored in time. -/
def HarmlessObservation (row : MarketContextSnapshot Value) (store : ContextStore Value)
    (o : ContextObservation Value) : Prop :=
  o.epochId = row.collectionEpochId → row.bucketStart ≤ o.receivedAt →
    o.receivedAt < row.bucketEnd →
      ∃ o' ∈ receivedIn row.collectionEpochId row.bucketStart row.bucketEnd store.observations,
        o'.pairId = o.pairId ∧ o.order < o'.order

/-- A late transition in a span of time is of a token that was counted there in time. -/
def Counted (epochId : Uuid) (state : LifecycleState) (start stop : Int)
    (stored : List ContextTransition) (e : ContextTransition) : Prop :=
  e.epochId = epochId → e.newState = state → start ≤ e.decidedAt → e.decidedAt < stop →
    e.tokenId ∈ transitionTokens epochId state start stop stored

/-- The cohort of a recorded bucket. -/
def cohortOf (epochId : Uuid) (bucketEnd : Int) (transitions : List ContextTransition) :
    Finset Uuid :=
  transitionTokens epochId .new (bucketEnd - seconds 7200) (bucketEnd - seconds 3600) transitions

/-- A late transition adds no token to those that a recorded bucket counts. -/
structure HarmlessTransition (row : MarketContextSnapshot Value) (store : ContextStore Value)
    (e : ContextTransition) : Prop where
  admitted : Counted row.collectionEpochId .new row.bucketStart row.bucketEnd store.transitions e
  active : Counted row.collectionEpochId .active row.bucketStart row.bucketEnd store.transitions e
  cohort : Counted row.collectionEpochId .new (row.bucketEnd - seconds 7200)
    (row.bucketEnd - seconds 3600) store.transitions e
  mature : e.epochId = row.collectionEpochId → e.newState = .active → e.decidedAt < row.bucketEnd →
    e.tokenId ∈ cohortOf row.collectionEpochId row.bucketEnd store.transitions →
      e.tokenId ∈ matureActiveTokens row.collectionEpochId
        (cohortOf row.collectionEpochId row.bucketEnd store.transitions) row.bucketEnd
        store.transitions

/-! ### Runs -/

/-- What is committed: the facts of other work, or the row of a bucket. -/
inductive ContextAction (Value : Type) where
  | commit (observations : List (ContextObservation Value)) (transitions : List ContextTransition)
  | record (run : ContextRun) (now : Int)

/-- Facts come in time for the buckets that are recorded, and buckets in the order of time. -/
def Timely (store : ContextStore Value) : ContextAction Value → Prop
  | .commit observations transitions =>
    ∀ row ∈ store.snapshots.rows, row.policySha256 = workflow.policySha256 →
      (∀ o ∈ observations, HarmlessObservation row store o) ∧
        ∀ e ∈ transitions, HarmlessTransition row store e
  | .record run now =>
    ∀ row ∈ store.snapshots.rows, InSeries workflow run row →
      row.bucketEnd ≤ floorTime now workflow.interval

/-- Every stored row of the policy is what its bucket derives to. -/
def Rederives (store : ContextStore Value) : Prop :=
  ∀ row ∈ store.snapshots.rows, row.policySha256 = workflow.policySha256 →
    row.toContextValues =
      deriveContext arithmetic workflow row.collectionEpochId row.bucketEnd store

section Step

variable [DecidableEq Value]

/-- A transaction that raises is rolled back. -/
def contextStep (store : ContextStore Value) : ContextAction Value → ContextStore Value
  | .commit observations transitions => store.commit observations transitions
  | .record run now =>
    match recordClosedBucket arithmetic workflow run now store with
    | .ok (_, store') => store'
    | .error _ => store

/-- A call leaves a row of its bucket, and returns the one that is stored already. -/
def Stable (store : ContextStore Value) : ContextAction Value → Prop
  | .commit _ _ => True
  | .record run now =>
    ∃ row store', recordClosedBucket arithmetic workflow run now store = .ok (row, store') ∧
      row ∈ store'.snapshots.rows ∧ row.bucketEnd = floorTime now workflow.interval ∧
      ∀ stored ∈ store.snapshots.rows, InSeries workflow run stored →
        stored.bucketEnd = floorTime now workflow.interval → row = stored ∧ store' = store

end Step

/-! ### Unchanged derivations -/

variable {arithmetic workflow}

/-- Late observations that come before stored ones of their pairs are never the latest. -/
theorem latestObservations_append {row : MarketContextSnapshot Value} {store : ContextStore Value}
    {observations : List (ContextObservation Value)}
    (h : ∀ o ∈ observations, HarmlessObservation row store o) :
    latestObservations row.collectionEpochId row.bucketStart row.bucketEnd
        (store.observations ++ observations) =
      latestObservations row.collectionEpochId row.bucketStart row.bucketEnd store.observations := by
  have hlate : ∀ o ∈ receivedIn row.collectionEpochId row.bucketStart row.bucketEnd observations,
      ∃ o' ∈ receivedIn row.collectionEpochId row.bucketStart row.bucketEnd store.observations,
        o'.pairId = o.pairId ∧ o.order < o'.order := by
    intro o ho
    rw [receivedIn, List.mem_filter, decide_eq_true_eq] at ho
    exact h o ho.1 ho.2.1 ho.2.2.1 ho.2.2.2
  have hsplit : receivedIn row.collectionEpochId row.bucketStart row.bucketEnd
      (store.observations ++ observations) =
      receivedIn row.collectionEpochId row.bucketStart row.bucketEnd store.observations ++
        receivedIn row.collectionEpochId row.bucketStart row.bucketEnd observations :=
    List.filter_append _ _
  rw [latestObservations, latestObservations, hsplit]
  generalize receivedIn row.collectionEpochId row.bucketStart row.bucketEnd store.observations =
    received at hlate ⊢
  generalize receivedIn row.collectionEpochId row.bucketStart row.bucketEnd observations = late
    at hlate ⊢
  have hnone : late.filter (fun o => (received ++ late).all fun o' =>
      o'.pairId = o.pairId → o'.order ≤ o.order) = [] := by
    rw [List.filter_eq_nil_iff]
    intro o ho hall
    obtain ⟨o', ho', hpair, hlt⟩ := hlate o ho
    have hle := List.all_eq_true.mp hall o' (List.mem_append_left _ ho')
    exact absurd (of_decide_eq_true hle hpair) (not_le.mpr hlt)
  rw [List.filter_append, hnone, List.append_nil]
  refine List.filter_congr fun o ho => ?_
  rw [List.all_append, Bool.and_eq_left_iff_imp]
  intro hall
  rw [List.all_eq_true] at hall ⊢
  intro l hl
  rw [decide_eq_true_eq]
  intro hpair
  obtain ⟨o', ho', hpair', hlt⟩ := hlate l hl
  exact hlt.le.trans (of_decide_eq_true (hall o' ho') (hpair'.trans hpair))

theorem transitionTokens_append {epochId : Uuid} {state : LifecycleState} {start stop : Int}
    {stored transitions : List ContextTransition}
    (h : ∀ e ∈ transitions, Counted epochId state start stop stored e) :
    transitionTokens epochId state start stop (stored ++ transitions) =
      transitionTokens epochId state start stop stored := by
  ext tokenId
  rw [transitionTokens, transitionTokens, List.filter_append, List.map_append, List.toFinset_append,
    Finset.mem_union, or_iff_left_iff_imp]
  intro hlate
  rw [List.mem_toFinset, List.mem_map] at hlate
  obtain ⟨e, he, rfl⟩ := hlate
  rw [List.mem_filter, decide_eq_true_eq] at he
  obtain ⟨hmem, hepoch, hstate, hfrom, hto⟩ := he
  exact h e hmem hepoch hstate hfrom hto

theorem matureActiveTokens_append {epochId : Uuid} {cohort : Finset Uuid} {cutoff : Int}
    {stored transitions : List ContextTransition}
    (h : ∀ e ∈ transitions, e.epochId = epochId → e.newState = .active → e.decidedAt < cutoff →
      e.tokenId ∈ cohort → e.tokenId ∈ matureActiveTokens epochId cohort cutoff stored) :
    matureActiveTokens epochId cohort cutoff (stored ++ transitions) =
      matureActiveTokens epochId cohort cutoff stored := by
  ext tokenId
  rw [matureActiveTokens, matureActiveTokens, List.filter_append, List.map_append,
    List.toFinset_append, Finset.mem_union, or_iff_left_iff_imp]
  intro hlate
  rw [List.mem_toFinset, List.mem_map] at hlate
  obtain ⟨e, he, rfl⟩ := hlate
  rw [List.mem_filter, decide_eq_true_eq] at he
  obtain ⟨hmem, hepoch, hstate, hbefore, hcohort⟩ := he
  exact h e hmem hepoch hstate hbefore hcohort

/-- Harmless facts leave the derivation of a recorded bucket as it is. -/
theorem deriveContext_commit {row : MarketContextSnapshot Value} {store : ContextStore Value}
    (hbucket : row.bucketStart = row.bucketEnd - seconds workflow.interval)
    {observations : List (ContextObservation Value)} {transitions : List ContextTransition}
    (hobservations : ∀ o ∈ observations, HarmlessObservation row store o)
    (htransitions : ∀ e ∈ transitions, HarmlessTransition row store e) :
    deriveContext arithmetic workflow row.collectionEpochId row.bucketEnd
        (store.commit observations transitions) =
      deriveContext arithmetic workflow row.collectionEpochId row.bucketEnd store := by
  have hlatest := latestObservations_append hobservations
  have hadmitted := transitionTokens_append fun e he => (htransitions e he).admitted
  have hactive := transitionTokens_append fun e he => (htransitions e he).active
  have hcohort := transitionTokens_append fun e he => (htransitions e he).cohort
  have hmature := matureActiveTokens_append fun e he => (htransitions e he).mature
  rw [hbucket] at hlatest hadmitted hactive
  rw [cohortOf] at hmature
  simp only [deriveContext, ContextStore.commit, hlatest, hadmitted, hactive, hcohort, hmature]

/-- A row of another epoch, or of a bucket that ends later, is no prior row. -/
theorem priorPrices_insertNew {row : MarketContextSnapshot Value} {table : ContextTable Value}
    (hfree : table.find? row.identity = none) {epochId : Uuid} {bucketStart : Int}
    (h : row.collectionEpochId = epochId → bucketStart < row.bucketEnd) :
    priorPrices workflow epochId bucketStart (table.insertNew row) =
      priorPrices workflow epochId bucketStart table := by
  rw [priorPrices, priorPrices, Table.rows_insertNew_of_find?_eq_none hfree, List.filter_append]
  have hnone : [row].filter (fun row => row.collectionEpochId = epochId ∧
      row.policySha256 = workflow.policySha256 ∧ row.bucketEnd ≤ bucketStart ∧
        bucketStart - seconds 3600 ≤ row.bucketEnd ∧ row.solUsdPrice.isSome) = [] := by
    rw [List.filter_eq_nil_iff]
    intro other hother
    rw [List.mem_singleton.mp hother, decide_eq_true_eq]
    intro hprior
    exact absurd hprior.2.2.1 (not_le.mpr (h hprior.1))
  rw [hnone, List.append_nil]

theorem deriveContext_insertNew {row : MarketContextSnapshot Value} {store : ContextStore Value}
    (hfree : store.snapshots.find? row.identity = none) {epochId : Uuid} {bucketEnd : Int}
    (h : row.collectionEpochId = epochId → bucketEnd ≤ row.bucketEnd) :
    deriveContext arithmetic workflow epochId bucketEnd
        { store with snapshots := store.snapshots.insertNew row } =
      deriveContext arithmetic workflow epochId bucketEnd store := by
  have hpos := seconds_pos workflow.interval_pos
  have hprior : priorPrices workflow epochId (bucketEnd - seconds workflow.interval)
      (store.snapshots.insertNew row) =
      priorPrices workflow epochId (bucketEnd - seconds workflow.interval) store.snapshots := by
    refine priorPrices_insertNew hfree fun hepoch => ?_
    have hle := h hepoch
    omega
  simp only [deriveContext, hprior]

/-! ### Steps -/

section Steps

variable {store : ContextStore Value}

theorem Rederives.commit (h : Rederives arithmetic workflow store)
    {observations : List (ContextObservation Value)} {transitions : List ContextTransition}
    (htimely : Timely workflow store (.commit observations transitions)) :
    Rederives arithmetic workflow (store.commit observations transitions) := by
  intro row hrow hpolicy
  have hvalues := h row hrow hpolicy
  have hbucket : row.bucketStart = row.bucketEnd - seconds workflow.interval :=
    congrArg ContextValues.bucketStart hvalues
  obtain ⟨hobservations, htransitions⟩ := htimely row hrow hpolicy
  rw [deriveContext_commit hbucket hobservations htransitions]
  exact hvalues

variable [DecidableEq Value]

/-- The row of a call. -/
def calledRow (arithmetic : ContextArithmetic Value) (workflow : ContextWorkflow) (run : ContextRun)
    (now : Int) (store : ContextStore Value) : MarketContextSnapshot Value :=
  { deriveContext arithmetic workflow run.epochId (floorTime now workflow.interval) store with
    collectorRunId := run.collectorRunId, receivedAt := now }

/-- A call in the order of time succeeds, and leaves rows that derive to the same again. -/
theorem Rederives.record (h : Rederives arithmetic workflow store) {run : ContextRun} {now : Int}
    (htimely : Timely workflow store (.record run now)) :
    Stable arithmetic workflow store (.record run now) ∧
      Rederives arithmetic workflow (contextStep arithmetic workflow store (.record run now)) := by
  have hpos := seconds_pos workflow.interval_pos
  have hcall : recordClosedBucket arithmetic workflow run now store =
      recordContext (calledRow arithmetic workflow run now store) store := rfl
  have hsame : ∀ stored ∈ store.snapshots.rows, InSeries workflow run stored →
      stored.bucketEnd = floorTime now workflow.interval →
      store.snapshots.find? (calledRow arithmetic workflow run now store).identity = some stored := by
    intro stored hstored hseries hend
    refine Table.find?_eq_some_iff.mpr ⟨hstored, ?_⟩
    have hbucket := congrArg ContextValues.bucketStart (h stored hstored hseries.2)
    rw [MarketContextSnapshot.identity, hseries.1, hseries.2, hbucket, hend]
    rfl
  cases hfound : store.snapshots.find? (calledRow arithmetic workflow run now store).identity with
  | none =>
    have hok : recordClosedBucket arithmetic workflow run now store =
        .ok (calledRow arithmetic workflow run now store,
          { store with
            snapshots := store.snapshots.insertNew (calledRow arithmetic workflow run now store) }) := by
      rw [hcall, recordContext, hfound]
    have hrows := Table.rows_insertNew_of_find?_eq_none hfound
    constructor
    · refine ⟨_, _, hok, ?_, rfl, ?_⟩
      · rw [hrows]
        exact List.mem_append_right _ (List.mem_singleton_self _)
      · intro stored hstored hseries hend
        rw [hsame stored hstored hseries hend] at hfound
        cases hfound
    · rw [contextStep, hok]
      intro row hrow hpolicy
      dsimp only at hrow ⊢
      rw [hrows] at hrow
      cases List.mem_append.mp hrow with
      | inl hold =>
        rw [deriveContext_insertNew hfound]
        · exact h row hold hpolicy
        · intro hepoch
          exact htimely row hold ⟨hepoch.symm, hpolicy⟩
      | inr hnew =>
        rw [List.mem_singleton.mp hnew, deriveContext_insertNew hfound fun _ => le_rfl]
        rfl
  | some stored =>
    obtain ⟨hstored, hidentity⟩ := Table.find?_eq_some_iff.mp hfound
    have hepoch : stored.collectionEpochId = run.epochId := congrArg Prod.fst hidentity
    have hpolicy : stored.policySha256 = workflow.policySha256 :=
      congrArg (fun key => key.2.2) hidentity
    have hstart : stored.bucketStart =
        floorTime now workflow.interval - seconds workflow.interval :=
      congrArg (fun key => key.2.1) hidentity
    have hvalues := h stored hstored hpolicy
    have hbucket : stored.bucketStart = stored.bucketEnd - seconds workflow.interval :=
      congrArg ContextValues.bucketStart hvalues
    have hend : stored.bucketEnd = floorTime now workflow.interval := by omega
    have hequal : stored.toContextValues =
        (calledRow arithmetic workflow run now store).toContextValues := by
      rw [hvalues, hepoch, hend]
      rfl
    have hok : recordClosedBucket arithmetic workflow run now store = .ok (stored, store) := by
      rw [hcall, recordContext, hfound]
      simp only [hequal, if_true]
    constructor
    · refine ⟨stored, store, hok, hstored, hend, ?_⟩
      intro other hother hseries hotherEnd
      have hfoundOther := hsame other hother hseries hotherEnd
      rw [hfound] at hfoundOther
      exact ⟨Option.some.inj hfoundOther, rfl⟩
    · rw [contextStep, hok]
      exact h

/-- In a run of timely steps every call leaves one row of its bucket, and every further call of
the bucket returns it. -/
theorem rederivation_stable (hstore : Rederives arithmetic workflow store)
    {actions : List (ContextAction Value)}
    (h : Steps (contextStep arithmetic workflow) (Timely workflow) store actions) :
    Steps (contextStep arithmetic workflow) (Stable arithmetic workflow) store actions := by
  refine steps_of_invariant (I := Rederives arithmetic workflow) ?_ ?_ h hstore
  · intro s action hs htimely
    cases action with
    | commit observations transitions => exact hs.commit htimely
    | record run now => exact (hs.record htimely).2
  · intro s action hs htimely
    cases action with
    | commit observations transitions => trivial
    | record run now => exact (hs.record htimely).1

end Steps

theorem rederives_emptyContext : Rederives wholeArithmetic fiveMinutes emptyContext := by
  intro row hrow
  cases hrow

/-- A bucket recorded again after an observation of the next one. -/
def timelyActions : List (ContextAction Int) :=
  [.commit [pricedObservation 1 200 5] [], .record ⟨1, 1⟩ (seconds 310),
    .commit [pricedObservation 2 320 8] [], .record ⟨1, 2⟩ (seconds 330)]

theorem rederivation_stable_of_timely :
    Steps (contextStep wholeArithmetic fiveMinutes) (Stable wholeArithmetic fiveMinutes)
      emptyContext timelyActions := by
  have hends : (run (contextStep wholeArithmetic fiveMinutes) emptyContext
      (timelyActions.take 2)).snapshots.rows.map (fun row => row.bucketEnd) = [seconds 300] := by
    decide
  have hend : ∀ row ∈ (run (contextStep wholeArithmetic fiveMinutes) emptyContext
      (timelyActions.take 2)).snapshots.rows, row.bucketEnd = seconds 300 := by
    intro row hrow
    have hmem := List.mem_map_of_mem (f := fun row => row.bucketEnd) hrow
    rw [hends] at hmem
    exact List.mem_singleton.mp hmem
  refine rederivation_stable rederives_emptyContext ⟨?_, ?_, ?_, ?_, trivial⟩
  · intro row hrow
    cases hrow
  · intro row hrow
    cases hrow
  · intro row hrow _
    refine ⟨?_, ?_⟩
    · intro o ho _ _ hlate
      rw [List.mem_singleton.mp ho, hend row hrow] at hlate
      exact absurd hlate (by decide)
    · intro e he
      cases he
  · intro row hrow _
    rw [hend row hrow]
    decide

/-- An observation of a second pair, received in a bucket and committed after its row: the bucket
cannot be recorded again. -/
theorem late_commit_conflicts :
    Rederives wholeArithmetic fiveMinutes emptyContext ∧
    ¬ Steps (contextStep wholeArithmetic fiveMinutes) (Stable wholeArithmetic fiveMinutes)
      emptyContext [.commit [pricedObservation 1 200 5] [], .record ⟨1, 1⟩ (seconds 310),
        .commit [{ pricedObservation 2 299 8 with pairId := 2 }] [],
        .record ⟨1, 2⟩ (seconds 330)] := by
  refine ⟨rederives_emptyContext, ?_⟩
  intro hstable
  obtain ⟨_, _, _, ⟨row, store', hok, _⟩, _⟩ := hstable
  cases hok

end PumpResearch.Collection
