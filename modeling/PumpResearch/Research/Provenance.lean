import PumpResearch.Research.NoFutureInformation
import PumpResearch.Research.Watermark

/-! Whether the recorded input ids of a feature row name all observations it reads: edits of
unlisted observations, and what they change. -/
namespace PumpResearch.Research
open KeyedOrder OrderedDict Results

/-- Remove or replace observations whose ids are not listed. -/
inductive Edited (listed : String → Prop) (replaces : ObservationFact → ObservationFact → Prop) :
    List ObservationFact → List ObservationFact → Prop
  | nil : Edited listed replaces [] []
  | keep {item : ObservationFact} {rest edited : List ObservationFact}
      (hrest : Edited listed replaces rest edited) :
      Edited listed replaces (item :: rest) (item :: edited)
  | remove {item : ObservationFact} {rest edited : List ObservationFact}
      (hitem : ¬ listed item.id) (hrest : Edited listed replaces rest edited) :
      Edited listed replaces (item :: rest) edited
  | replace {item other : ObservationFact} {rest edited : List ObservationFact}
      (hitem : ¬ listed item.id) (hother : replaces item other)
      (hrest : Edited listed replaces rest edited) :
      Edited listed replaces (item :: rest) (other :: edited)

/-- Another content under the same id and receipt time. -/
def SameReceipt (item other : ObservationFact) : Prop :=
  other.id = item.id ∧ other.receivedAt = item.receivedAt

/-- The state with another observation history. -/
def withHistory (state : TokenStateAsOf) (observations : List ObservationFact) : TokenStateAsOf :=
  { state with observationHistory := observations }

section Edits
variable {listed : String → Prop} {replaces : ObservationFact → ObservationFact → Prop}
  {xs ys : List ObservationFact}

theorem Edited.refl (xs : List ObservationFact) : Edited listed replaces xs xs := by
  induction xs with
  | nil => exact .nil
  | cons item rest ih => exact .keep ih

theorem Edited.kept (h : Edited listed replaces xs ys) {item : ObservationFact} (hitem : item ∈ xs)
    (hlisted : listed item.id) : item ∈ ys := by
  induction h with
  | nil => cases hitem
  | keep _ ih =>
    cases List.mem_cons.mp hitem with
    | inl heq => exact heq ▸ List.mem_cons_self
    | inr hmem => exact List.mem_cons_of_mem _ (ih hmem)
  | remove hunlisted _ ih =>
    cases List.mem_cons.mp hitem with
    | inl heq => exact absurd (heq ▸ hlisted) hunlisted
    | inr hmem => exact ih hmem
  | replace hunlisted _ _ ih =>
    cases List.mem_cons.mp hitem with
    | inl heq => exact absurd (heq ▸ hlisted) hunlisted
    | inr hmem => exact List.mem_cons_of_mem _ (ih hmem)

/-- Edits of listed observations only are none. -/
theorem Edited.eq_of_listed (h : Edited listed replaces xs ys)
    (hlisted : ∀ item ∈ xs, listed item.id) : ys = xs := by
  induction h with
  | nil => rfl
  | keep _ ih => rw [ih fun item hitem => hlisted item (List.mem_cons_of_mem _ hitem)]
  | remove hunlisted _ _ => exact absurd (hlisted _ List.mem_cons_self) hunlisted
  | replace hunlisted _ _ _ => exact absurd (hlisted _ List.mem_cons_self) hunlisted

/-- Every observation has the receipt of an earlier one. -/
theorem Edited.receipt (h : Edited listed SameReceipt xs ys) {item : ObservationFact}
    (hitem : item ∈ ys) : ∃ old ∈ xs, SameReceipt old item := by
  induction h with
  | nil => cases hitem
  | keep _ ih =>
    cases List.mem_cons.mp hitem with
    | inl heq => exact ⟨item, heq ▸ List.mem_cons_self, rfl, rfl⟩
    | inr hmem =>
      obtain ⟨old, hold, hsame⟩ := ih hmem
      exact ⟨old, List.mem_cons_of_mem _ hold, hsame⟩
  | remove _ _ ih =>
    obtain ⟨old, hold, hsame⟩ := ih hitem
    exact ⟨old, List.mem_cons_of_mem _ hold, hsame⟩
  | @replace first other _ _ _ hother _ ih =>
    cases List.mem_cons.mp hitem with
    | inl heq => exact ⟨first, List.mem_cons_self, heq ▸ hother⟩
    | inr hmem =>
      obtain ⟨old, hold, hsame⟩ := ih hmem
      exact ⟨old, List.mem_cons_of_mem _ hold, hsame⟩

/-- A selection by receipt commutes with edits that keep receipts. -/
theorem Edited.filter (h : Edited listed SameReceipt xs ys) {p : ObservationFact → Bool}
    (hp : ∀ item other, SameReceipt item other → p other = p item) :
    Edited listed SameReceipt (xs.filter p) (ys.filter p) := by
  induction h with
  | nil => exact .nil
  | @keep item _ _ _ ih =>
    by_cases hitem : p item = true
    · rw [List.filter_cons_of_pos hitem, List.filter_cons_of_pos hitem]
      exact .keep ih
    · rw [List.filter_cons_of_neg hitem, List.filter_cons_of_neg hitem]
      exact ih
  | @remove item _ _ hunlisted _ ih =>
    by_cases hitem : p item = true
    · rw [List.filter_cons_of_pos hitem]
      exact .remove hunlisted ih
    · rw [List.filter_cons_of_neg hitem]
      exact ih
  | @replace item other _ _ hunlisted hother _ ih =>
    have hsame := hp item other hother
    by_cases hitem : p item = true
    · rw [List.filter_cons_of_pos hitem, List.filter_cons_of_pos (hsame.trans hitem)]
      exact .replace hunlisted hother ih
    · rw [List.filter_cons_of_neg hitem, List.filter_cons_of_neg (hsame ▸ hitem)]
      exact ih

end Edits

/-! ### What edits leave unchanged -/

section Unchanged
variable {listed : String → Prop} {xs ys : List ObservationFact}

theorem timeKey_of_sameReceipt {item other : ObservationFact} (h : SameReceipt item other) :
    timeKey (·.receivedAt) (·.id) other = timeKey (·.receivedAt) (·.id) item := by
  rw [timeKey, timeKey, h.1, h.2]

/-- A listed latest observation stays the latest one. -/
theorem Edited.firstMax_eq (h : Edited listed SameReceipt xs ys) {latest : ObservationFact}
    (hlatest : firstMax (timeKey (·.receivedAt) (·.id)) xs = some latest)
    (hlisted : listed latest.id) :
    firstMax (timeKey (·.receivedAt) (·.id)) ys = some latest := by
  have hkept := h.kept (mem_of_firstMax hlatest) hlisted
  cases hmax : firstMax (timeKey (·.receivedAt) (·.id)) ys with
  | none => simp [firstMax_eq_none.mp hmax] at hkept
  | some found =>
    obtain ⟨old, hold, hsame⟩ := h.receipt (mem_of_firstMax hmax)
    have hle : timeKey (·.receivedAt) (·.id) found ≤ timeKey (·.receivedAt) (·.id) latest := by
      rw [timeKey_of_sameReceipt hsame]
      exact le_of_firstMax hlatest hold
    have hkey := le_antisymm hle (le_of_firstMax hmax hkept)
    -- all observations of the greatest key share the listed id
    have hgroup := (h.filter fun item other hsame => by
      rw [timeKey_of_sameReceipt hsame] :
        Edited listed SameReceipt
          (xs.filter fun a => timeKey (·.receivedAt) (·.id) a = timeKey (·.receivedAt) (·.id) latest)
          (ys.filter fun a => timeKey (·.receivedAt) (·.id) a = timeKey (·.receivedAt) (·.id) latest))
    have heq := hgroup.eq_of_listed fun item hitem => by
      have hid := timeKey_refines _ _ item latest (of_decide_eq_true (List.mem_filter.mp hitem).2)
      exact hid ▸ hlisted
    have hhead := head_filter_of_firstMax hmax
    rw [hkey, heq, head_filter_of_firstMax hlatest] at hhead
    exact hhead.symm

/-- A lookback whose result is listed is the same after the edit. -/
theorem Edited.lookback_eq (h : Edited listed SameReceipt xs ys) {endAt horizon tolerance : Int}
    (hlisted : ∀ baseline ∈ lookback xs endAt horizon tolerance, listed baseline.id) :
    lookback ys endAt horizon tolerance = lookback xs endAt horizon tolerance := by
  have hfilter := h.filter (p := fun item => decide (item.receivedAt ≤ endAt - seconds horizon))
    fun item other hsame => by rw [hsame.2]
  unfold lookback at hlisted ⊢
  cases hlatest : firstMax (timeKey (·.receivedAt) (·.id))
      (xs.filter fun item => item.receivedAt ≤ endAt - seconds horizon) with
  | none =>
    rw [firstMax_eq_none.mp hlatest] at hfilter
    rw [hfilter.eq_of_listed fun item hitem => (by cases hitem)]
    rfl
  | some latest =>
    rw [hlatest] at hlisted
    by_cases hold : endAt - seconds horizon - latest.receivedAt > seconds tolerance
    · -- whatever takes its place was received no later
      cases hmax : firstMax (timeKey (·.receivedAt) (·.id))
          (ys.filter fun item => item.receivedAt ≤ endAt - seconds horizon) with
      | none => simp only [if_pos hold]
      | some found =>
        obtain ⟨old, hmem, hsame⟩ := hfilter.receipt (mem_of_firstMax hmax)
        have hle : old.receivedAt ≤ latest.receivedAt :=
          le_of_timeKey_le old latest (le_of_firstMax hlatest hmem)
        have hreceived : found.receivedAt = old.receivedAt := hsame.2
        have hfound : endAt - seconds horizon - found.receivedAt > seconds tolerance := by
          rw [hreceived]
          exact hold.trans_le (sub_le_sub_left hle _)
        simp only [if_pos hold, if_pos hfound]
    · simp only [if_neg hold] at hlisted ⊢
      simp only [hfilter.firstMax_eq hlatest (hlisted latest rfl), if_neg hold]

/-- A baseline was received within the tolerance before the start of its horizon. -/
theorem lookback_spec {endAt horizon tolerance : Int} {baseline : ObservationFact}
    (h : baseline ∈ lookback xs endAt horizon tolerance) :
    baseline ∈ xs ∧
      endAt - seconds horizon - baseline.receivedAt ≤ seconds tolerance := by
  unfold lookback at h
  cases hlatest : firstMax (timeKey (·.receivedAt) (·.id))
      (xs.filter fun item => item.receivedAt ≤ endAt - seconds horizon) with
  | none =>
    rw [hlatest] at h
    cases h
  | some latest =>
    rw [hlatest] at h
    simp only at h
    split at h
    · cases h
    · next hage =>
      cases h
      exact ⟨(List.mem_filter.mp (mem_of_firstMax hlatest)).1, not_lt.mp hage⟩

variable {F : Type} [Numerics F]

/-- The path reads the last five minutes only. -/
theorem Edited.pathPrices_eq (h : Edited listed SameReceipt xs ys) {decisionAt : Timestamp}
    (hlisted : ∀ item ∈ xs, decisionAt - seconds 300 ≤ item.receivedAt → listed item.id) :
    pathPrices ys decisionAt = (pathPrices xs decisionAt : List F) := by
  have hfilter := h.filter (p := fun item => decide (item.receivedAt ≥ decisionAt - seconds 300))
    fun item other hsame => by rw [hsame.2]
  rw [pathPrices, pathPrices, hfilter.eq_of_listed]
  intro item hitem
  obtain ⟨hmem, hwindow⟩ := List.mem_filter.mp hitem
  exact hlisted item hmem (of_decide_eq_true hwindow)

theorem lookbackStep_congr {state : TokenStateAsOf} {horizon : Int}
    (h : ∀ tolerance, lookbackToleranceTable.lookup horizon = some tolerance →
      lookback ys state.decisionAt horizon tolerance =
        lookback state.observationHistory state.decisionAt horizon tolerance)
    (acc : LookbackLoop F) :
    lookbackStep (withHistory state ys) acc horizon = lookbackStep state acc horizon := by
  unfold lookbackStep lookupSeconds
  cases htolerance : lookbackToleranceTable.lookup horizon with
  | none => rfl
  | some tolerance =>
    have hsame := h tolerance htolerance
    simp only [withHistory, ok_bind, hsame]

theorem momentumColumns_congr {state : TokenStateAsOf}
    (h : lookback ys (state.decisionAt - seconds 60) 60 30 =
      lookback state.observationHistory (state.decisionAt - seconds 60) 60 30)
    (values : Columns F) (baselines : Dict Int (Option ObservationFact)) :
    momentumColumns (withHistory state ys) values baselines =
      momentumColumns state values baselines := by
  have htolerance : lookupSeconds lookbackToleranceTable 60 = .ok 30 := rfl
  simp only [momentumColumns, withHistory, htolerance, ok_bind, h]

/-- The features read the history through lookbacks and the path only. -/
theorem buildMarketFeatures_congr (H : Hashing) {state : TokenStateAsOf}
    {contract : FeatureSetContract}
    (hlookback : ∀ horizon ∈ contract.lookbackHorizonsSeconds, ∀ tolerance,
      lookbackToleranceTable.lookup horizon = some tolerance →
        lookback ys state.decisionAt horizon tolerance =
          lookback state.observationHistory state.decisionAt horizon tolerance)
    (hprior : lookback ys (state.decisionAt - seconds 60) 60 30 =
      lookback state.observationHistory (state.decisionAt - seconds 60) 60 30)
    (hpath : pathPrices ys state.decisionAt =
      (pathPrices state.observationHistory state.decisionAt : List F)) :
    buildMarketFeatures H (withHistory state ys) contract =
      (buildMarketFeatures H state contract : Except ResearchError (FeatureResult F)) := by
  have hloop : ∀ start : LookbackLoop F,
      contract.lookbackHorizonsSeconds.foldlM (lookbackStep (withHistory state ys)) start =
        contract.lookbackHorizonsSeconds.foldlM (lookbackStep state) start := by
    generalize contract.lookbackHorizonsSeconds = horizons at hlookback
    induction horizons with
    | nil => exact fun start => rfl
    | cons horizon rest ih =>
      intro start
      rw [List.foldlM_cons, List.foldlM_cons,
        lookbackStep_congr (hlookback horizon List.mem_cons_self)]
      congr 1
      funext next
      exact ih (fun horizon hmem => hlookback horizon (List.mem_cons_of_mem _ hmem)) next
  have hpathFeatures : ∀ values : Columns F,
      pathFeatures values ys state.decisionAt =
        pathFeatures values state.observationHistory state.decisionAt := by
    intro values
    simp only [pathFeatures, hpath]
  unfold buildMarketFeatures
  simp only [hloop, momentumColumns_congr hprior]
  simp only [withHistory, hpathFeatures]
  rfl

end Unchanged

/-! ### What is recorded -/

/-- The recorded observations: the current one and, if there is one, the baselines of all horizons. -/
def RecordedInput (state : TokenStateAsOf) (contract : FeatureSetContract) (id : String) : Prop :=
  (∃ current ∈ state.currentObservation, current.id = id) ∨
    state.currentObservation.isSome ∧ ∃ horizon ∈ contract.lookbackHorizonsSeconds, ∃ tolerance,
      lookbackToleranceTable.lookup horizon = some tolerance ∧
        ∃ baseline ∈ lookback state.observationHistory state.decisionAt horizon tolerance,
          baseline.id = id

section Recorded
variable {F : Type} [Numerics F] {H : Hashing} {state : TokenStateAsOf}
  {contract : FeatureSetContract} {result : FeatureResult F}

theorem lookbackStep_inputs {acc acc' : LookbackLoop F} {horizon : Int}
    (h : lookbackStep state acc horizon = .ok acc') (id : String) :
    id ∈ acc'.inputs ↔ id ∈ acc.inputs ∨ state.currentObservation.isSome ∧ ∃ tolerance,
      lookbackToleranceTable.lookup horizon = some tolerance ∧
        ∃ baseline ∈ lookback state.observationHistory state.decisionAt horizon tolerance,
          baseline.id = id := by
  simp only [lookbackStep, lookupSeconds, bind_eq_ok, pure_eq_ok] at h
  obtain ⟨tolerance, htolerance, name, _, rfl⟩ := h
  cases hlookup : lookbackToleranceTable.lookup horizon with
  | none =>
    rw [hlookup] at htolerance
    cases htolerance
  | some known =>
    rw [hlookup] at htolerance
    cases htolerance
    by_cases hcurrent : state.currentObservation.isSome = true
    · simp [hcurrent]
    · simp [hcurrent]

theorem foldlM_inputs {horizons : List Int} {start loop : LookbackLoop F}
    (h : horizons.foldlM (lookbackStep state) start = .ok loop) (id : String) :
    id ∈ loop.inputs ↔ id ∈ start.inputs ∨ state.currentObservation.isSome ∧
      ∃ horizon ∈ horizons, ∃ tolerance, lookbackToleranceTable.lookup horizon = some tolerance ∧
        ∃ baseline ∈ lookback state.observationHistory state.decisionAt horizon tolerance,
          baseline.id = id := by
  induction horizons generalizing start with
  | nil =>
    rw [List.foldlM_nil, pure_eq_ok] at h
    simp [h]
  | cons horizon rest ih =>
    rw [List.foldlM_cons, bind_eq_ok] at h
    obtain ⟨next, hnext, hrest⟩ := h
    rw [ih hrest, lookbackStep_inputs hnext]
    simp only [List.mem_cons, or_and_right, exists_or, exists_eq_left, and_or_left, or_assoc]

theorem mem_inputObservationIds (h : buildMarketFeatures H state contract = .ok result)
    (id : String) : id ∈ result.inputObservationIds ↔ RecordedInput state contract id := by
  simp only [buildMarketFeatures, guard_eq_ok, bind_eq_ok, pure_eq_ok] at h
  obtain ⟨_, loop, hloop, _, _, _, _, _, _, _, _, _, _, rfl⟩ := h
  rw [mem_sortOn, List.mem_dedup, foldlM_inputs hloop, RecordedInput]
  simp only [Option.mem_toList, Option.mem_def, Option.map_eq_some_iff]

end Recorded

/-! ### The number of path observations -/

section Count
variable {F : Type} [Numerics F] {H : Hashing} {state : TokenStateAsOf}
  {contract : FeatureSetContract} {result : FeatureResult F}

omit [Numerics F] in
/-- A key that no write names keeps its value. -/
theorem get?_setAll_of_notMem (d : Columns F) {ws : List (String × Value F)} {column : String}
    (h : column ∉ ws.map Prod.fst) : (d.setAll ws).get? column = d.get? column := by
  refine d.get?_setAll_of_forall_ne ws column fun w hw heq => ?_
  exact h (heq ▸ List.mem_map_of_mem hw)

theorem pathFeatures_count {values values' : Columns F} {history : List ObservationFact}
    {decisionAt : Timestamp} (h : pathFeatures values history decisionAt = .ok values') :
    values'.get? "path_observation_count_5m" =
      some (.int (pathPrices history decisionAt : List F).length) := by
  simp only [pathFeatures, bind_eq_ok, pure_eq_ok] at h
  obtain ⟨_, _, _, _, _, _, _, _, _, _, rfl⟩ := h
  exact values.get?_setAll_of_mem (by simp only [List.map_cons, List.map_nil]; decide)
    List.mem_cons_self

/-- The column counts the positive prices of the path. -/
theorem path_observation_count (h : buildMarketFeatures H state contract = .ok result) :
    result.values.get? "path_observation_count_5m" =
      some (.int (pathPrices state.observationHistory state.decisionAt : List F).length) := by
  simp only [buildMarketFeatures, guard_eq_ok, bind_eq_ok, pure_eq_ok] at h
  obtain ⟨_, _, _, _, _, _, _, _, _, path, hpath, context, hcontext, rfl⟩ := h
  simp only [contextFeatures, bind_eq_ok, pure_eq_ok] at hcontext
  obtain ⟨_, _, rfl⟩ := hcontext
  rw [get?_setAll_of_notMem _ (by simp only [List.map_cons, List.map_nil]; decide),
    get?_setAll_of_notMem _ (by simp only [List.map_cons, List.map_nil]; decide),
    securityFeatures, get?_setAll_of_notMem _ (by simp only [List.map_cons, List.map_nil]; decide),
    boostFeatures, get?_setAll_of_notMem _ (by simp only [List.map_cons, List.map_nil]; decide)]
  exact pathFeatures_count hpath

theorem pathPrices_append (xs ys : List ObservationFact) (decisionAt : Timestamp) :
    (pathPrices (xs ++ ys) decisionAt : List F) =
      pathPrices xs decisionAt ++ pathPrices ys decisionAt := by
  rw [pathPrices, List.filter_append, List.filterMap_append]
  rfl

theorem length_pathPrices_split (before after : List ObservationFact) (item : ObservationFact)
    (decisionAt : Timestamp) :
    (pathPrices (before ++ item :: after) decisionAt : List F).length =
      (pathPrices (before ++ after) decisionAt : List F).length +
        (pathPrices [item] decisionAt : List F).length := by
  rw [← List.singleton_append]
  simp only [pathPrices_append, List.length_append]
  omega

theorem length_pathPrices_singleton_le (item : ObservationFact) (decisionAt : Timestamp) :
    (pathPrices [item] decisionAt : List F).length ≤ 1 := by
  rw [pathPrices]
  exact (List.length_filterMap_le _ _).trans (List.length_filter_le _ _)

/-- A recent observation of a positive price counts. -/
theorem length_pathPrices_counted {item : ObservationFact} {decisionAt : Timestamp}
    (hreceived : decisionAt - seconds 300 ≤ item.receivedAt) (hprice : item.priceUsd = some 1) :
    (pathPrices [item] decisionAt : List F).length = 1 := by
  rw [pathPrices, List.filter_eq_self.mpr (by simpa using hreceived)]
  simp [hprice]

variable {listed : String → Prop} {replaces : ObservationFact → ObservationFact → Prop}

theorem Edited.prepend (before : List ObservationFact) {xs ys : List ObservationFact}
    (h : Edited listed replaces xs ys) : Edited listed replaces (before ++ xs) (before ++ ys) := by
  induction before with
  | nil => exact h
  | cons item rest ih => exact .keep ih

/-- An unlisted observation can be edited so that the path has another length: it is removed if it
counts and replaced by one that counts if not. -/
theorem exists_changing_edit {xs : List ObservationFact} {item other : ObservationFact}
    (hitem : item ∈ xs) (hunlisted : ¬ listed item.id) (hother : replaces item other)
    {decisionAt : Timestamp} (hcounted : (pathPrices [other] decisionAt : List F).length = 1) :
    ∃ edited, Edited listed replaces xs edited ∧
      (pathPrices edited decisionAt : List F).length ≠
        (pathPrices xs decisionAt : List F).length := by
  obtain ⟨before, after, rfl⟩ := List.append_of_mem hitem
  have hone := length_pathPrices_singleton_le (F := F) item decisionAt
  by_cases hcounts : (pathPrices [item] decisionAt : List F).length = 1
  · refine ⟨before ++ after, .prepend before (.remove hunlisted (.refl after)), ?_⟩
    rw [length_pathPrices_split before after item]
    omega
  · refine ⟨before ++ other :: after, .prepend before (.replace hunlisted hother (.refl after)), ?_⟩
    rw [length_pathPrices_split before after item, length_pathPrices_split before after other]
    omega

end Count

/-! ### Provenance -/

section Provenance
variable {F : Type} [Numerics F]

/-- Whatever unlisted observations are removed or replaced, the values are the same. -/
def KeepsValues (H : Hashing) (state : TokenStateAsOf) (contract : FeatureSetContract)
    (result : FeatureResult F) (replaces : ObservationFact → ObservationFact → Prop) : Prop :=
  ∀ edited : List ObservationFact,
    Edited (· ∈ result.inputObservationIds) replaces state.observationHistory edited →
      ∃ result' : FeatureResult F,
        buildMarketFeatures H (withHistory state edited) contract = .ok result' ∧
          result'.values = result.values

variable {H : Hashing} {state : TokenStateAsOf} {contract : FeatureSetContract}
  {result : FeatureResult F}

theorem not_keepsValues_of_unlisted {replaces : ObservationFact → ObservationFact → Prop}
    (hresult : buildMarketFeatures H state contract = .ok result) {item : ObservationFact}
    (other : ObservationFact) (hitem : item ∈ state.observationHistory) (hunlisted : item.id ∉ result.inputObservationIds)
    (hother : replaces item other)
    (hcounted : (pathPrices [other] state.decisionAt : List F).length = 1) :
    ¬ KeepsValues H state contract result replaces := by
  intro hkeeps
  obtain ⟨edited, hedited, hlength⟩ := exists_changing_edit hitem hunlisted hother hcounted
  obtain ⟨result', hresult', hvalues⟩ := hkeeps edited hedited
  have hcount := path_observation_count hresult'
  rw [hvalues, path_observation_count hresult] at hcount
  simp only [Option.some.injEq, Value.int.injEq, Nat.cast_inj] at hcount
  exact hlength hcount.symm

theorem keepsValues_of_recent
    (hresult : buildMarketFeatures H state contract = .ok result)
    (hcurrent : state.currentObservation = none → state.observationHistory = [])
    (hrecent : ∀ item ∈ state.observationHistory,
      state.decisionAt - seconds 300 ≤ item.receivedAt → item.id ∈ result.inputObservationIds) :
    KeepsValues H state contract result SameReceipt := by
  intro edited hedited
  refine ⟨result, ?_, rfl⟩
  rw [buildMarketFeatures_congr H ?_ ?_ (hedited.pathPrices_eq hrecent)]
  · exact hresult
  · intro horizon hhorizon tolerance htolerance
    refine hedited.lookback_eq fun baseline hbaseline => ?_
    rw [mem_inputObservationIds hresult]
    refine .inr ⟨?_, horizon, hhorizon, tolerance, htolerance, baseline, hbaseline, rfl⟩
    cases hobserved : state.currentObservation with
    | some current => rfl
    | none =>
      rw [hcurrent hobserved] at hbaseline
      cases hbaseline
  · -- the prior start lies within the path
    refine hedited.lookback_eq fun baseline hbaseline => ?_
    obtain ⟨hmem, hreceived⟩ := lookback_spec hbaseline
    have hage : ∀ decisionAt receivedAt : Int,
        decisionAt - seconds 60 - seconds 60 - receivedAt ≤ seconds 30 →
          decisionAt - seconds 300 ≤ receivedAt := by
      intro decisionAt receivedAt h
      simp only [seconds] at h ⊢
      omega
    exact hrecent baseline hmem (hage _ _ hreceived)

/-- The feature values are insensitive to unlisted observations exactly when all observations of
the last five minutes are recorded; if receipts may be replaced too, exactly when all are. -/
theorem feature_provenance_iff {history : TokenHistory} {timestamp : Timestamp}
    {stateContract : FeatureSetContract} {allowInvalidEpoch : Bool}
    (hstate : getTokenStateAsOf H history timestamp stateContract allowInvalidEpoch = .ok state)
    (hresult : buildMarketFeatures H state contract = .ok result) :
    (KeepsValues H state contract result SameReceipt ↔
      ∀ item ∈ state.observationHistory, state.decisionAt - seconds 300 ≤ item.receivedAt →
        RecordedInput state contract item.id) ∧
    (KeepsValues H state contract result (fun _ _ => True) ↔
      ∀ item ∈ state.observationHistory, RecordedInput state contract item.id) := by
  have hcurrent : state.currentObservation = none → state.observationHistory = [] := by
    rw [(getTokenStateAsOf_eq_ok hstate).2]
    exact List.getLast?_eq_none_iff.mp
  simp only [← mem_inputObservationIds hresult]
  refine ⟨⟨?_, keepsValues_of_recent hresult hcurrent⟩, ?_, ?_⟩
  · intro hkeeps item hitem hrecent
    by_contra hunlisted
    exact not_keepsValues_of_unlisted hresult { item with priceUsd := some 1 } hitem hunlisted
      ⟨rfl, rfl⟩ (length_pathPrices_counted hrecent rfl) hkeeps
  · intro hkeeps item hitem
    by_contra hunlisted
    refine not_keepsValues_of_unlisted hresult
      { item with priceUsd := some 1, receivedAt := state.decisionAt } hitem hunlisted trivial
      (length_pathPrices_counted ?_ rfl) hkeeps
    exact sub_le_self _ (by decide)
  · intro hlisted edited hedited
    refine ⟨result, ?_, rfl⟩
    rw [hedited.eq_of_listed hlisted]
    exact hresult

end Provenance

theorem feature_provenance_admitted :
    ∃ state result, getTokenStateAsOf plainHashing admittedHistory (seconds 60) {} false = .ok state ∧
      @buildMarketFeatures ℚ exactNumerics plainHashing state {} = .ok result ∧
      (@KeepsValues ℚ exactNumerics plainHashing state {} result SameReceipt ↔
        ∀ item ∈ state.observationHistory, state.decisionAt - seconds 300 ≤ item.receivedAt →
          RecordedInput state {} item.id) ∧
      (@KeepsValues ℚ exactNumerics plainHashing state {} result (fun _ _ => True) ↔
        ∀ item ∈ state.observationHistory, RecordedInput state {} item.id) := by
  have hstate : getTokenStateAsOf plainHashing admittedHistory (seconds 60) {} false =
      .ok (tokenState admittedHistory (seconds 60) plainHashing {}) := rfl
  have hok : (@buildMarketFeatures ℚ exactNumerics plainHashing
      (tokenState admittedHistory (seconds 60) plainHashing {}) {}).isOk = true := by
    decide +kernel
  cases hresult : @buildMarketFeatures ℚ exactNumerics plainHashing
      (tokenState admittedHistory (seconds 60) plainHashing {}) {} with
  | error e =>
    rw [hresult] at hok
    cases hok
  | ok result =>
    exact ⟨_, result, hstate, hresult,
      @feature_provenance_iff ℚ exactNumerics plainHashing _ {} result admittedHistory (seconds 60)
        {} false hstate hresult⟩

/-- A token observed 200 s before the decision and at the decision. -/
def twiceObservedHistory : TokenHistory :=
  { admittedHistory with
    observations := [{ id := "o1", pairId := "pair", pairAddress := "pool",
                       receivedAt := seconds 100, priceUsd := some 1 },
                     { id := "o2", pairId := "pair", pairAddress := "pool",
                       receivedAt := seconds 300, priceUsd := some 1 }] }

def twiceObservedState : TokenStateAsOf :=
  tokenState twiceObservedHistory (seconds 300) plainHashing {}

/-- No horizon has the first observation as its baseline, but the path counts it. -/
theorem feature_provenance_incomplete :
    ¬ ∀ (H : Hashing) (history : TokenHistory) (timestamp : Timestamp)
      (contract : FeatureSetContract) (state : TokenStateAsOf) (result : FeatureResult ℚ),
      getTokenStateAsOf H history timestamp contract false = .ok state →
        @buildMarketFeatures ℚ exactNumerics H state contract = .ok result →
          @KeepsValues ℚ exactNumerics H state contract result SameReceipt := by
  intro hclaim
  have hids : ((@buildMarketFeatures ℚ exactNumerics plainHashing twiceObservedState {}).map
      (·.inputObservationIds)).toOption = some ["o2"] := by decide +kernel
  cases hresult : @buildMarketFeatures ℚ exactNumerics plainHashing twiceObservedState {} with
  | error e =>
    rw [hresult] at hids
    cases hids
  | ok result =>
    rw [hresult] at hids
    have hkeeps := hclaim plainHashing twiceObservedHistory (seconds 300) {} twiceObservedState
      result rfl hresult
    have hlisted : result.inputObservationIds = ["o2"] := Option.some.inj hids
    have hunlisted : "o1" ∉ result.inputObservationIds := by
      rw [hlisted]
      decide
    obtain ⟨result', hresult', hvalues⟩ := hkeeps _ (.remove hunlisted (.refl _))
    have hcount := @path_observation_count ℚ exactNumerics _ _ _ _ hresult'
    rw [hvalues, @path_observation_count ℚ exactNumerics _ _ _ _ hresult] at hcount
    revert hcount
    decide +kernel

end PumpResearch.Research
