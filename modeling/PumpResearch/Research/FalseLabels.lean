import PumpResearch.Library.RelatedLists
import PumpResearch.Research.LabelAgreement

/-! Labels that are FALSE although a value is missing. Completeness of a path is judged by the
times of its observations alone, so that a value that was never seen counts as no crossing. -/
namespace PumpResearch.Research
open KeyedOrder OrderedDict Numerics Results RelatedLists

/-! ### Filling in -/

/-- Replace an unknown value by a known one that is not negative, or leave it. -/
def FillsMissing (value value' : Option ℚ) : Prop :=
  match value with
  | some v => value' = some v
  | none => ∀ v ∈ value', 0 ≤ v

/-- An observation with some of its unknown values filled in. -/
structure Filled (item item' : ObservationFact) : Prop where
  same : item' = { item with priceUsd := item'.priceUsd, liquidityUsd := item'.liquidityUsd }
  price : FillsMissing item.priceUsd item'.priceUsd
  liquidity : FillsMissing item.liquidityUsd item'.liquidityUsd

/-- A later observation of the selected pair. -/
def FutureSelected (state : TokenStateAsOf) (item : ObservationFact) : Prop :=
  some item.pairId = state.selectedPairId ∧ state.decisionAt < item.receivedAt

instance decidableFutureSelected (state : TokenStateAsOf) : DecidablePred (FutureSelected state) :=
  fun item => inferInstanceAs (Decidable (some item.pairId = state.selectedPairId ∧ _))

/-- The history and the state with unknown values of the entry observation and of later
observations of the selected pair filled in. -/
structure FilledIn (history : TokenHistory) (state : TokenStateAsOf) (history' : TokenHistory)
    (state' : TokenStateAsOf) : Prop where
  sameHistory : history' = { history with observations := history'.observations }
  observations : List.Forall₂ (fun item item' => item' = item ∨
    FutureSelected state item ∧ Filled item item') history.observations history'.observations
  sameState : state' = { state with currentObservation := state'.currentObservation }
  current : Option.Rel Filled state.currentObservation state'.currentObservation

theorem FillsMissing.refl (value : Option ℚ) : FillsMissing value value := by
  cases value with
  | none => exact nofun
  | some v => rfl

theorem Filled.refl (item : ObservationFact) : Filled item item := ⟨rfl, .refl _, .refl _⟩

/-! ### Threshold labels -/

/-- A label that compares values of the path with a multiple of an entry value. -/
structure ThresholdLabel where
  front : String
  multiplier : ℚ
  upward : Bool
  skipsZero : Bool
  lastOnly : Bool
  field : ObservationFact → Option ℚ

def crossingLabel (upward : Bool) (entry : String × ℚ) : ThresholdLabel where
  front := "crossed_" ++ entry.1 ++ "_"
  multiplier := entry.2
  upward := upward
  skipsZero := true
  lastOnly := false
  field := ObservationFact.priceUsd

def collapseLabel : ThresholdLabel where
  front := "major_liquidity_collapse_"
  multiplier := 1 / 5
  upward := false
  skipsZero := false
  lastOnly := false
  field := ObservationFact.liquidityUsd

def survivalLabel : ThresholdLabel where
  front := "liquidity_survival_"
  multiplier := 1 / 2
  upward := true
  skipsZero := false
  lastOnly := true
  field := ObservationFact.liquidityUsd

def thresholdLabels : List ThresholdLabel :=
  upsideMultipliers.map (crossingLabel true) ++ downsideMultipliers.map (crossingLabel false) ++
    [collapseLabel, survivalLabel]

namespace ThresholdLabel

/-- The values of a path that the label reads. -/
def valuesOf (label : ThresholdLabel) (path : List ObservationFact) : List (Option ℚ) :=
  (if label.lastOnly then path.getLast?.toList else path).map label.field

/-- A value that the label counts. -/
def Counts (label : ThresholdLabel) (threshold value : ℚ) : Prop :=
  (label.skipsZero = true → value ≠ 0) ∧ Beyond threshold label.upward value

/-- The label sees a crossing. -/
def Crosses (F : Type) [Numerics F] (label : ThresholdLabel) (entry : Option ℚ)
    (values : List (Option ℚ)) : Prop :=
  ∃ e, entry = some e ∧ e ≠ 0 ∧ ∃ value, some value ∈ values ∧
    label.Counts (decMul F e label.multiplier) value

/-- A missing value may stand for a crossing: one beside a known entry value, or an unknown entry
value beside a value that is missing or comparable. -/
def MayCross (F : Type) [Numerics F] (label : ThresholdLabel) (entry : Option ℚ)
    (values : List (Option ℚ)) : Prop :=
  match entry with
  | some e => e ≠ 0 ∧ none ∈ values ∧ (label.upward = false →
      if label.skipsZero then 0 < decMul F e label.multiplier
      else 0 ≤ decMul F e label.multiplier)
  | none => ∃ value ∈ values, ∀ v ∈ value,
      if label.upward then 0 < v else label.skipsZero = true → v ≠ 0

end ThresholdLabel

/-- What filling in needs of Decimal products: they reach every positive value from below and
every value from above. -/
structure ScalingDecimals (F : Type) [Numerics F] : Prop where
  mul_pos : ∀ {a b : ℚ}, 0 < a → 0 < b → 0 < decMul F a b
  small : ∀ {value m : ℚ}, 0 < value → 0 < m → ∃ e, 0 < e ∧ decMul F e m ≤ value
  large : ∀ (value : ℚ) {m : ℚ}, 0 < m → ∃ e, 0 < e ∧ value ≤ decMul F e m

section Fill
variable {F : Type} [Numerics F] {label : ThresholdLabel} {entry entry' : Option ℚ}
  {values values' : List (Option ℚ)}

/-- What filling in brings about, the label saw before or a missing value could stand for. -/
theorem crosses_of_filled (scaling : ScalingDecimals F) (hm : 0 < label.multiplier)
    (hentry : FillsMissing entry entry') (hvalues : List.Forall₂ FillsMissing values values')
    (h : label.Crosses F entry' values') :
    label.Crosses F entry values ∨ label.MayCross F entry values := by
  obtain ⟨e, he, hne, value, hmem, hcounts⟩ := h
  obtain ⟨old, hold, hfills⟩ := exists_related_left hvalues hmem
  cases entry with
  | some known =>
    have hsame : entry' = some known := hentry
    cases hsame.symm.trans he
    cases old with
    | some v =>
      cases hfills
      exact .inl ⟨e, rfl, hne, value, hold, hcounts⟩
    | none =>
      refine .inr ⟨hne, hold, fun hdown => ?_⟩
      have hnonneg : 0 ≤ value := hfills value rfl
      have hle : value ≤ decMul F e label.multiplier := by
        simpa [ThresholdLabel.Counts, Beyond, hdown] using hcounts.2
      by_cases hskip : label.skipsZero = true
      · have hpos : 0 < value := lt_of_le_of_ne hnonneg (hcounts.1 hskip).symm
        simpa [hskip] using hpos.trans_le hle
      · simpa [hskip] using hnonneg.trans hle
  | none =>
    have hpos : 0 < e := lt_of_le_of_ne (hentry e he) hne.symm
    refine .inr ⟨old, hold, fun v hv => ?_⟩
    cases hv
    cases hfills
    by_cases hup : label.upward = true
    · have hle : decMul F e label.multiplier ≤ value := by
        simpa [Beyond, hup] using hcounts.2
      simpa [hup] using (scaling.mul_pos hpos hm).trans_le hle
    · simpa [hup] using hcounts.1

/-- A missing value that could stand for a crossing can be filled in so that it does. -/
theorem filled_of_mayCross (scaling : ScalingDecimals F) (hm : 0 < label.multiplier)
    (h : label.MayCross F entry values) :
    ∃ e v : ℚ, 0 ≤ e ∧ 0 ≤ v ∧
      label.Crosses F (some (entry.getD e)) (values.map fun value => some (value.getD v)) := by
  cases entry with
  | some e =>
    obtain ⟨hne, hmissing, hdown⟩ := h
    have hvalue : ∃ v, 0 ≤ v ∧ label.Counts (decMul F e label.multiplier) v := by
      by_cases hup : label.upward = true
      · refine ⟨|decMul F e label.multiplier| + 1, by positivity, fun _ => by positivity, ?_⟩
        simp only [Beyond, hup, if_true]
        linarith [le_abs_self (decMul F e label.multiplier)]
      · have hbound := hdown (by simpa using hup)
        by_cases hskip : label.skipsZero = true
        · rw [if_pos hskip] at hbound
          exact ⟨_, hbound.le, fun _ => hbound.ne', by simp [Beyond, hup]⟩
        · rw [if_neg hskip] at hbound
          exact ⟨_, hbound, fun h => absurd h hskip, by simp [Beyond, hup]⟩
    obtain ⟨v, hv, hcounts⟩ := hvalue
    exact ⟨0, v, le_rfl, hv, e, rfl, hne, v, List.mem_map.mpr ⟨none, hmissing, rfl⟩, hcounts⟩
  | none =>
    obtain ⟨value, hmem, hcomparable⟩ := h
    cases value with
    | none =>
      have hpos := scaling.mul_pos one_pos hm
      refine ⟨1, decMul F 1 label.multiplier, zero_le_one, hpos.le, 1, rfl, one_ne_zero, _,
        List.mem_map.mpr ⟨none, hmem, rfl⟩, fun _ => hpos.ne', ?_⟩
      cases hup : label.upward with
      | true => simp [Beyond]
      | false => simp [Beyond]
    | some known =>
      have hknown := hcomparable known rfl
      by_cases hup : label.upward = true
      · rw [if_pos hup] at hknown
        obtain ⟨e, hpos, hle⟩ := scaling.small hknown hm
        exact ⟨e, 0, hpos.le, le_rfl, e, rfl, hpos.ne', known,
          List.mem_map.mpr ⟨some known, hmem, rfl⟩, fun _ => hknown.ne', by simpa [Beyond, hup]⟩
      · rw [if_neg hup] at hknown
        obtain ⟨e, hpos, hle⟩ := scaling.large known hm
        exact ⟨e, 0, hpos.le, le_rfl, e, rfl, hpos.ne', known,
          List.mem_map.mpr ⟨some known, hmem, rfl⟩, hknown, by simpa [Beyond, hup]⟩

end Fill

/-! ### The columns of threshold labels -/

section Columns
variable {F : Type} [Numerics F]

omit [Numerics F] in
theorem truthy_any {value : Option ℚ} {p : ℚ → Bool} :
    (truthy value).any p = true ↔ ∃ v, value = some v ∧ v ≠ 0 ∧ p v = true := by
  cases value with
  | none => simp [truthy]
  | some v =>
    by_cases hzero : v = 0
    · simp [truthy, hzero]
    · simp [truthy, hzero]

theorem crossed_iff_crosses {path : List ObservationFact} {base : Option ℚ} {upward : Bool}
    (entry : String × ℚ) :
    crossed (F := F) path base entry.2 upward = true ↔
      (crossingLabel upward entry).Crosses F base ((crossingLabel upward entry).valuesOf path) := by
  have hvalues : ∀ value : ℚ, some value ∈ (crossingLabel upward entry).valuesOf path ↔
      ∃ item ∈ path, item.priceUsd = some value := by
    simp [ThresholdLabel.valuesOf, crossingLabel]
  unfold crossed ThresholdLabel.Crosses
  simp only [truthy_any, List.any_eq_true, hvalues]
  constructor
  · intro h
    obtain ⟨e, he, hne, item, hitem, value, hvalue, hzero, hbeyond⟩ := h
    refine ⟨e, he, hne, value, ⟨item, hitem, hvalue⟩, fun _ => hzero, ?_⟩
    cases upward with
    | true =>
      have hle : decMul F e entry.2 ≤ value := of_decide_eq_true hbeyond
      exact hle
    | false =>
      have hle : value ≤ decMul F e entry.2 := of_decide_eq_true hbeyond
      exact hle
  · intro h
    obtain ⟨e, he, hne, value, ⟨item, hitem, hvalue⟩, hzero, hbeyond⟩ := h
    refine ⟨e, he, hne, item, hitem, value, hvalue, hzero rfl, ?_⟩
    cases upward with
    | true => exact decide_eq_true hbeyond
    | false => exact decide_eq_true hbeyond

theorem liquidityCollapsed_iff_crosses {path : List ObservationFact}
    {current : Option ObservationFact} :
    liquidityCollapsed F current path = true ↔
      collapseLabel.Crosses F (current.bind (·.liquidityUsd)) (collapseLabel.valuesOf path) := by
  have hvalues : ∀ value : ℚ, some value ∈ collapseLabel.valuesOf path ↔
      value ∈ path.filterMap (·.liquidityUsd) := by
    simp [ThresholdLabel.valuesOf, collapseLabel]
  unfold liquidityCollapsed ThresholdLabel.Crosses
  simp only [truthy_any, List.any_eq_true, hvalues, decide_eq_true_eq]
  constructor
  · intro h
    obtain ⟨e, he, hne, value, hvalue, hle⟩ := h
    exact ⟨e, he, hne, value, hvalue, nofun, hle⟩
  · intro h
    obtain ⟨e, he, hne, value, hvalue, _, hle⟩ := h
    exact ⟨e, he, hne, value, hvalue, hle⟩

theorem liquiditySurvived_iff_crosses {path : List ObservationFact}
    {current : Option ObservationFact} :
    liquiditySurvived F current path = true ↔
      survivalLabel.Crosses F (current.bind (·.liquidityUsd)) (survivalLabel.valuesOf path) := by
  have hvalues : ∀ value : ℚ, some value ∈ survivalLabel.valuesOf path ↔
      path.getLast?.bind (·.liquidityUsd) = some value := by
    intro value
    cases hlast : path.getLast? with
    | none => simp [ThresholdLabel.valuesOf, survivalLabel, hlast]
    | some last => simp [ThresholdLabel.valuesOf, survivalLabel, hlast, eq_comm]
  unfold liquiditySurvived ThresholdLabel.Crosses
  simp only [truthy_any, hvalues]
  constructor
  · intro h
    obtain ⟨e, he, hne, hany⟩ := h
    obtain ⟨value, hvalue, hreached⟩ := (Option.any_eq_true ..).mp hany
    have hle : decMul F e (1 / 2) ≤ value := of_decide_eq_true hreached
    exact ⟨e, he, hne, value, hvalue, nofun, hle⟩
  · intro h
    obtain ⟨e, he, hne, value, hvalue, _, hle⟩ := h
    exact ⟨e, he, hne, (Option.any_eq_true ..).mpr ⟨value, hvalue, decide_eq_true hle⟩⟩

/-- A threshold label is the column of its front. -/
theorem thresholdLabel_column {label : ThresholdLabel} (hlabel : label ∈ thresholdLabels)
    (name : String) (current : Option ObservationFact) (path : List ObservationFact)
    (complete : Bool) :
    ∃ holds : Bool, (label.front ++ name, Value.text (tri holds complete)) ∈
        (pathColumns name current path complete : List (String × Value F)) ∧
      (holds = true ↔ label.Crosses F (current.bind label.field) (label.valuesOf path)) := by
  simp only [thresholdLabels, List.mem_append, List.mem_map, List.mem_cons, List.not_mem_nil,
    or_false] at hlabel
  cases hlabel with
  | inl hlabel =>
    cases hlabel with
    | inl hlabel =>
      obtain ⟨entry, hentry, rfl⟩ := hlabel
      refine ⟨_, ?_, crossed_iff_crosses entry⟩
      simp only [pathColumns, List.mem_append, List.mem_map]
      exact .inl (.inl (.inr ⟨entry, hentry, rfl⟩))
    | inr hlabel =>
      obtain ⟨entry, hentry, rfl⟩ := hlabel
      refine ⟨_, ?_, crossed_iff_crosses entry⟩
      simp only [pathColumns, List.mem_append, List.mem_map]
      exact .inl (.inr ⟨entry, hentry, rfl⟩)
  | inr hlabel =>
    cases hlabel with
    | inl hlabel =>
      rw [hlabel]
      exact ⟨_, by simp [pathColumns, collapseLabel], liquidityCollapsed_iff_crosses⟩
    | inr hlabel =>
      rw [hlabel]
      exact ⟨_, by simp [pathColumns, survivalLabel], liquiditySurvived_iff_crosses⟩

end Columns

/-! ### The same times -/

section Times
variable {R : ObservationFact → ObservationFact → Prop}

/-- Observations at the same times of the same pairs. -/
def SameTimes (item item' : ObservationFact) : Prop :=
  item'.id = item.id ∧ item'.pairId = item.pairId ∧ item'.receivedAt = item.receivedAt

variable {history history' : TokenHistory} {state state' : TokenStateAsOf}

theorem future_related (hR : ∀ a b, R a b → SameTimes a b)
    (hpair : state'.selectedPairId = state.selectedPairId)
    (hdecision : state'.decisionAt = state.decisionAt)
    (h : List.Forall₂ R history.observations history'.observations) :
    List.Forall₂ R (futureObservations history state) (futureObservations history' state') := by
  unfold futureObservations
  rw [hpair, hdecision]
  apply sortOn_related
  · intro a b hab
    obtain ⟨hid, _, htime⟩ := hR a b hab
    rw [timeKey, timeKey, hid, htime]
  · refine List.rel_filter (fun a b hab => ?_) h
    obtain ⟨_, hpair, htime⟩ := hR a b hab
    simp only [hpair, htime]

theorem pathAt_related (hR : ∀ a b, R a b → SameTimes a b)
    (hpair : state'.selectedPairId = state.selectedPairId)
    (hdecision : state'.decisionAt = state.decisionAt)
    (h : List.Forall₂ R history.observations history'.observations) (horizon : Int) :
    List.Forall₂ R (pathAt history state horizon) (pathAt history' state' horizon) := by
  unfold pathAt horizonPath
  rw [hdecision]
  refine List.rel_filter (fun a b hab => ?_) (future_related hR hpair hdecision h)
  obtain ⟨_, _, htime⟩ := hR a b hab
  simp only [htime]

/-- Completeness is judged by times alone. -/
theorem completeAt_related {F : Type} [Numerics F] (hR : ∀ a b, R a b → SameTimes a b)
    (hpair : state'.selectedPairId = state.selectedPairId)
    (hdecision : state'.decisionAt = state.decisionAt)
    (hcurrent : Option.Rel SameTimes state.currentObservation state'.currentObservation)
    (h : List.Forall₂ R history.observations history'.observations) (horizon : Int) :
    completeAt F history' state' horizon = completeAt F history state horizon := by
  have htimes : (pathAt history state horizon).map (·.receivedAt) =
      (pathAt history' state' horizon).map (·.receivedAt) :=
    map_eq_of_forall₂ (pathAt_related hR hpair hdecision h horizon)
      fun a b hab => (hR a b hab).2.2.symm
  have hend : (endpointAt history' state' horizon).isSome =
      (endpointAt history state horizon).isSome := by
    have hfuture : (futureObservations history state).map (·.receivedAt) =
        (futureObservations history' state').map (·.receivedAt) :=
      map_eq_of_forall₂ (future_related hR hpair hdecision h) fun a b hab => (hR a b hab).2.2.symm
    have hany : ∀ items : List ObservationFact, (endpoint items state.decisionAt horizon
        (forwardTolerance horizon)).isSome = (items.map (·.receivedAt)).any fun time =>
          decide (state.decisionAt + seconds horizon ≤ time) &&
            decide (time ≤ state.decisionAt + seconds horizon +
              seconds (forwardTolerance horizon)) := by
      intro items
      rw [endpoint, List.isSome_find?, List.any_map]
      rfl
    unfold endpointAt
    rw [hdecision, hany, hany, hfuture]
  have hcomplete : pathComplete (F := F) state'.currentObservation
      (pathAt history' state' horizon) horizon =
      pathComplete (F := F) state.currentObservation (pathAt history state horizon) horizon := by
    unfold pathComplete
    rw [← htimes]
    generalize state.currentObservation = current at hcurrent
    generalize state'.currentObservation = current' at hcurrent
    cases hcurrent with
    | some hsame =>
      dsimp only
      rw [hsame.2.2]
    | none => rfl
  unfold completeAt
  rw [hend, hcomplete]

end Times

/-! ### FALSE labels -/

section Backed
variable (F : Type) [Numerics F] (H : Hashing) (history : TokenHistory) (state : TokenStateAsOf)
  (contract : LabelSetContract)

/-- No label that is FALSE becomes TRUE when unknown values are filled in. -/
def FalseIsBacked : Prop :=
  ∀ result : LabelResult F, buildOutcomeLabels H history state contract = .ok result →
    ∀ history' state', FilledIn history state history' state' →
    ∀ result' : LabelResult F, buildOutcomeLabels H history' state' contract = .ok result' →
    ∀ horizon ∈ contract.horizonsSeconds, ∀ label ∈ thresholdLabels,
      result.values.get? (label.front ++ horizonName horizon) = some (.text "FALSE") →
      result'.values.get? (label.front ++ horizonName horizon) ≠ some (.text "TRUE")

/-- On complete paths a missing value may stand for a crossing only where one was seen. -/
def MissingIsHarmless : Prop :=
  ∀ horizon ∈ contract.horizonsSeconds, completeAt F history state horizon = true →
    ∀ label ∈ thresholdLabels,
      label.MayCross F (state.currentObservation.bind label.field)
        (label.valuesOf (pathAt history state horizon)) →
      label.Crosses F (state.currentObservation.bind label.field)
        (label.valuesOf (pathAt history state horizon))

end Backed

theorem Filled.sameTimes {item item' : ObservationFact} (h : Filled item item') :
    SameTimes item item' := by
  rw [h.same]
  exact ⟨rfl, rfl, rfl⟩

theorem tri_eq_false {value complete : Bool} :
    tri value complete = "FALSE" ↔ value = false ∧ complete = true := by
  cases value with
  | true => simp [tri]
  | false => cases complete <;> simp [tri]

/-- The fields that threshold labels compare. -/
theorem thresholdLabel_spec {label : ThresholdLabel} (h : label ∈ thresholdLabels) :
    0 < label.multiplier ∧
      (label.field = ObservationFact.priceUsd ∨ label.field = ObservationFact.liquidityUsd) := by
  simp only [thresholdLabels, List.mem_append, List.mem_map, List.mem_cons, List.not_mem_nil,
    or_false] at h
  cases h with
  | inl h =>
    cases h with
    | inl h =>
      obtain ⟨entry, hentry, rfl⟩ := h
      have hmem : entry ∈ multipliers true := hentry
      exact ⟨multipliers_pos hmem, .inl rfl⟩
    | inr h =>
      obtain ⟨entry, hentry, rfl⟩ := h
      have hmem : entry ∈ multipliers false := hentry
      exact ⟨multipliers_pos hmem, .inl rfl⟩
  | inr h =>
    cases h with
    | inl h =>
      rw [h]
      exact ⟨by norm_num [collapseLabel], .inr rfl⟩
    | inr h =>
      rw [h]
      exact ⟨by norm_num [survivalLabel], .inr rfl⟩

theorem Filled.field {label : ThresholdLabel} (hlabel : label ∈ thresholdLabels)
    {item item' : ObservationFact} (h : Filled item item') :
    FillsMissing (label.field item) (label.field item') := by
  cases (thresholdLabel_spec hlabel).2 with
  | inl hfield =>
    rw [hfield]
    exact h.price
  | inr hfield =>
    rw [hfield]
    exact h.liquidity

section Filling
variable {history history' : TokenHistory} {state state' : TokenStateAsOf}

theorem FilledIn.related (h : FilledIn history state history' state') :
    List.Forall₂ Filled history.observations history'.observations := by
  refine h.observations.imp ?_
  intro item item' hrelated
  cases hrelated with
  | inl heq =>
    rw [heq]
    exact .refl item
  | inr hfilled => exact hfilled.2

theorem FilledIn.path (h : FilledIn history state history' state') (horizon : Int) :
    List.Forall₂ Filled (pathAt history state horizon) (pathAt history' state' horizon) := by
  have hpair : state'.selectedPairId = state.selectedPairId := by rw [h.sameState]
  have hdecision : state'.decisionAt = state.decisionAt := by rw [h.sameState]
  exact pathAt_related (fun _ _ hfilled => hfilled.sameTimes) hpair hdecision h.related horizon

theorem related_last {R : ObservationFact → ObservationFact → Prop} {xs ys : List ObservationFact}
    (h : List.Forall₂ R xs ys) : List.Forall₂ R xs.getLast?.toList ys.getLast?.toList := by
  rw [List.getLast?_eq_head?_reverse, List.getLast?_eq_head?_reverse]
  have hreverse := List.forall₂_reverse_iff.mpr h
  generalize xs.reverse = xs' at hreverse
  generalize ys.reverse = ys' at hreverse
  cases hreverse with
  | nil => exact .nil
  | cons hhead _ => exact .cons hhead .nil

/-- What filling in does to what a label reads. -/
theorem FilledIn.values (h : FilledIn history state history' state') {label : ThresholdLabel}
    (hlabel : label ∈ thresholdLabels) (horizon : Int) :
    FillsMissing (state.currentObservation.bind label.field)
        (state'.currentObservation.bind label.field) ∧
      List.Forall₂ FillsMissing (label.valuesOf (pathAt history state horizon))
        (label.valuesOf (pathAt history' state' horizon)) := by
  constructor
  · have hcurrent := h.current
    generalize state.currentObservation = current at hcurrent
    generalize state'.currentObservation = current' at hcurrent
    cases hcurrent with
    | some hfilled => exact hfilled.field hlabel
    | none => exact .refl none
  · unfold ThresholdLabel.valuesOf
    rw [List.forall₂_map_left_iff, List.forall₂_map_right_iff]
    have hpath := h.path horizon
    have hread : List.Forall₂ Filled
        (if label.lastOnly then (pathAt history state horizon).getLast?.toList
          else pathAt history state horizon)
        (if label.lastOnly then (pathAt history' state' horizon).getLast?.toList
          else pathAt history' state' horizon) := by
      by_cases hlast : label.lastOnly = true
      · rw [if_pos hlast, if_pos hlast]
        exact related_last hpath
      · rw [if_neg hlast, if_neg hlast]
        exact hpath
    exact hread.imp fun _ _ hfilled => hfilled.field hlabel

theorem FilledIn.complete (F : Type) [Numerics F] (h : FilledIn history state history' state')
    (horizon : Int) : completeAt F history' state' horizon = completeAt F history state horizon := by
  have hpair : state'.selectedPairId = state.selectedPairId := by rw [h.sameState]
  have hdecision : state'.decisionAt = state.decisionAt := by rw [h.sameState]
  have hcurrent : Option.Rel SameTimes state.currentObservation state'.currentObservation := by
    have hfilled := h.current
    generalize state.currentObservation = current at hfilled
    generalize state'.currentObservation = current' at hfilled
    cases hfilled with
    | some hfilled => exact .some hfilled.sameTimes
    | none => exact .none
  exact completeAt_related (fun _ _ hfilled => hfilled.sameTimes) hpair hdecision hcurrent
    h.related horizon

/-! ### Filling in everything -/

/-- An observation whose unknown price and liquidity are one value. -/
def fillWith (value : ℚ) (item : ObservationFact) : ObservationFact :=
  { item with
    priceUsd := some (item.priceUsd.getD value)
    liquidityUsd := some (item.liquidityUsd.getD value) }

theorem fillsMissing_getD {value : Option ℚ} {v : ℚ} (hv : 0 ≤ v) :
    FillsMissing value (some (value.getD v)) := by
  cases value with
  | some known => rfl
  | none =>
    intro u hu
    cases hu
    exact hv

theorem filled_fillWith {v : ℚ} (hv : 0 ≤ v) (item : ObservationFact) :
    Filled item (fillWith v item) := ⟨rfl, fillsMissing_getD hv, fillsMissing_getD hv⟩

def historyWith (state : TokenStateAsOf) (v : ℚ) (history : TokenHistory) : TokenHistory :=
  { history with observations := history.observations.map fun item =>
      if FutureSelected state item then fillWith v item else item }

def stateWith (e : ℚ) (state : TokenStateAsOf) : TokenStateAsOf :=
  { state with currentObservation := state.currentObservation.map (fillWith e) }

theorem filledIn_with {e v : ℚ} (he : 0 ≤ e) (hv : 0 ≤ v) (history : TokenHistory)
    (state : TokenStateAsOf) :
    FilledIn history state (historyWith state v history) (stateWith e state) where
  sameHistory := rfl
  observations := by
    unfold historyWith
    rw [List.forall₂_map_right_iff, List.forall₂_same]
    intro item _
    by_cases hfuture : FutureSelected state item
    · rw [if_pos hfuture]
      exact .inr ⟨hfuture, filled_fillWith hv item⟩
    · rw [if_neg hfuture]
      exact .inl rfl
  sameState := rfl
  current := by
    unfold stateWith
    cases state.currentObservation with
    | some current => exact .some (filled_fillWith he current)
    | none => exact .none

theorem pathAt_with (e v : ℚ) (history : TokenHistory) (state : TokenStateAsOf) (horizon : Int) :
    pathAt (historyWith state v history) (stateWith e state) horizon =
      (pathAt history state horizon).map (fillWith v) := by
  have hrelated : List.Forall₂ (fun item item' =>
      item' = if FutureSelected state item then fillWith v item else item)
      (pathAt history state horizon)
      (pathAt (historyWith state v history) (stateWith e state) horizon) := by
    refine pathAt_related ?_ rfl rfl ?_ horizon
    · intro item item' heq
      rw [heq]
      by_cases hfuture : FutureSelected state item
      · rw [if_pos hfuture]
        exact ⟨rfl, rfl, rfl⟩
      · rw [if_neg hfuture]
        exact ⟨rfl, rfl, rfl⟩
    · unfold historyWith
      rw [List.forall₂_map_right_iff, List.forall₂_same]
      exact fun _ _ => rfl
  have hmap := map_eq_of_forall₂ (g := fun item => item) hrelated fun _ _ heq => heq.symm
  rw [List.map_id'] at hmap
  rw [← hmap]
  apply List.map_congr_left
  intro item hitem
  obtain ⟨_, hpair, hafter, _⟩ := mem_pathAt.mp hitem
  rw [if_pos ⟨hpair, hafter⟩]

theorem field_fillWith {label : ThresholdLabel} (hlabel : label ∈ thresholdLabels) (v : ℚ)
    (item : ObservationFact) :
    label.field (fillWith v item) = some ((label.field item).getD v) := by
  cases (thresholdLabel_spec hlabel).2 with
  | inl hfield => rw [hfield, fillWith]
  | inr hfield => rw [hfield, fillWith]

theorem valuesOf_map_fillWith {label : ThresholdLabel} (hlabel : label ∈ thresholdLabels) (v : ℚ)
    (path : List ObservationFact) :
    label.valuesOf (path.map (fillWith v)) =
      (label.valuesOf path).map fun value => some (value.getD v) := by
  unfold ThresholdLabel.valuesOf
  by_cases hlast : label.lastOnly = true
  · rw [if_pos hlast, if_pos hlast, List.getLast?_map]
    cases path.getLast? with
    | none => rfl
    | some last => simp [field_fillWith hlabel]
  · rw [if_neg hlast, if_neg hlast, List.map_map, List.map_map]
    exact List.map_congr_left fun item _ => field_fillWith hlabel v item

end Filling

section Main
variable {F : Type} [Numerics F] (scaling : ScalingDecimals F) {H : Hashing}
  {history : TokenHistory} {state : TokenStateAsOf} {contract : LabelSetContract}
include scaling

/-- Where missing values are not harmless, they can be filled in against a FALSE label. -/
theorem harmless_of_backed (hne : contract.horizonsSeconds ≠ [])
    (hknown : ∀ horizon ∈ contract.horizonsSeconds, horizon ∈ labelHorizonsSeconds)
    (h : FalseIsBacked F H history state contract) : MissingIsHarmless F history state contract := by
  intro horizon hhorizon hcomplete label hlabel hmay
  by_contra hunseen
  obtain ⟨e, v, he, hv, hcrosses⟩ :=
    filled_of_mayCross scaling (thresholdLabel_spec hlabel).1 hmay
  obtain ⟨result, hresult⟩ := buildOutcomeLabels_total (F := F) H history state contract hne hknown
  obtain ⟨result', hresult'⟩ := buildOutcomeLabels_total (F := F) H (historyWith state v history)
    (stateWith e state) contract hne hknown
  obtain ⟨hcolumns, _⟩ := buildOutcomeLabels_eq_ok hresult
  obtain ⟨hcolumns', _⟩ := buildOutcomeLabels_eq_ok hresult'
  obtain ⟨holds, hcolumn, hholds⟩ := thresholdLabel_column (F := F) hlabel (horizonName horizon)
    state.currentObservation (pathAt history state horizon) (completeAt F history state horizon)
  obtain ⟨holds', hcolumn', hholds'⟩ := thresholdLabel_column (F := F) hlabel
    (horizonName horizon) (stateWith e state).currentObservation
    (pathAt (historyWith state v history) (stateWith e state) horizon)
    (completeAt F (historyWith state v history) (stateWith e state) horizon)
  have hfalse : holds = false := by simpa [hunseen] using hholds
  have hentry : (stateWith e state).currentObservation.bind label.field =
      some ((state.currentObservation.bind label.field).getD e) := by
    cases hcurrent : state.currentObservation with
    | none => simp [completeAt, pathComplete, hcurrent] at hcomplete
    | some current =>
      rw [stateWith, hcurrent]
      exact field_fillWith hlabel e current
  have htrue : holds' = true := by
    rw [hholds', hentry, pathAt_with, valuesOf_map_fillWith hlabel]
    exact hcrosses
  refine h result hresult _ _ (filledIn_with he hv history state) result' hresult' horizon
    hhorizon label hlabel ?_ ?_
  · rw [(hcolumns horizon hhorizon).2 _ hcolumn, hfalse, hcomplete]
    rfl
  · rw [(hcolumns' horizon hhorizon).2 _ hcolumn', htrue]
    rfl

theorem backed_of_harmless (h : MissingIsHarmless F history state contract) :
    FalseIsBacked F H history state contract := by
  intro result hresult history' state' hfilled result' hresult' horizon hhorizon label hlabel
    hfalse htrue
  obtain ⟨hcolumns, _⟩ := buildOutcomeLabels_eq_ok hresult
  obtain ⟨hcolumns', _⟩ := buildOutcomeLabels_eq_ok hresult'
  obtain ⟨holds, hcolumn, hholds⟩ := thresholdLabel_column (F := F) hlabel (horizonName horizon)
    state.currentObservation (pathAt history state horizon) (completeAt F history state horizon)
  obtain ⟨holds', hcolumn', hholds'⟩ := thresholdLabel_column (F := F) hlabel
    (horizonName horizon) state'.currentObservation (pathAt history' state' horizon)
    (completeAt F history' state' horizon)
  rw [(hcolumns horizon hhorizon).2 _ hcolumn, Option.some.injEq, Value.text.injEq,
    tri_eq_false] at hfalse
  rw [(hcolumns' horizon hhorizon).2 _ hcolumn', Option.some.injEq, Value.text.injEq,
    tri_eq_true] at htrue
  obtain ⟨hentry, hvalues⟩ := hfilled.values hlabel horizon
  have hseen : label.Crosses F (state.currentObservation.bind label.field)
      (label.valuesOf (pathAt history state horizon)) :=
    (crosses_of_filled scaling (thresholdLabel_spec hlabel).1 hentry hvalues
      (hholds'.mp htrue)).elim id (h horizon hhorizon hfalse.2 label hlabel)
  rw [hholds.mpr hseen] at hfalse
  cases hfalse.1


end Main

/-- FALSE labels are backed exactly when missing values are harmless. -/
theorem false_is_backed_iff (F : Type) [Numerics F] (scaling : ScalingDecimals F) (H : Hashing)
    (history : TokenHistory) (state : TokenStateAsOf) (contract : LabelSetContract)
    (hne : contract.horizonsSeconds ≠ [])
    (hknown : ∀ horizon ∈ contract.horizonsSeconds, horizon ∈ labelHorizonsSeconds) :
    FalseIsBacked F H history state contract ↔ MissingIsHarmless F history state contract :=
  ⟨harmless_of_backed scaling hne hknown, backed_of_harmless scaling⟩

/-- Known values do no harm. -/
theorem harmless_of_known {F : Type} [Numerics F] {history : TokenHistory} {state : TokenStateAsOf}
    {contract : LabelSetContract}
    (h : ∀ horizon ∈ contract.horizonsSeconds, ∀ label ∈ thresholdLabels,
      state.currentObservation.bind label.field ≠ none ∧
        none ∉ label.valuesOf (pathAt history state horizon)) :
    MissingIsHarmless F history state contract := by
  intro horizon hhorizon _ label hlabel hmay
  obtain ⟨hentry, hvalues⟩ := h horizon hhorizon label hlabel
  cases hfield : state.currentObservation.bind label.field with
  | none => exact absurd hfield hentry
  | some e =>
    rw [hfield] at hmay
    exact absurd hmay.2.1 hvalues

theorem scalingDecimals_exact : @ScalingDecimals ℚ exactNumerics :=
  @ScalingDecimals.mk ℚ exactNumerics (fun ha hb => mul_pos ha hb)
    (fun hvalue hm => ⟨_, div_pos hvalue hm, (div_mul_cancel₀ _ hm.ne').le⟩)
    (fun value m hm => ⟨(|value| + 1) / m, by positivity, by
      have hle : value ≤ (|value| + 1) / m * m := by
        rw [div_mul_cancel₀ _ hm.ne']
        linarith [le_abs_self value]
      exact hle⟩)

theorem false_is_backed_rising :
    let state := stateAtZero (pairAt "entry" 0 (some 1) (some 100))
    @FalseIsBacked ℚ exactNumerics plainHashing risingHistory state {} :=
  (@false_is_backed_iff ℚ exactNumerics scalingDecimals_exact plainHashing risingHistory _ {}
    (by decide) (by decide)).mpr (@harmless_of_known ℚ exactNumerics _ _ _ (by decide +kernel))

/-- A token without an entry price, priced 1 at 35 s. -/
def unpricedHistory : TokenHistory :=
  observedHistory [pairAt "entry" 0 none (some 100), pairAt "first" 35 (some 1) (some 100)]

/-- At an entry price of a hundredth the FALSE crossing labels would be TRUE. -/
theorem unpriced_entry_is_not_backed :
    ¬ ∀ (F : Type) (_ : Numerics F), ScalingDecimals F → ∀ (H : Hashing) (history : TokenHistory)
      (state : TokenStateAsOf) (contract : LabelSetContract), contract.horizonsSeconds ≠ [] →
      (∀ horizon ∈ contract.horizonsSeconds, horizon ∈ labelHorizonsSeconds) →
      FalseIsBacked F H history state contract := by
  intro h
  let state := stateAtZero (pairAt "entry" 0 none (some 100))
  have hbacked := h ℚ exactNumerics scalingDecimals_exact plainHashing unpricedHistory state {}
    (by decide) (by decide)
  have hharmless := @harmless_of_backed ℚ exactNumerics scalingDecimals_exact plainHashing
    unpricedHistory state {} (by decide) (by decide) hbacked
  have hlabel : crossingLabel true ("2x", 2) ∈ thresholdLabels := by
    simp [thresholdLabels, upsideMultipliers]
  have hcrosses := hharmless 30 (by decide) (by decide +kernel) (crossingLabel true ("2x", 2))
    hlabel ⟨some 1, by decide +kernel, by decide +kernel⟩
  obtain ⟨e, he, _⟩ := hcrosses
  cases he

end PumpResearch.Research
