import PumpResearch.Library.Results
import PumpResearch.Research.Labels

/-! Which observations the labels of a row use, against the label range of its split. -/
namespace PumpResearch.Research
open KeyedOrder OrderedDict Results
variable {F : Type} [Numerics F]

/-- What one horizon uses: its endpoint and its path. -/
def usedAt (history : TokenHistory) (state : TokenStateAsOf) (horizon : Int) :
    List ObservationFact :=
  match labelForwardToleranceTable.lookup horizon with
  | some tolerance =>
    (endpoint (futureObservations history state) state.decisionAt horizon tolerance).toList ++
      horizonPath (futureObservations history state) state.decisionAt horizon tolerance
  | none => []

/-- The observations whose ids `build_outcome_labels` returns. -/
def usedObservations (history : TokenHistory) (state : TokenStateAsOf)
    (contract : LabelSetContract) : List ObservationFact :=
  contract.horizonsSeconds.flatMap (usedAt history state)

theorem labelStep_used {contract : LabelSetContract} {history : TokenHistory}
    {state : TokenStateAsOf} {acc acc' : LabelLoop F} {horizon : Int}
    (h : labelStep contract history state acc horizon = .ok acc') :
    acc'.used = acc.used ++ usedAt history state horizon := by
  rw [labelStep, bind_eq_ok] at h
  obtain ⟨name, _, h⟩ := h
  rw [bind_eq_ok] at h
  obtain ⟨tolerance, htol, h⟩ := h
  rw [lookupSeconds_eq_ok] at htol
  simp only [pure_eq_ok] at h
  subst h
  simp only [usedAt, htol]

theorem labelLoop_used {contract : LabelSetContract} {history : TokenHistory}
    {state : TokenStateAsOf} {acc acc' : LabelLoop F} {horizons : List Int}
    (h : horizons.foldlM (labelStep contract history state) acc = .ok acc') :
    acc'.used = acc.used ++ horizons.flatMap (usedAt history state) := by
  apply foldlM_invariant
    (fun done (s : LabelLoop F) => s.used = acc.used ++ done.flatMap (usedAt history state)) ?_ h
  · simp
  · intro done horizon s s' hI hs
    rw [labelStep_used hs, hI]
    simp [List.flatMap_append]

theorem buildOutcomeLabels_ids {H : Hashing} {history : TokenHistory} {state : TokenStateAsOf}
    {contract : LabelSetContract} {result : LabelResult F}
    (h : buildOutcomeLabels H history state contract = .ok result) :
    result.futureObservationIds =
      sortOn id ((usedObservations history state contract).map (·.id)).dedup := by
  rw [buildOutcomeLabels, bind_eq_ok] at h
  obtain ⟨loop, hloop, h⟩ := h
  rw [bind_eq_ok] at h
  obtain ⟨horizon, _, h⟩ := h
  have hused := labelLoop_used hloop
  rw [List.nil_append] at hused
  cases hp : loop.horizonPaths.get? horizon with
  | none => simp [hp, throw, throwThe, MonadExceptOf.throw] at h
  | some path =>
    cases hc : loop.horizonComplete.get? horizon with
    | none => simp [hp, hc, throw, throwThe, MonadExceptOf.throw] at h
    | some complete =>
      simp only [hp, hc, pure_eq_ok] at h
      subst h
      rw [usedObservations, hused]

theorem mem_futureObservations {history : TokenHistory} {state : TokenStateAsOf}
    {o : ObservationFact} : o ∈ futureObservations history state ↔
      o ∈ history.observations ∧ some o.pairId = state.selectedPairId ∧
        state.decisionAt < o.receivedAt := by
  simp [futureObservations, mem_sortOn, List.mem_filter]

/-- A horizon uses the later observations of the pair up to horizon plus tolerance: the
endpoint, if there is one, is on the path. -/
theorem mem_usedAt {history : TokenHistory} {state : TokenStateAsOf} {horizon : Int}
    {o : ObservationFact} : o ∈ usedAt history state horizon ↔
      o ∈ futureObservations history state ∧
        ∃ tolerance, labelForwardToleranceTable.lookup horizon = some tolerance ∧
          o.receivedAt ≤ state.decisionAt + seconds (horizon + tolerance) := by
  cases htol : labelForwardToleranceTable.lookup horizon with
  | none => simp [usedAt, htol]
  | some tolerance =>
    simp only [usedAt, htol, List.mem_append, Option.mem_toList, horizonPath, List.mem_filter,
      decide_eq_true_eq, Option.some.injEq, exists_eq_left']
    constructor
    · rintro (hend | hpath)
      · have hm := List.mem_of_find?_eq_some hend
        have hp := List.find?_some hend
        simp only [Bool.and_eq_true, seconds] at hp ⊢
        exact ⟨hm, by lia⟩
      · exact hpath
    · exact Or.inr

theorem mem_usedObservations {history : TokenHistory} {state : TokenStateAsOf}
    {contract : LabelSetContract} {o : ObservationFact} :
    o ∈ usedObservations history state contract ↔
      o ∈ futureObservations history state ∧
        ∃ horizon ∈ contract.horizonsSeconds, ∃ tolerance,
          labelForwardToleranceTable.lookup horizon = some tolerance ∧
            o.receivedAt ≤ state.decisionAt + seconds (horizon + tolerance) := by
  simp only [usedObservations, List.mem_flatMap, mem_usedAt]
  constructor
  · rintro ⟨horizon, hh, hf, htol⟩
    exact ⟨hf, horizon, hh, htol⟩
  · rintro ⟨hf, horizon, hh, htol⟩
    exact ⟨horizon, hh, hf, htol⟩

/-- A used observation past the label range lies beyond every nominal horizon: only a
forward tolerance can reach it. -/
theorem nominal_horizon_lt_of_leak {split : ChronologicalSplitContract} {w : SplitWindow}
    {admission decision : Timestamp} {labels : LabelSetContract} {o : ObservationFact}
    (hassign : split.assignWindow admission decision = some w)
    (hmax : ∀ horizon ∈ labels.horizonsSeconds, horizon ≤ split.maximumLabelHorizonSeconds)
    (hlate : w.labelEndAt < o.receivedAt) :
    ∀ horizon ∈ labels.horizonsSeconds, decision + seconds horizon < o.receivedAt := by
  intro horizon hh
  have hpurge := (split.assignIn_horizon admission decision split.windows w hassign).2.2.2
  have hle := hmax horizon hh
  simp only [seconds] at hpurge ⊢
  lia

/-- Labels stay inside the split exactly when the selected pair has no observation between
the label boundary and the end of some horizon's forward tolerance. -/
theorem labels_within_split_iff (H : Hashing) (split : ChronologicalSplitContract)
    (w : SplitWindow) (history : TokenHistory) (admission decision : Timestamp)
    (features : FeatureSetContract) (labels : LabelSetContract) (allowInvalidEpoch : Bool)
    (state : TokenStateAsOf) (result : LabelResult F)
    (hassign : split.assignWindow admission decision = some w)
    (hstate : getTokenStateAsOf H history decision features allowInvalidEpoch = .ok state)
    (hresult : buildOutcomeLabels H history state labels = .ok result) :
    result.futureObservationIds =
        sortOn id ((usedObservations history state labels).map (·.id)).dedup ∧
      ((∀ o ∈ usedObservations history state labels, o.receivedAt ≤ w.labelEndAt) ↔
        ∀ o ∈ history.observations,
          some o.pairId = selectPair (visibleObservations history decision) →
          w.labelEndAt < o.receivedAt →
          ∀ horizon ∈ labels.horizonsSeconds, ∀ tolerance,
            labelForwardToleranceTable.lookup horizon = some tolerance →
            decision + seconds (horizon + tolerance) < o.receivedAt) := by
  refine ⟨buildOutcomeLabels_ids hresult, ?_⟩
  obtain ⟨_, hbefore, hend, _⟩ := split.assignIn_horizon admission decision split.windows w hassign
  have hlabel := w.end_le_labelEnd
  obtain ⟨_, rfl⟩ := getTokenStateAsOf_eq_ok hstate
  simp only [mem_usedObservations, mem_futureObservations, tokenState]
  constructor
  · intro hall o ho hpair hlate horizon hh tolerance htol
    by_contra hreach
    have hin := hall o ⟨⟨ho, hpair, by lia⟩, horizon, hh, tolerance, htol, not_lt.mp hreach⟩
    lia
  · rintro hcond o ⟨⟨ho, hpair, _⟩, horizon, hh, tolerance, htol, hreach⟩
    by_contra hlate
    have hgap := hcond o ho hpair (not_le.mp hlate) horizon hh tolerance htol
    lia

/-- Windows of 100 s whose label ranges end 30 s later. -/
def shortSplit : ChronologicalSplitContract where
  windows := [⟨.train, 0, seconds 100, seconds 130, by decide, by decide⟩,
    ⟨.validation, seconds 100, seconds 200, seconds 230, by decide, by decide⟩,
    ⟨.test, seconds 200, seconds 300, seconds 330, by decide, by decide⟩]
  maximumLabelHorizonSeconds := 30
  names_canonical := rfl
  windows_ordered := by decide

def trainWindow : SplitWindow := ⟨.train, 0, seconds 100, seconds 130, by decide, by decide⟩

/-- A pair priced at 50 s and once more at the given time. -/
def gapHistory (later : Timestamp) : TokenHistory where
  epochId := "epoch"
  epochNumber := 1
  epochDataValid := true
  tokenId := "token"
  chain := "solana"
  address := "mint"
  lifecycle := [⟨"l1", 0, 0, none, "NEW", "admitted"⟩]
  observations := [
    { id := "o1", pairId := "pair", pairAddress := "pool", receivedAt := seconds 50,
      priceUsd := some 2 },
    { id := "o2", pairId := "pair", pairAddress := "pool", receivedAt := later,
      priceUsd := some 1 }]

def shortLabels : LabelSetContract := { horizonsSeconds := [30] }

theorem gapHistory_state (later : Timestamp) :
    getTokenStateAsOf plainHashing (gapHistory later) (seconds 99) {} false =
      .ok (tokenState (gapHistory later) (seconds 99) plainHashing {}) := rfl

/-- The row decided at 99 s belongs to a window whose label range ends at 130 s, yet its
30 s label uses the observation received at 139 s, inside the 15 s forward tolerance. -/
theorem labels_leave_split :
    shortSplit.assignWindow 0 (seconds 99) = some trainWindow ∧
      (∀ horizon ∈ shortLabels.horizonsSeconds, horizon ≤ shortSplit.maximumLabelHorizonSeconds) ∧
      ∃ result : LabelResult ℚ,
        @buildOutcomeLabels ℚ exactNumerics plainHashing (gapHistory (seconds 139))
          (tokenState (gapHistory (seconds 139)) (seconds 99) plainHashing {}) shortLabels =
            .ok result ∧
        result.futureObservationIds = ["o2"] ∧
        ¬ ∀ o ∈ usedObservations (gapHistory (seconds 139))
            (tokenState (gapHistory (seconds 139)) (seconds 99) plainHashing {}) shortLabels,
          o.receivedAt ≤ trainWindow.labelEndAt := by
  refine ⟨by decide, by decide, ?_⟩
  obtain ⟨result, hresult⟩ := @buildOutcomeLabels_total ℚ exactNumerics plainHashing
    (gapHistory (seconds 139)) (tokenState (gapHistory (seconds 139)) (seconds 99) plainHashing {})
    shortLabels (by decide) (by decide)
  refine ⟨result, hresult, ?_, by decide⟩
  rw [@buildOutcomeLabels_ids ℚ exactNumerics _ _ _ _ _ hresult]
  decide

theorem labels_within_split_at_120 :
    ∃ result : LabelResult ℚ,
      result.futureObservationIds = sortOn id ((usedObservations (gapHistory (seconds 120))
        (tokenState (gapHistory (seconds 120)) (seconds 99) plainHashing {})
        shortLabels).map (·.id)).dedup ∧
      ((∀ o ∈ usedObservations (gapHistory (seconds 120))
          (tokenState (gapHistory (seconds 120)) (seconds 99) plainHashing {}) shortLabels,
          o.receivedAt ≤ trainWindow.labelEndAt) ↔
        ∀ o ∈ (gapHistory (seconds 120)).observations,
          some o.pairId =
            selectPair (visibleObservations (gapHistory (seconds 120)) (seconds 99)) →
          trainWindow.labelEndAt < o.receivedAt →
          ∀ horizon ∈ shortLabels.horizonsSeconds, ∀ tolerance,
            labelForwardToleranceTable.lookup horizon = some tolerance →
            seconds 99 + seconds (horizon + tolerance) < o.receivedAt) := by
  obtain ⟨result, hresult⟩ := @buildOutcomeLabels_total ℚ exactNumerics plainHashing
    (gapHistory (seconds 120)) (tokenState (gapHistory (seconds 120)) (seconds 99) plainHashing {})
    shortLabels (by decide) (by decide)
  exact ⟨result, @labels_within_split_iff ℚ exactNumerics plainHashing shortSplit trainWindow
    (gapHistory (seconds 120)) 0 (seconds 99) {} shortLabels false _ result (by decide)
    (gapHistory_state _) hresult⟩

end PumpResearch.Research
