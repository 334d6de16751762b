import PumpResearch.Research.Labels

/-! What the columns of a horizon hold in the finished labels. Such a column ends in the horizon's
name behind its last underscore, so that no other horizon writes it. -/
namespace PumpResearch.Research
open KeyedOrder OrderedDict Results

/-- What stands behind the last underscore of a key. -/
def lastPart (key : String) : List Char := (key.toList.reverse.takeWhile (· ≠ '_')).reverse

theorem lastPart_append {front name : String} (hfront : front.toList.getLast? = some '_')
    (hname : '_' ∉ name.toList) : lastPart (front ++ name) = name.toList := by
  obtain ⟨start, hstart⟩ := List.getLast?_eq_some_iff.mp hfront
  have hall : ∀ c ∈ name.toList.reverse, (c ≠ '_') = true := by
    intro c hc
    have hne : c ≠ '_' := fun heq => hname (heq ▸ List.mem_reverse.mp hc)
    simpa using hne
  have hkey : (front ++ name).toList.reverse = name.toList.reverse ++ '_' :: start.reverse := by
    rw [String.toList_append, hstart]
    simp
  have htake : (name.toList.reverse ++ '_' :: start.reverse).takeWhile (· ≠ '_') =
      name.toList.reverse := by
    rw [List.takeWhile_append_of_pos (by simpa using hall)]
    simp
  rw [lastPart, hkey, htake, List.reverse_reverse]

theorem getLast?_underscore (front : String) : (front ++ "_").toList.getLast? = some '_' := by
  rw [String.toList_append]
  exact List.getLast?_concat

/-! ### Horizons -/

def horizonName (horizon : Int) : String := (labelHorizonNames.lookup horizon).getD ""

def forwardTolerance (horizon : Int) : Int := (labelForwardToleranceTable.lookup horizon).getD 0

/-- A horizon of the name table and the tolerance table. -/
def Known (horizon : Int) : Prop := horizon ∈ labelHorizonsSeconds

theorem known_lookup {horizon : Int} (h : Known horizon) :
    labelHorizonNames.lookup horizon = some (horizonName horizon) ∧
      labelForwardToleranceTable.lookup horizon = some (forwardTolerance horizon) := by
  have hall : ∀ horizon ∈ labelHorizonsSeconds,
      labelHorizonNames.lookup horizon = some (horizonName horizon) ∧
        labelForwardToleranceTable.lookup horizon = some (forwardTolerance horizon) := by decide
  exact hall horizon h

theorem horizonName_plain {horizon : Int} (h : Known horizon) :
    '_' ∉ (horizonName horizon).toList := by
  have hall : ∀ horizon ∈ labelHorizonsSeconds, '_' ∉ (horizonName horizon).toList := by decide
  exact hall horizon h

/-- Names tell horizons apart, and from the endings of the other columns. -/
theorem horizonName_injective {a b : Int} (ha : Known a) (hb : Known b)
    (h : (horizonName a).toList = (horizonName b).toList) : a = b := by
  have hall : ∀ a ∈ labelHorizonsSeconds, ∀ b ∈ labelHorizonsSeconds,
      (horizonName a).toList = (horizonName b).toList → a = b := by decide
  exact hall a ha b hb h

section Paths
variable (F : Type) [Numerics F] (history : TokenHistory) (state : TokenStateAsOf)

/-- The path of a horizon. -/
def pathAt (horizon : Int) : List ObservationFact :=
  horizonPath (futureObservations history state) state.decisionAt horizon
    (forwardTolerance horizon)

def endpointAt (horizon : Int) : Option ObservationFact :=
  endpoint (futureObservations history state) state.decisionAt horizon (forwardTolerance horizon)

/-- The path of a horizon is complete. -/
def completeAt (horizon : Int) : Bool :=
  (endpointAt history state horizon).isSome &&
    pathComplete (F := F) state.currentObservation (pathAt history state horizon) horizon

theorem mem_pathAt {history state} {horizon : Int} {item : ObservationFact} :
    item ∈ pathAt history state horizon ↔ item ∈ history.observations ∧
      some item.pairId = state.selectedPairId ∧ state.decisionAt < item.receivedAt ∧
      item.receivedAt ≤ state.decisionAt + seconds (horizon + forwardTolerance horizon) := by
  unfold pathAt horizonPath futureObservations
  rw [List.mem_filter, mem_sortOn, List.mem_filter]
  simp only [gt_iff_lt, Bool.and_eq_true, decide_eq_true_eq, and_assoc]

end Paths

/-! ### The columns of a horizon -/

section Columns
variable {F : Type} [Numerics F]
open Numerics

/-- The returns of the priced items of a path, as floats. -/
def pathReturns (current : Option ObservationFact) (path : List ObservationFact) : List F :=
  match current.bind (·.priceUsd) with
  | some base =>
    if base > 0 then path.filterMap fun item =>
      item.priceUsd.map fun price => ofDecimal (decSub F (decDiv F price base) 1)
    else []
  | none => []

/-- Some liquidity of the path is a fifth of the entry liquidity at most. -/
def liquidityCollapsed (F : Type) [Numerics F] (current : Option ObservationFact)
    (path : List ObservationFact) : Bool :=
  (truthy (current.bind (·.liquidityUsd))).any fun entry =>
    (path.filterMap (·.liquidityUsd)).any fun value => decide (value ≤ decMul F entry (1 / 5))

/-- The last liquidity of the path is half the entry liquidity at least. -/
def liquiditySurvived (F : Type) [Numerics F] (current : Option ObservationFact)
    (path : List ObservationFact) : Bool :=
  (truthy (current.bind (·.liquidityUsd))).any fun entry =>
    (path.getLast?.bind (·.liquidityUsd)).any fun value => decide (value ≥ decMul F entry (1 / 2))

/-- Some price of the path differs from the one before by 95 percent at least. -/
def extremeGap (F : Type) [Numerics F] (path : List ObservationFact) : Bool :=
  (floatMax (discontinuities path : List F)).any fun value => le (ofDecimal (19 / 20)) value

def whenComplete (complete : Bool) (value : Option F) : Value F :=
  if complete then .optFloat value else .none

/-- What `_path_labels` writes. -/
def pathColumns (name : String) (current : Option ObservationFact) (path : List ObservationFact)
    (complete : Bool) : List (String × Value F) :=
  let base := current.bind (·.priceUsd)
  [("maximum_favorable_excursion_" ++ name,
      whenComplete complete (floatMax (pathReturns current path))),
    ("maximum_adverse_excursion_" ++ name,
      whenComplete complete (floatMin (pathReturns current path)))] ++
  upsideMultipliers.map (fun entry => ("crossed_" ++ entry.1 ++ "_" ++ name,
    .text (tri (crossed (F := F) path base entry.2 true) complete))) ++
  downsideMultipliers.map (fun entry => ("crossed_" ++ entry.1 ++ "_" ++ name,
    .text (tri (crossed (F := F) path base entry.2 false) complete))) ++
  [("minimum_future_liquidity_usd_" ++ name,
      whenComplete complete (number (path.filterMap (·.liquidityUsd)).min?)),
    ("major_liquidity_collapse_" ++ name, .text (tri (liquidityCollapsed F current path) complete)),
    ("liquidity_survival_" ++ name, .text (tri (liquiditySurvived F current path) complete)),
    ("maximum_observed_price_discontinuity_" ++ name,
      whenComplete complete (floatMax (discontinuities path))),
    ("extreme_gap_or_rug_proxy_" ++ name, .text (tri (extremeGap F path) complete))]

theorem pathLabels_eq (values : Columns F) (name : String) (current : Option ObservationFact)
    (path : List ObservationFact) (complete : Bool) :
    pathLabels values name current path complete =
      values.setAll (pathColumns name current path complete) := rfl

/-- The columns of a path without their horizon. -/
def pathFronts : List String :=
  ["maximum_favorable_excursion_", "maximum_adverse_excursion_"] ++
  upsideMultipliers.map (fun entry => "crossed_" ++ entry.1 ++ "_") ++
  downsideMultipliers.map (fun entry => "crossed_" ++ entry.1 ++ "_") ++
  ["minimum_future_liquidity_usd_", "major_liquidity_collapse_", "liquidity_survival_",
    "maximum_observed_price_discontinuity_", "extreme_gap_or_rug_proxy_"]

theorem map_fst_pathColumns (name : String) (current : Option ObservationFact)
    (path : List ObservationFact) (complete : Bool) :
    (pathColumns name current path complete : List (String × Value F)).map Prod.fst =
      pathFronts.map (· ++ name) := by
  simp only [pathColumns, pathFronts, List.map_append, List.map_cons, List.map_nil, List.map_map]
  rfl

theorem append_name_injective (name : String) : Function.Injective fun front => front ++ name := by
  intro a b h
  exact (String.append_left_inj name).mp h

theorem nodup_pathColumns (name : String) (current : Option ObservationFact)
    (path : List ObservationFact) (complete : Bool) :
    ((pathColumns name current path complete : List (String × Value F)).map Prod.fst).Nodup := by
  have hfronts : pathFronts.Nodup := by decide
  rw [map_fst_pathColumns]
  exact hfronts.map (append_name_injective name)

/-- What a key of a horizon may end in. -/
def EndsIn (name key : String) : Prop :=
  lastPart key = name.toList ∨
    lastPart key ∈ ["available".toList, "complete".toList, "seconds".toList]

theorem endsIn_append {front name : String} (hfront : front.toList.getLast? = some '_')
    (hname : '_' ∉ name.toList) : EndsIn name (front ++ name) :=
  .inl (lastPart_append hfront hname)

theorem lastPart_pathColumns {name : String} (hname : '_' ∉ name.toList)
    (current : Option ObservationFact) (path : List ObservationFact) (complete : Bool) :
    ∀ w ∈ (pathColumns name current path complete : List (String × Value F)),
      lastPart w.1 = name.toList := by
  have hfronts : ∀ front ∈ pathFronts, front.toList.getLast? = some '_' := by decide
  intro w hw
  have hkey := List.mem_map_of_mem (f := Prod.fst) hw
  rw [map_fst_pathColumns] at hkey
  obtain ⟨front, hfront, hw⟩ := List.mem_map.mp hkey
  rw [← hw]
  exact lastPart_append (hfronts front hfront) hname

theorem endsIn_horizonColumns {name : String} (hname : '_' ∉ name.toList)
    (contract : LabelSetContract) (state : TokenStateAsOf) (final : Option ObservationFact)
    (complete : Bool) :
    ∀ w ∈ (horizonColumns contract state name final complete : List (String × Value F)),
      EndsIn name w.1 := by
  have hmiddle : ∀ last ∈ ["available", "complete", "seconds"],
      ∀ front : String, EndsIn name (front ++ "_" ++ last) := by
    intro last hlast front
    have hplain : ∀ last ∈ ["available", "complete", "seconds"], '_' ∉ last.toList := by decide
    refine .inr ?_
    rw [lastPart_append (getLast?_underscore front) (hplain last hlast)]
    exact List.mem_map_of_mem (f := String.toList) hlast
  intro w hw
  rw [horizonColumns, List.mem_append] at hw
  cases hw with
  | inl hw =>
    simp only [List.mem_cons, List.not_mem_nil, or_false] at hw
    rcases hw with h | h | h | h | h
    · rw [h]
      have := hmiddle "available" (by decide) ("horizon_" ++ name)
      simpa [String.append_assoc] using this
    · rw [h]
      have := hmiddle "complete" (by decide) ("horizon_" ++ name ++ "_path")
      simpa [String.append_assoc] using this
    · rw [h]
      have := hmiddle "seconds" (by decide) ("horizon_" ++ name ++ "_actual")
      simpa [String.append_assoc] using this
    · rw [h]
      exact endsIn_append (by decide) hname
    · rw [h]
      exact endsIn_append (by decide) hname
  | inr hw =>
    obtain ⟨notional, _, hw⟩ := List.mem_map.mp hw
    rw [← hw]
    refine endsIn_append ?_ hname
    rw [String.toList_append, List.getLast?_append]
    rfl

variable {H : Hashing} {history : TokenHistory} {state : TokenStateAsOf}
  {contract : LabelSetContract}

theorem labelStep_eq_ok {acc acc' : LabelLoop F} {horizon : Int}
    (h : labelStep contract history state acc horizon = .ok acc') :
    Known horizon ∧ acc' = {
      values := ((acc.values.setAll (horizonColumns contract state (horizonName horizon)
        (endpointAt history state horizon) (completeAt F history state horizon))).setAll
          (pathColumns (horizonName horizon) state.currentObservation
            (pathAt history state horizon) (completeAt F history state horizon))).set
          ("future_lifecycle_state_" ++ horizonName horizon) (.optText (lifecycleAt
            history.lifecycle ((endpointAt history state horizon).map (·.receivedAt))))
      used := acc.used ++ ((endpointAt history state horizon).toList ++
        pathAt history state horizon)
      horizonPaths := acc.horizonPaths.set horizon (pathAt history state horizon)
      horizonComplete := acc.horizonComplete.set horizon
        (completeAt F history state horizon) } := by
  simp only [labelStep, bind_eq_ok, pure_eq_ok] at h
  obtain ⟨name, hname, tolerance, htolerance, h⟩ := h
  have hknown : Known horizon := by
    have hlookup := lookupSeconds_eq_ok.mp hname
    obtain ⟨before, after, htable, _⟩ := List.lookup_eq_some_iff.mp hlookup
    have hmem : horizon ∈ labelHorizonNames.map Prod.fst := by simp [htable]
    exact hmem
  obtain ⟨hname', htolerance'⟩ := known_lookup hknown
  rw [lookupSeconds_eq_ok, hname'] at hname
  rw [lookupSeconds_eq_ok, htolerance'] at htolerance
  cases hname
  cases htolerance
  exact ⟨hknown, h.symm⟩

/-- The columns of a horizon do not end as those of another one. -/
theorem ne_of_endsIn {horizon next : Int} (hknown : Known horizon) (hnext : Known next)
    (hne : horizon ≠ next) {key key' : String}
    (hkey : lastPart key = (horizonName horizon).toList)
    (hkey' : EndsIn (horizonName next) key') : key ≠ key' := by
  have hplain : ∀ horizon ∈ labelHorizonsSeconds, (horizonName horizon).toList ∉
      ["available".toList, "complete".toList, "seconds".toList] := by decide
  intro heq
  rw [← heq] at hkey'
  cases hkey' with
  | inl h => exact hne (horizonName_injective hknown hnext (hkey.symm.trans h))
  | inr h => exact hplain horizon hknown (hkey ▸ h)

/-- A step writes the columns of its horizon, and leaves those of the others. -/
theorem labelStep_column {acc acc' : LabelLoop F} {horizon next : Int} (hknown : Known horizon)
    (h : labelStep contract history state acc next = .ok acc') {column : String × Value F}
    (hcolumn : column ∈ (pathColumns (horizonName horizon) state.currentObservation
      (pathAt history state horizon) (completeAt F history state horizon) :
        List (String × Value F))) :
    acc'.values.get? column.1 =
      if horizon = next then some column.2 else acc.values.get? column.1 := by
  obtain ⟨hnext, hacc⟩ := labelStep_eq_ok h
  have hnextPlain := horizonName_plain hnext
  have hlast := lastPart_pathColumns (horizonName_plain hknown) _ _ _ column hcolumn
  have hfuture : column.1 ≠ "future_lifecycle_state_" ++ horizonName next := by
    have hfronts : "future_lifecycle_state_" ∉ pathFronts := by decide
    have hkey := List.mem_map_of_mem (f := Prod.fst) hcolumn
    rw [map_fst_pathColumns] at hkey
    obtain ⟨front, hfront, hkey⟩ := List.mem_map.mp hkey
    intro heq
    by_cases hsame : horizon = next
    · rw [← hkey, hsame] at heq
      exact hfronts (append_name_injective _ heq ▸ hfront)
    · exact ne_of_endsIn hknown hnext hsame hlast (endsIn_append (by decide) hnextPlain) heq
  rw [hacc, Dict.get?_set_of_ne _ _ hfuture]
  by_cases hsame : horizon = next
  · rw [if_pos hsame, ← hsame]
    exact Dict.get?_setAll_of_mem _ (nodup_pathColumns _ _ _ _) hcolumn
  · rw [if_neg hsame]
    rw [Dict.get?_setAll_of_forall_ne, Dict.get?_setAll_of_forall_ne]
    · intro w hw
      exact ne_of_endsIn hknown hnext hsame hlast (endsIn_horizonColumns hnextPlain _ _ _ _ w hw)
    · intro w hw
      exact ne_of_endsIn hknown hnext hsame hlast
        (.inl (lastPart_pathColumns hnextPlain _ _ _ w hw))

/-- Behind the loop every horizon has its columns, its path and its flag. -/
theorem labelLoop_horizon {values : Columns F} {acc : LabelLoop F} {horizons : List Int}
    (h : horizons.foldlM (labelStep contract history state) ⟨values, [], .empty, .empty⟩ =
      .ok acc) {horizon : Int} (hmem : horizon ∈ horizons) :
    Known horizon ∧
      (∀ column ∈ (pathColumns (horizonName horizon) state.currentObservation
        (pathAt history state horizon) (completeAt F history state horizon) :
          List (String × Value F)), acc.values.get? column.1 = some column.2) ∧
      acc.horizonPaths.get? horizon = some (pathAt history state horizon) ∧
      acc.horizonComplete.get? horizon = some (completeAt F history state horizon) := by
  have hall := foldlM_invariant (fun done (s : LabelLoop F) => ∀ horizon ∈ done,
    Known horizon ∧
      (∀ column ∈ (pathColumns (horizonName horizon) state.currentObservation
        (pathAt history state horizon) (completeAt F history state horizon) :
          List (String × Value F)), s.values.get? column.1 = some column.2) ∧
      s.horizonPaths.get? horizon = some (pathAt history state horizon) ∧
      s.horizonComplete.get? horizon = some (completeAt F history state horizon)) ?_ h
    (by simp)
  · exact hall horizon hmem
  · intro done next s s' hI hstep horizon hhorizon
    obtain ⟨hnext, hs⟩ := labelStep_eq_ok hstep
    by_cases hsame : horizon = next
    · rw [hsame]
      refine ⟨hnext, fun column hcolumn => ?_, ?_, ?_⟩
      · rw [labelStep_column hnext hstep hcolumn, if_pos rfl]
      · rw [hs, Dict.get?_set_self]
      · rw [hs, Dict.get?_set_self]
    · have hold : horizon ∈ done := by
        cases List.mem_append.mp hhorizon with
        | inl hold => exact hold
        | inr hlast => exact absurd (List.mem_singleton.mp hlast) hsame
      obtain ⟨hknown, hcolumns, hpath, hcomplete⟩ := hI horizon hold
      refine ⟨hknown, fun column hcolumn => ?_, ?_, ?_⟩
      · rw [labelStep_column hknown hstep hcolumn, if_neg hsame]
        exact hcolumns column hcolumn
      · rw [hs, Dict.get?_set_of_ne _ _ hsame]
        exact hpath
      · rw [hs, Dict.get?_set_of_ne _ _ hsame]
        exact hcomplete

/-! ### The finished labels -/

/-- The horizons grow with their forward tolerances. -/
theorem reach_le {a b : Int} (ha : Known a) (hb : Known b) (h : a ≤ b) :
    a + forwardTolerance a ≤ b + forwardTolerance b := by
  have hall : ∀ a ∈ labelHorizonsSeconds, ∀ b ∈ labelHorizonsSeconds, a ≤ b →
      a + forwardTolerance a ≤ b + forwardTolerance b := by decide
  exact hall a ha b hb h

/-- A longer horizon's path begins with a shorter one's. -/
theorem pathAt_prefix (history : TokenHistory) (state : TokenStateAsOf) {a b : Int} (ha : Known a)
    (hb : Known b) (h : a ≤ b) : pathAt history state a <+: pathAt history state b := by
  have hsorted : (futureObservations history state).Pairwise fun x y =>
      x.receivedAt ≤ y.receivedAt := by
    refine (sortOn_pairwise _ _).imp ?_
    intro x y hle
    exact (Prod.Lex.le_iff.mp hle).elim (fun hlt => hlt.le) fun heq => heq.1.le
  apply filter_le_prefix hsorted
  have hreach := reach_le ha hb h
  unfold seconds
  lia

/-- The ordered labels are those of the longest horizon. -/
theorem maximumHorizon_eq {paths : Dict Int (List ObservationFact)} {longest horizon : Int}
    (hknown : ∀ horizon ∈ contract.horizonsSeconds, Known horizon)
    (hlongest : contract.horizonsSeconds.max? = some longest)
    (hpaths : ∀ horizon, paths.get? horizon =
      if horizon ∈ contract.horizonsSeconds then some (pathAt history state horizon) else none)
    (h : maximumHorizon contract paths = .ok horizon) : horizon = longest := by
  obtain ⟨hmem, hmax⟩ := List.max?_eq_some_iff.mp hlongest
  have hentry : ∀ entry : Int × List ObservationFact, entry ∈ paths.entries ↔
      entry.1 ∈ contract.horizonsSeconds ∧ pathAt history state entry.1 = entry.2 := by
    intro entry
    rw [← paths.get?_eq_some_iff entry.1 entry.2, hpaths]
    by_cases hin : entry.1 ∈ contract.horizonsSeconds
    · simp [hin]
    · simp [hin]
  unfold maximumHorizon at h
  cases hfound : ((paths.entries.filter fun entry => !entry.2.isEmpty).map (·.1)).max? with
  | none =>
    rw [hfound, hlongest] at h
    cases h
    rfl
  | some found =>
    rw [hfound] at h
    cases h
    obtain ⟨hin, hgreatest⟩ := List.max?_eq_some_iff.mp hfound
    obtain ⟨entry, hkept, rfl⟩ := List.mem_map.mp hin
    obtain ⟨hstored, hnonempty⟩ := List.mem_filter.mp hkept
    obtain ⟨hentryMem, hentryPath⟩ := (hentry entry).mp hstored
    have hle : entry.1 ≤ longest := hmax entry.1 hentryMem
    have hpaths := pathAt_prefix history state (hknown _ hentryMem) (hknown _ hmem) hle
    have hother : longest ∈ (paths.entries.filter fun entry => !entry.2.isEmpty).map (·.1) := by
      refine List.mem_map.mpr ⟨(longest, pathAt history state longest), ?_, rfl⟩
      refine List.mem_filter.mpr ⟨(hentry _).mpr ⟨hmem, rfl⟩, ?_⟩
      have hsome : pathAt history state longest ≠ [] := by
        intro hnil
        rw [hnil, List.prefix_nil, hentryPath] at hpaths
        simp [hpaths] at hnonempty
      simpa using hsome
    exact le_antisymm hle (hgreatest longest hother)

/-- The columns of no horizon. -/
def timingKeys : List String :=
  ["plus_50_before_minus_25", "plus_100_before_minus_30", "plus_200_before_minus_40",
    "5x_before_minus_50", "time_to_plus_50_seconds", "time_to_2x_seconds", "time_to_5x_seconds",
    "time_to_minus_50_seconds", "time_to_minus_80_seconds", "time_to_peak_seconds",
    "time_to_collapse_seconds"]

theorem timing_lastPart : ∀ key ∈ timingKeys, ∀ horizon ∈ labelHorizonsSeconds,
    lastPart key ≠ (horizonName horizon).toList := by
  decide

/-- What a finished label result holds. -/
theorem buildOutcomeLabels_eq_ok {result : LabelResult F}
    (h : buildOutcomeLabels H history state contract = .ok result) :
    (∀ horizon ∈ contract.horizonsSeconds, Known horizon ∧
      ∀ column ∈ (pathColumns (horizonName horizon) state.currentObservation
        (pathAt history state horizon) (completeAt F history state horizon) :
          List (String × Value F)), result.values.get? column.1 = some column.2) ∧
      ∃ longest values, contract.horizonsSeconds.max? = some longest ∧
        result.values = orderedAndTimingLabels values state.currentObservation
          (pathAt history state longest) (completeAt F history state longest)
          state.decisionAt := by
  rw [buildOutcomeLabels, bind_eq_ok] at h
  obtain ⟨loop, hloop, h⟩ := h
  rw [bind_eq_ok] at h
  obtain ⟨horizon, hhorizon, h⟩ := h
  have hknown : ∀ horizon ∈ contract.horizonsSeconds, Known horizon :=
    fun _ hmem => (labelLoop_horizon hloop hmem).1
  have hkeys := labelLoop_keys hloop
  have hpaths : ∀ horizon, loop.horizonPaths.get? horizon =
      if horizon ∈ contract.horizonsSeconds then some (pathAt history state horizon)
      else none := by
    intro horizon
    by_cases hmem : horizon ∈ contract.horizonsSeconds
    · rw [if_pos hmem]
      exact (labelLoop_horizon hloop hmem).2.2.1
    · rw [if_neg hmem]
      by_contra hsome
      exact hmem ((hkeys horizon).1.mp (Option.isSome_iff_ne_none.mpr hsome))
  obtain ⟨longest, hlongest⟩ : ∃ longest, contract.horizonsSeconds.max? = some longest := by
    cases hmax : contract.horizonsSeconds.max? with
    | some longest => exact ⟨longest, rfl⟩
    | none =>
      rw [List.max?_eq_none_iff.mp hmax, List.foldlM_nil, pure_eq_ok] at hloop
      rw [← hloop] at hhorizon
      simp [maximumHorizon, Dict.empty, hmax] at hhorizon
  have hmax := maximumHorizon_eq hknown hlongest hpaths hhorizon
  obtain ⟨hmem, _⟩ := List.max?_eq_some_iff.mp hlongest
  obtain ⟨_, _, hpath, hcomplete⟩ := labelLoop_horizon hloop hmem
  rw [hmax, hpath, hcomplete] at h
  simp only [pure_eq_ok] at h
  have hvalues := congrArg LabelResult.values h
  refine ⟨fun horizon hh => ⟨hknown horizon hh, fun column hcolumn => ?_⟩, longest, loop.values,
    hlongest, hvalues.symm⟩
  obtain ⟨_, hcolumns, _⟩ := labelLoop_horizon hloop hh
  rw [← hvalues]
  dsimp only
  rw [← hcolumns column hcolumn]
  apply Dict.get?_setAll_of_forall_ne
  have hlast := lastPart_pathColumns (horizonName_plain (hknown horizon hh)) _ _ _ column hcolumn
  intro w hw heq
  have hkey := List.mem_map_of_mem (f := Prod.fst) hw
  simp only [List.map_cons, List.map_nil] at hkey
  rw [heq] at hlast
  exact timing_lastPart w.1 hkey horizon (hknown horizon hh) hlast

end Columns

end PumpResearch.Research
