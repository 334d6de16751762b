import PumpResearch.Collection.EnrichmentChanges
import PumpResearch.Library.LevelCrossings
import PumpResearch.Library.Runs

/-! The threshold crossings of a boost scope. They tell on which side of a threshold a metric is,
as long as no absence of the metric hides a move over it. -/
namespace PumpResearch.Collection

open ChangeLog Discovery LevelCrossings Results Runs Utf8

/-! ### Events of one observation -/

section Events

variable {Digest : Type}

def StoredNumeric.atLeast (threshold : Int) : StoredNumeric → Bool
  | .units n => threshold ≤ n
  | .nan => false

/-- The side that an event moves to. -/
def BoostEvent.side (event : BoostEvent) : Bool := event.direction = .up

def BoostEvent.isCrossing (metric : BoostMetric) (threshold : Int) (event : BoostEvent) : Bool :=
  event.eventType = .thresholdCrossing && event.metric = metric &&
    event.thresholdValue = some threshold

/-- The side of a threshold that an observation tells of a metric. -/
def BoostObservation.reading (metric : BoostMetric) (threshold : Int)
    (row : BoostObservation Digest) : Option Bool :=
  (row.metric metric).map (·.atLeast threshold)

/-- Entries of one key among those that a list without repetition makes. -/
theorem filter_filterMap_key {α β : Type*} [DecidableEq α] {f : α → Option β} {key : β → Option α}
    (hkey : ∀ a b, f a = some b → key b = some a) {as : List α} (hnodup : as.Nodup) {a : α}
    (ha : a ∈ as) : (as.filterMap f).filter (fun b => key b = some a) = (f a).toList := by
  have hself (c : α) : (f c).toList.filter (fun b => key b = some a) =
      if c = a then (f c).toList else [] := by
    cases hc : f c with
    | none => simp
    | some b => simp [hkey c b hc, List.filter_cons]
  induction as with
  | nil => cases ha
  | cons c as ih =>
    obtain ⟨hc, hrest⟩ := List.nodup_cons.mp hnodup
    have hcons : (c :: as).filterMap f = (f c).toList ++ as.filterMap f := by
      rw [List.filterMap_cons]
      cases f c <;> rfl
    rw [hcons, List.filter_append, hself]
    by_cases hca : c = a
    · subst hca
      have hother : (as.filterMap f).filter (fun b => key b = some c) = [] := by
        rw [List.filter_eq_nil_iff]
        intro b hb
        obtain ⟨e, he, hfe⟩ := List.mem_filterMap.mp hb
        intro hkeyb
        rw [hkey e b hfe, decide_eq_true_eq, Option.some_inj] at hkeyb
        exact hc (hkeyb ▸ he)
      rw [if_pos rfl, hother, List.append_nil]
    · rw [if_neg hca, List.nil_append, ih hrest ((List.mem_cons.mp ha).resolve_left (Ne.symm hca))]

theorem nodup_boostThresholds : boostThresholds.Nodup := by decide

/-- The crossing of one threshold by one change. -/
def crossingAt (observation : BoostObservation Digest) (metric : BoostMetric)
    (previous current threshold : Int) : Option BoostEvent :=
  let crossedUp := previous < threshold && threshold ≤ current
  let crossedDown := threshold ≤ previous && current < threshold
  if crossedUp || crossedDown then
    some {
      boostObservationId := observation.id
      tokenId := observation.tokenId
      eventType := .thresholdCrossing
      metric := metric
      direction := if crossedUp then .up else .down
      previousValue := some (.units previous)
      newValue := .units current
      thresholdValue := some threshold
      decidedAt := observation.receivedAt }
  else none

variable {observation : BoostObservation Digest} {previous : Option (BoostObservation Digest)}
  {metric : BoostMetric} {p c threshold : Int} {events : List BoostEvent} {event : BoostEvent}

theorem thresholdCrossings_eq : thresholdCrossings observation metric p c =
    boostThresholds.filterMap (crossingAt observation metric p c) := rfl

theorem crossingAt_eq_some (h : crossingAt observation metric p c threshold = some event) :
    event.eventType = .thresholdCrossing ∧ event.metric = metric ∧
      event.thresholdValue = some threshold ∧ event.boostObservationId = observation.id := by
  simp only [crossingAt, Option.ite_none_right_eq_some, Option.some.injEq] at h
  rw [← h.2]
  exact ⟨rfl, rfl, rfl, rfl⟩

theorem side_crossingAt : (crossingAt observation metric p c threshold).toList.map BoostEvent.side =
    (crossing (some (decide (threshold ≤ p))) (some (decide (threshold ≤ c)))).toList := by
  by_cases hp : threshold ≤ p
  · by_cases hc : threshold ≤ c
    · simp [crossingAt, crossing, hp, hc]
    · simp [crossingAt, crossing, BoostEvent.side, hp, hc, not_le.mp hc]
  · by_cases hc : threshold ≤ c
    · simp [crossingAt, crossing, BoostEvent.side, hp, hc, not_le.mp hp]
    · simp [crossingAt, crossing, hp, hc]

/-- Among the crossings of a change, those of one threshold are the crossing of its sides. -/
theorem filter_thresholdCrossings (ht : threshold ∈ boostThresholds) :
    ((thresholdCrossings observation metric p c).filter (·.isCrossing metric threshold)).map
        BoostEvent.side =
      (crossing (some (decide (threshold ≤ p))) (some (decide (threshold ≤ c)))).toList := by
  have hkey : ∀ t e, crossingAt observation metric p c t = some e → e.thresholdValue = some t :=
    fun t e he => (crossingAt_eq_some he).2.2.1
  have hcrossing : ∀ e ∈ thresholdCrossings observation metric p c,
      e.isCrossing metric threshold = decide (e.thresholdValue = some threshold) := by
    intro e he
    obtain ⟨t, _, hat⟩ := List.mem_filterMap.mp he
    obtain ⟨htype, hmetric, _, _⟩ := crossingAt_eq_some hat
    simp [BoostEvent.isCrossing, htype, hmetric]
  rw [List.filter_congr hcrossing, thresholdCrossings_eq,
    filter_filterMap_key hkey nodup_boostThresholds ht, side_crossingAt]

/-- The events of a metric are of that metric and of its observation. -/
theorem metricEvents_of (h : metricEvents observation previous metric = .ok events)
    (hevent : event ∈ events) :
    event.metric = metric ∧ event.boostObservationId = observation.id := by
  unfold metricEvents at h
  cases hcurrent : observation.metric metric with
  | none =>
    simp only [hcurrent] at h
    obtain rfl := Except.ok.inj h
    cases hevent
  | some current =>
    cases hbefore : previous.bind (·.metric metric) with
    | none =>
      simp only [hcurrent, hbefore] at h
      obtain rfl := Except.ok.inj h
      rw [List.mem_singleton.mp hevent]
      exact ⟨rfl, rfl⟩
    | some before =>
      cases before with
      | nan => simp [hcurrent, hbefore] at h
      | units p =>
        cases current with
        | nan => simp [hcurrent, hbefore] at h
        | units c =>
          simp only [hcurrent, hbefore] at h
          split at h
          · obtain rfl := Except.ok.inj h
            cases hevent
          · obtain rfl := Except.ok.inj h
            cases List.mem_cons.mp hevent with
            | inl heq =>
              rw [heq]
              exact ⟨rfl, rfl⟩
            | inr hcrossing =>
              obtain ⟨t, _, hat⟩ := List.mem_filterMap.mp hcrossing
              obtain ⟨_, hmetric, _, hid⟩ := crossingAt_eq_some hat
              exact ⟨hmetric, hid⟩

/-- The crossings among the events of a metric are the crossings of its readings. -/
theorem sides_metricEvents (h : metricEvents observation previous metric = .ok events)
    (ht : threshold ∈ boostThresholds) :
    (events.filter (·.isCrossing metric threshold)).map BoostEvent.side =
      (crossing (previous.bind (·.reading metric threshold))
        (observation.reading metric threshold)).toList := by
  have hreading : previous.bind (·.reading metric threshold) =
      (previous.bind (·.metric metric)).map (·.atLeast threshold) := by
    cases previous <;> rfl
  rw [hreading, BoostObservation.reading]
  unfold metricEvents at h
  cases hcurrent : observation.metric metric with
  | none =>
    simp only [hcurrent] at h
    obtain rfl := Except.ok.inj h
    cases previous.bind (·.metric metric) <;> rfl
  | some current =>
    cases hbefore : previous.bind (·.metric metric) with
    | none =>
      simp only [hcurrent, hbefore] at h
      obtain rfl := Except.ok.inj h
      rfl
    | some before =>
      cases before with
      | nan => simp [hcurrent, hbefore] at h
      | units p =>
        cases current with
        | nan => simp [hcurrent, hbefore] at h
        | units c =>
          simp only [hcurrent, hbefore] at h
          simp only [Option.map_some, StoredNumeric.atLeast]
          split at h
          · next heq =>
            obtain rfl := Except.ok.inj h
            simp [heq, crossing]
          · obtain rfl := Except.ok.inj h
            rw [List.filter_cons_of_neg (by simp [BoostEvent.isCrossing])]
            exact filter_thresholdCrossings ht

theorem nodup_keys_metricEvents (h : metricEvents observation previous metric = .ok events) :
    (events.map BoostEvent.key).Nodup := by
  have hcrossings : ∀ p c : Int,
      ((thresholdCrossings observation metric p c).map BoostEvent.key).Nodup := by
    intro p c
    refine List.Nodup.of_map (fun key => key.2.2.2.2) ?_
    rw [List.map_map, thresholdCrossings_eq, List.map_filterMap]
    refine List.Nodup.filterMap ?_ nodup_boostThresholds
    intro t t' b hb hb'
    obtain ⟨e, he, rfl⟩ := Option.map_eq_some_iff.mp hb
    obtain ⟨e', he', heq⟩ := Option.map_eq_some_iff.mp hb'
    have hvalue : e'.thresholdValue = e.thresholdValue := heq
    rw [(crossingAt_eq_some he).2.2.1, (crossingAt_eq_some he').2.2.1] at hvalue
    exact (Option.some.inj hvalue).symm
  unfold metricEvents at h
  cases hcurrent : observation.metric metric with
  | none =>
    simp only [hcurrent] at h
    obtain rfl := Except.ok.inj h
    exact List.nodup_nil
  | some current =>
    cases hbefore : previous.bind (·.metric metric) with
    | none =>
      simp only [hcurrent, hbefore] at h
      obtain rfl := Except.ok.inj h
      exact List.nodup_singleton _
    | some before =>
      cases before with
      | nan => simp [hcurrent, hbefore] at h
      | units p =>
        cases current with
        | nan => simp [hcurrent, hbefore] at h
        | units c =>
          simp only [hcurrent, hbefore] at h
          split at h
          · obtain rfl := Except.ok.inj h
            exact List.nodup_nil
          · obtain rfl := Except.ok.inj h
            rw [List.map_cons, List.nodup_cons]
            refine ⟨?_, hcrossings p c⟩
            intro hmem
            obtain ⟨e, he, hkey⟩ := List.mem_map.mp hmem
            obtain ⟨t, _, hat⟩ := List.mem_filterMap.mp he
            have htype := congrArg (fun key => key.2.1) hkey
            simp only [BoostEvent.key, (crossingAt_eq_some hat).1] at htype
            cases htype

/-- What the events of an observation are. -/
structure ObservationEvents (observation : BoostObservation Digest)
    (previous : Option (BoostObservation Digest)) (events : List BoostEvent) : Prop where
  ids : ∀ event ∈ events, event.boostObservationId = observation.id
  keys : (events.map BoostEvent.key).Nodup
  sides : ∀ metric, ∀ threshold ∈ boostThresholds,
    (events.filter (·.isCrossing metric threshold)).map BoostEvent.side =
      (crossing (previous.bind (·.reading metric threshold))
        (observation.reading metric threshold)).toList

theorem observationEvents_spec (h : observationEvents observation previous = .ok events) :
    ObservationEvents observation previous events := by
  simp only [observationEvents, bind_eq_ok, pure_eq_ok] at h
  obtain ⟨active, hactive, amount, hamount, total, htotal, rfl⟩ := h
  have hother {m m' : BoostMetric} {es : List BoostEvent} (hne : m ≠ m') {t : Int}
      (hes : metricEvents observation previous m = .ok es) :
      es.filter (·.isCrossing m' t) = [] := by
    rw [List.filter_eq_nil_iff]
    intro e he
    simp [BoostEvent.isCrossing, (metricEvents_of hes he).1, hne]
  constructor
  · intro event hevent
    rw [List.mem_append, List.mem_append] at hevent
    rcases hevent with (hmem | hmem) | hmem
    · exact (metricEvents_of hactive hmem).2
    · exact (metricEvents_of hamount hmem).2
    · exact (metricEvents_of htotal hmem).2
  · have hdisjoint {m m' : BoostMetric} {es es' : List BoostEvent} (hne : m ≠ m')
        (hes : metricEvents observation previous m = .ok es)
        (hes' : metricEvents observation previous m' = .ok es') :
        ∀ a ∈ es.map BoostEvent.key, ∀ b ∈ es'.map BoostEvent.key, a ≠ b := by
      intro a ha b hb hab
      obtain ⟨e, he, rfl⟩ := List.mem_map.mp ha
      obtain ⟨e', he', rfl⟩ := List.mem_map.mp hb
      have hmetric : e.metric = e'.metric := congrArg (fun key => key.2.2.1) hab
      rw [(metricEvents_of hes he).1, (metricEvents_of hes' he').1] at hmetric
      exact hne hmetric
    rw [List.map_append, List.map_append, List.nodup_append, List.nodup_append]
    refine ⟨⟨nodup_keys_metricEvents hactive, nodup_keys_metricEvents hamount,
      hdisjoint (by decide) hactive hamount⟩, nodup_keys_metricEvents htotal, ?_⟩
    intro a ha b hb
    cases List.mem_append.mp ha with
    | inl hfirst => exact hdisjoint (by decide) hactive htotal a hfirst b hb
    | inr hsecond => exact hdisjoint (by decide) hamount htotal a hsecond b hb
  · intro metric threshold ht
    rw [List.filter_append, List.filter_append]
    cases metric with
    | activeBoostCount =>
      rw [hother (by decide) hamount, hother (by decide) htotal, List.append_nil, List.append_nil]
      exact sides_metricEvents hactive ht
    | amount =>
      rw [hother (by decide) hactive, hother (by decide) htotal, List.nil_append, List.append_nil]
      exact sides_metricEvents hamount ht
    | totalAmount =>
      rw [hother (by decide) hactive, hother (by decide) hamount, List.nil_append]
      exact sides_metricEvents htotal ht

/-- Events of new and distinct keys are all inserted, in their order. -/
theorem foldl_insertEvent {recorded : List BoostEvent}
    (hfresh : ∀ e ∈ events, ∀ e' ∈ recorded, e.key ≠ e'.key)
    (hnodup : (recorded.map BoostEvent.key).Nodup) :
    recorded.foldl insertEvent events = events ++ recorded := by
  induction recorded generalizing events with
  | nil => rw [List.foldl_nil, List.append_nil]
  | cons first rest ih =>
    rw [List.map_cons, List.nodup_cons] at hnodup
    have hnew : events.any (·.key = first.key) = false := by
      rw [List.any_eq_false]
      intro e he hkey
      exact hfresh e he first List.mem_cons_self (of_decide_eq_true hkey)
    have hinsert : insertEvent events first = events ++ [first] := by
      rw [insertEvent, hnew, if_neg Bool.false_ne_true]
    have hrest : ∀ e ∈ events ++ [first], ∀ e' ∈ rest, e.key ≠ e'.key := by
      intro e he e' he' hkey
      cases List.mem_append.mp he with
      | inl hold => exact hfresh e hold e' (List.mem_cons_of_mem _ he') hkey
      | inr hfirst =>
        rw [List.mem_singleton.mp hfirst] at hkey
        exact hnodup.1 (List.mem_map.mpr ⟨e', he', hkey.symm⟩)
    rw [List.foldl_cons, hinsert, ih hrest hnodup.2, List.append_assoc, List.singleton_append]

end Events

/-! ### Deliveries to a scope -/

section Deliveries

variable {Digest : Type} (hashing : EnrichmentHashing Digest)
  (scope : Uuid × BoostSource × Option Uuid)

def scopeRows (store : BoostStore Digest) : List (BoostObservation Digest) :=
  store.observations.filter fun row => row.scope = scope

/-- The crossings of a threshold that are recorded for the scope. -/
def scopeCrossings (metric : BoostMetric) (threshold : Int) (store : BoostStore Digest) :
    List BoostEvent :=
  store.events.filter fun event => event.isCrossing metric threshold &&
    (scopeRows scope store).any fun row => row.id = event.boostObservationId

/-- The crossings of every threshold alternate, and the last one, or else the first value known of
the metric, tells on which side of the threshold the latest known value is. -/
def TellsSide (store : BoostStore Digest) : Prop :=
  ∀ metric, ∀ threshold ∈ boostThresholds,
    Tells (known ((scopeRows scope store).map (·.reading metric threshold)))
      ((scopeCrossings scope metric threshold store).map BoostEvent.side)

/-- A delivery that can be recorded keeps to the side known last of every metric that the latest
row of the scope lacks. -/
def KeepsSide (store : BoostStore Digest) (d : BoostDelivery) : Prop :=
  d.fits = true → (∀ p ∈ (scopeRows scope store).getLast?, p.Comparable (d.values hashing)) →
    ∀ metric, ∀ threshold ∈ boostThresholds,
      Agrees ((scopeRows scope store).map (·.reading metric threshold))
        ((d.values hashing).reading metric threshold)

/-- The rows of a scope are deliveries of it, its crossings those of their readings, and every
event is of a stored row. -/
structure Recorded (before : List (BoostObservation Digest)) (kept : List BoostDelivery)
    (store : BoostStore Digest) : Prop where
  rows : store.observations = before ++ kept.map (·.values hashing)
  crossings : ∀ metric, ∀ threshold ∈ boostThresholds,
    (scopeCrossings scope metric threshold store).map BoostEvent.side =
      crossings ((kept.map (·.values hashing)).map (·.reading metric threshold))
  owned : ∀ event ∈ store.events, ∃ row ∈ store.observations, row.id = event.boostObservationId

variable {hashing scope} {before : List (BoostObservation Digest)} {kept done : List BoostDelivery}
  {d : BoostDelivery} {store : BoostStore Digest}

theorem scopeRows_eq (h : BoostHistory hashing scope before done) (hkept : kept.Sublist done)
    (hrows : store.observations = before ++ kept.map (·.values hashing)) :
    scopeRows scope store = kept.map (·.values hashing) := by
  rw [scopeRows, hrows]
  exact History.filter_rows h hkept

theorem metric_of_fact {a b : BoostDelivery} (h : a.fact = b.fact) (metric : BoostMetric) :
    (a.values hashing).metric metric = (b.values hashing).metric metric := by
  cases metric <;> simp [BoostObservation.metric, BoostDelivery.values, h]

theorem metric_of_absent (h : d.fact.isAbsent = true) (metric : BoostMetric) :
    (d.values hashing).metric metric = none := by
  simp only [BoostCreate.isAbsent, Bool.and_eq_true, Option.isNone_iff_eq_none] at h
  cases metric <;> simp [BoostObservation.metric, BoostDelivery.values, h]

/-- A recorded delivery adds its row and the crossings of its readings. -/
theorem Recorded.concat (h : BoostHistory hashing scope before (done ++ [d]))
    (hkept : kept.Sublist done) (hrec : Recorded hashing scope before kept store)
    {recorded : List BoostEvent}
    (hevents : ObservationEvents (d.values hashing) (kept.getLast?.map (·.values hashing)) recorded) :
    recorded.foldl insertEvent store.events = store.events ++ recorded ∧
      Recorded hashing scope before (kept ++ [d])
        ⟨before ++ (kept ++ [d]).map (·.values hashing), store.events ++ recorded⟩ := by
  have hfresh := h.fresh hkept BoostHistory.request_eq_of_key
  have hid : ∀ row ∈ store.observations, row.id ≠ (d.values hashing).id := by
    intro row hrow heq
    rw [hrec.rows] at hrow
    have hsame := hfresh row hrow
    rw [sameIdentity, heq] at hsame
    simp at hsame
  have hold : ∀ event ∈ store.events, event.boostObservationId ≠ (d.values hashing).id := by
    intro event hevent heq
    obtain ⟨row, hrow, hrowid⟩ := hrec.owned event hevent
    exact hid row hrow (hrowid.trans heq)
  have hrows : scopeRows scope store = kept.map (·.values hashing) :=
    scopeRows_eq (h.of_sublist (List.sublist_append_left done [d])) hkept hrec.rows
  have hrows' : scopeRows scope (⟨before ++ (kept ++ [d]).map (·.values hashing),
      store.events ++ recorded⟩ : BoostStore Digest) = (kept ++ [d]).map (·.values hashing) :=
    scopeRows_eq h (hkept.append (List.Sublist.refl [d])) rfl
  refine ⟨?_, rfl, ?_, ?_⟩
  · refine foldl_insertEvent ?_ hevents.keys
    intro e he e' he' hkey
    refine hold e he ?_
    rw [← hevents.ids e' he']
    exact congrArg Prod.fst hkey
  · intro metric threshold ht
    have hbefore : (store.events.filter fun event => event.isCrossing metric threshold &&
        ((kept ++ [d]).map (·.values hashing)).any fun row => row.id = event.boostObservationId) =
        scopeCrossings scope metric threshold store := by
      rw [scopeCrossings, hrows]
      refine List.filter_congr fun event hevent => ?_
      have hne : ((d.values hashing).id = event.boostObservationId) = False :=
        eq_false fun heq => hold event hevent heq.symm
      simp [List.any_append, hne]
    have hafter : (recorded.filter fun event => event.isCrossing metric threshold &&
        ((kept ++ [d]).map (·.values hashing)).any fun row => row.id = event.boostObservationId) =
        recorded.filter (·.isCrossing metric threshold) := by
      refine List.filter_congr fun event hevent => ?_
      simp [List.any_append, hevents.ids event hevent]
    rw [scopeCrossings, hrows', List.filter_append, hbefore, hafter, List.map_append,
      hrec.crossings metric threshold ht, hevents.sides metric threshold ht, List.map_append,
      List.map_append, List.map_singleton, List.map_singleton, crossings_concat]
    congr 3
    rw [List.getLast?_map, List.getLast?_map]
    cases kept.getLast? <;> rfl
  · intro event hevent
    cases List.mem_append.mp hevent with
    | inl hold =>
      obtain ⟨row, hrow, hrowid⟩ := hrec.owned event hold
      refine ⟨row, ?_, hrowid⟩
      rw [hrec.rows] at hrow
      rw [List.map_append, ← List.append_assoc]
      exact List.mem_append_left _ hrow
    | inr hnew =>
      refine ⟨d.values hashing, ?_, (hevents.ids event hnew).symm⟩
      rw [List.map_append, ← List.append_assoc]
      exact List.mem_append_right _ (List.mem_singleton_self _)

/-! ### Runs of deliveries -/

variable [DecidableEq Digest]

variable (hashing) in
/-- A delivery, in a transaction of its own. -/
def deliverBoost (store : BoostStore Digest) (d : BoostDelivery) : BoostStore Digest :=
  match recordBoost hashing d store with
  | .ok (store', _) => store'
  | .error _ => store

/-- A delivery is recorded, or it leaves everything as it is and moves over no threshold. -/
theorem deliverBoost_cases (hdigest : Function.Injective hashing.boost)
    (h : BoostHistory hashing scope before (done ++ [d])) (hkept : kept.Sublist done)
    (hrec : Recorded hashing scope before kept store) :
    (deliverBoost hashing store d = store ∧ KeepsSide hashing scope store d) ∨
    (d.fits = true ∧ (∀ p ∈ (scopeRows scope store).getLast?, p.Comparable (d.values hashing)) ∧
      Recorded hashing scope before (kept ++ [d]) (deliverBoost hashing store d)) := by
  have hrows : scopeRows scope store = kept.map (·.values hashing) :=
    scopeRows_eq (h.of_sublist (List.sublist_append_left done [d])) hkept hrec.rows
  cases habsent : d.fact.isAbsent with
  | true =>
    refine .inl ⟨?_, ?_⟩
    · rw [deliverBoost, recordBoost, habsent, if_pos rfl]
    · intro _ _ metric threshold _ _ _ _ b hb
      rw [BoostObservation.reading, metric_of_absent habsent] at hb
      cases hb
  | false =>
    by_cases hsame : kept.getLast?.map (·.fact) = some d.fact
    · refine .inl ⟨?_, ?_⟩
      · rw [deliverBoost, BoostHistory.recordBoost_same hdigest h habsent hkept hrec.rows hsame]
      · -- the latest row lacks a metric exactly when this delivery does
        intro _ _ metric threshold _ hnone _ _ b hb
        obtain ⟨last, hlast, hfact⟩ := Option.map_eq_some_iff.mp hsame
        rw [hrows, List.getLast?_map, List.getLast?_map, hlast] at hnone
        have hreading : (last.values hashing).reading metric threshold =
            (d.values hashing).reading metric threshold := by
          rw [BoostObservation.reading, BoostObservation.reading, metric_of_fact hfact]
        rw [← hreading] at hb
        exact absurd (hnone.symm.trans hb) (Option.some_ne_none b).symm
    · have hnew := BoostHistory.recordBoost_new hdigest h habsent hkept hrec.rows hsame
      by_cases hfits : d.fits = true
      · rw [if_pos hfits] at hnew
        cases hevents : observationEvents (d.values hashing) (kept.getLast?.map (·.values hashing)) with
        | error e =>
          refine .inl ⟨?_, ?_⟩
          · rw [deliverBoost, hnew, hevents]
            rfl
          · intro _ hcomparable
            rw [hrows, List.getLast?_map] at hcomparable
            obtain ⟨events, hok⟩ := (observationEvents_ok_iff _ _).mpr hcomparable
            rw [hok] at hevents
            cases hevents
        | ok recorded =>
          obtain ⟨hinsert, hconcat⟩ := hrec.concat h hkept (observationEvents_spec hevents)
          refine .inr ⟨hfits, ?_, ?_⟩
          · rw [hrows, List.getLast?_map]
            exact (observationEvents_ok_iff _ _).mp ⟨recorded, hevents⟩
          · rw [deliverBoost, hnew, hevents]
            simp only [Except.map, hinsert]
            exact hconcat
      · refine .inl ⟨?_, fun htrue => absurd htrue hfits⟩
        rw [deliverBoost, hnew, if_neg hfits]

/-- In a run of deliveries to a scope the crossings tell the side in every state, if and only if
every delivery keeps to the side known last of the metrics that the latest row lacks. -/
theorem crossings_tell_side_iff (hdigest : Function.Injective hashing.boost)
    {log : List BoostDelivery} (h : BoostHistory hashing scope before log)
    {events : List BoostEvent}
    (hevents : ∀ event ∈ events, ∃ row ∈ before, row.id = event.boostObservationId) :
    Always (deliverBoost hashing) (TellsSide scope) ⟨before, events⟩ log ↔
      Steps (deliverBoost hashing) (KeepsSide hashing scope) ⟨before, events⟩ log := by
  have hstart : scopeRows scope (⟨before, events⟩ : BoostStore Digest) = [] := by
    rw [scopeRows, List.filter_eq_nil_iff]
    intro row hrow heq
    exact h.noneBefore row hrow (of_decide_eq_true heq)
  have hnone : ∀ metric threshold,
      scopeCrossings scope metric threshold (⟨before, events⟩ : BoostStore Digest) = [] := by
    intro metric threshold
    rw [scopeCrossings, hstart, List.filter_eq_nil_iff]
    intro event _
    simp
  refine always_iff_steps_along
    (H := fun done store => ∃ kept, kept.Sublist done ∧ Recorded hashing scope before kept store)
    ?_ ?_ ?_ ?_
  · intro done d store hdone ⟨kept, hkept, hrec⟩
    have hhistory := h.of_sublist hdone.sublist
    cases deliverBoost_cases hdigest hhistory hkept hrec with
    | inl hsame =>
      rw [hsame.1]
      exact ⟨kept, hkept.trans (List.sublist_append_left done [d]), hrec⟩
    | inr hrecorded =>
      exact ⟨kept ++ [d], hkept.append (List.Sublist.refl [d]), hrecorded.2.2⟩
  · intro done d store hdone ⟨kept, hkept, hrec⟩ htells
    have hhistory := h.of_sublist hdone.sublist
    have hrows := scopeRows_eq (hhistory.of_sublist (List.sublist_append_left done [d])) hkept
      hrec.rows
    cases deliverBoost_cases hdigest hhistory hkept hrec with
    | inl hsame =>
      rw [hsame.1]
      exact iff_of_true htells hsame.2
    | inr hrecorded =>
      obtain ⟨hfits, hcomparable, hnext⟩ := hrecorded
      have hrows' := scopeRows_eq hhistory (hkept.append (List.Sublist.refl [d])) hnext.rows
      have hiff : ∀ metric, ∀ threshold ∈ boostThresholds,
          (Tells (known ((scopeRows scope (deliverBoost hashing store d)).map
              (·.reading metric threshold)))
            ((scopeCrossings scope metric threshold (deliverBoost hashing store d)).map
              BoostEvent.side) ↔
          Agrees ((scopeRows scope store).map (·.reading metric threshold))
            ((d.values hashing).reading metric threshold)) := by
        intro metric threshold ht
        have hbefore := htells metric threshold ht
        rw [hrec.crossings metric threshold ht, hrows] at hbefore
        rw [hnext.crossings metric threshold ht, hrows', hrows, List.map_append, List.map_append,
          List.map_singleton, List.map_singleton]
        exact tells_concat_iff hbefore _
      constructor
      · intro hall _ _ metric threshold ht
        exact (hiff metric threshold ht).mp (hall metric threshold ht)
      · intro hkeeps metric threshold ht
        exact (hiff metric threshold ht).mpr (hkeeps hfits hcomparable metric threshold ht)
  · refine ⟨[], List.Sublist.refl [], (List.append_nil before).symm, ?_, hevents⟩
    intro metric threshold _
    rw [hnone]
    rfl
  · intro metric threshold _
    rw [hstart, hnone]
    exact Tells.nil

end Deliveries

/-- Digests that are the contents of boosts, and identifiers that are the requests. -/
def boostDigests : EnrichmentHashing BoostCreate where
  pairFact _ := ⟨none, none, none⟩
  metadata _ := ⟨none, none, none⟩
  boost content := content
  uuid5
    | .pairFact _ requestId _ => requestId
    | .metadata _ _ _ _ evidenceId _ => evidenceId.getD 0
    | .boost _ _ _ requestId _ => requestId

/-- A delivery of a count and an amount, either of them possibly missing. -/
def countAt (i : Uuid) (count : Option Int) (amount : Option Nat) : BoostDelivery :=
  { boostAt i i 0 with fact := ⟨count, amount.map fun n => .finite false n 0, none⟩ }

theorem countAt_history (log : List (Uuid × Option Int × Option Nat))
    (h : log.Pairwise fun a b => a.1 < b.1) :
    BoostHistory boostDigests (1, .topFeed, none) []
      (log.map fun entry => countAt entry.1 entry.2.1 entry.2.2) where
  noneBefore := by simp
  unknown := by simp
  inScope d hd := by
    obtain ⟨entry, _, rfl⟩ := List.mem_map.mp hd
    rfl
  increasing := by
    rw [List.pairwise_map]
    exact h.imp fun hlt => Int.ofNat_lt.mpr hlt
  distinct := by
    rw [List.pairwise_map]
    exact h.imp fun hlt heq => hlt.ne (Option.some.inj heq)
  noCollision a ha b hb hid := by
    obtain ⟨entry, _, rfl⟩ := List.mem_map.mp ha
    obtain ⟨entry', _, rfl⟩ := List.mem_map.mp hb
    have hrequest : entry.1 = entry'.1 := hid
    simp only [BoostDelivery.values, BoostDelivery.key, countAt, boostAt, hrequest]

/-- A count of 0 and then of 5. -/
theorem crossings_tell_side_of_counts :
    Always (deliverBoost boostDigests) (TellsSide (1, .topFeed, none)) ⟨[], []⟩
      [countAt 1 (some 0) none, countAt 2 (some 5) none] := by
  have hhistory := countAt_history [(1, some 0, none), (2, some 5, none)] (by decide)
  refine (crossings_tell_side_iff Function.injective_id hhistory ?_).mpr ⟨?_, ?_, trivial⟩
  · intro event hevent
    cases hevent
  · intro _ _ metric
    cases metric <;> decide
  · intro _ _ metric
    cases metric <;> decide

/-- A count of 0, then none with another amount, then of 5: the move over 1 is not recorded. -/
theorem hidden_crossing :
    BoostHistory boostDigests (1, .topFeed, none) []
      [countAt 1 (some 0) none, countAt 2 none (some 1), countAt 3 (some 5) none] ∧
    Function.Injective boostDigests.boost ∧
    ¬ Always (deliverBoost boostDigests) (TellsSide (1, .topFeed, none)) ⟨[], []⟩
      [countAt 1 (some 0) none, countAt 2 none (some 1), countAt 3 (some 5) none] := by
  refine ⟨countAt_history [(1, some 0, none), (2, none, some 1), (3, some 5, none)]
    (by decide), Function.injective_id, ?_⟩
  intro halways
  have htells := halways.final .activeBoostCount numericUnit (by decide)
  exact absurd htells.side (by decide)

end PumpResearch.Collection
