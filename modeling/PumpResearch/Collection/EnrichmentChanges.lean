import PumpResearch.Collection.EnrichmentRecords

/-! The rows of a scope are the compressed log of its deliveries: at every time they tell the
content that was delivered last. -/
namespace PumpResearch.Collection

open ChangeLog Discovery KeyedOrder Results Utf8

/-! ### One delivery -/

section Change

variable {Digest Row : Type} {base : Row → EnrichmentRow Digest}
  {inScope accepts : Row → Bool} {conflict : String} {values : Row} {rows : List Row}

theorem sameIdentity_self (row : Row) : sameIdentity base row row = true := by simp [sameIdentity]

variable [DecidableEq Digest]

theorem any_eq_true_iff {previous : Option Row} {digest : Digest} :
    previous.any (fun row => (base row).contentSha256 = digest) = true ↔
      previous.map (fun row => (base row).contentSha256) = some digest := by
  cases previous with
  | none => simp
  | some row => simp

theorem recordChange_same
    (h : (latestRow base (rows.filter inScope)).map (fun row => (base row).contentSha256) =
      some (base values).contentSha256) :
    recordChange base inScope accepts conflict values rows =
      .ok ⟨rows, none, false, latestRow base (rows.filter inScope)⟩ := by
  rw [recordChange, if_pos (any_eq_true_iff.mpr h)]

/-- A new content of a new identity is inserted, if its columns have room for it. -/
theorem recordChange_new
    (h : (latestRow base (rows.filter inScope)).map (fun row => (base row).contentSha256) ≠
      some (base values).contentSha256)
    (hfresh : ∀ row ∈ rows, sameIdentity base values row = false) :
    recordChange base inScope accepts conflict values rows =
      if accepts values then
        .ok ⟨rows ++ [values], some values, true, latestRow base (rows.filter inScope)⟩
      else .error .data := by
  have hany : rows.any (sameIdentity base values) = false := by
    rw [List.any_eq_false]
    intro row hrow
    rw [hfresh row hrow]
    exact Bool.false_ne_true
  have hfind : (rows ++ [values]).find? (sameIdentity base values) = some values := by
    rw [List.find?_append, List.find?_eq_none.mpr fun row hrow => by rw [hfresh row hrow]; simp,
      Option.none_or, List.find?_cons_of_pos (sameIdentity_self values)]
  rw [recordChange, if_neg fun hsame => h (any_eq_true_iff.mp hsame)]
  cases accepts values with
  | false => rfl
  | true =>
    rw [hany]
    simp only [if_true, Bool.not_false, hfind]

end Change

/-! ### Deliveries of one scope -/

section History

variable {Digest Row Scope D : Type} (base : Row → EnrichmentRow Digest) (scopeOf : Row → Scope)
  (values : D → Row) (request : D → Option Uuid) (scope : Scope)

/-- Deliveries of one scope in order of time, each of a request of its own, to a table that has
no row of the scope or of an identity of theirs. -/
structure History (before : List Row) (log : List D) : Prop where
  noneBefore : ∀ row ∈ before, scopeOf row ≠ scope
  unknown : ∀ row ∈ before, ∀ d ∈ log, sameIdentity base (values d) row = false
  inScope : ∀ d ∈ log, scopeOf (values d) = scope
  increasing : log.Pairwise fun a b => (base (values a)).receivedAt < (base (values b)).receivedAt
  distinct : log.Pairwise fun a b => request a ≠ request b
  noCollision : ∀ a ∈ log, ∀ b ∈ log, (base (values a)).id = (base (values b)).id →
    (base (values a)).idempotencyKey = (base (values b)).idempotencyKey

variable {base scopeOf values request scope} {before : List Row} {log : List D}

theorem History.of_sublist {done : List D} (h : History base scopeOf values request scope before log)
    (hdone : done.Sublist log) : History base scopeOf values request scope before done where
  noneBefore := h.noneBefore
  unknown row hrow d hd := h.unknown row hrow d (hdone.subset hd)
  inScope d hd := h.inScope d (hdone.subset hd)
  increasing := h.increasing.sublist hdone
  distinct := h.distinct.sublist hdone
  noCollision a ha b hb := h.noCollision a (hdone.subset ha) b (hdone.subset hb)

/-- One delivery to an empty table. -/
theorem History.singleton {d : D} (h : scopeOf (values d) = scope) :
    History base scopeOf values request scope [] [d] where
  noneBefore := by simp
  unknown := by simp
  inScope a ha := by rw [List.mem_singleton.mp ha, h]
  increasing := List.pairwise_singleton _ _
  distinct := List.pairwise_singleton _ _
  noCollision a ha b hb _ := by rw [List.mem_singleton.mp ha, List.mem_singleton.mp hb]

/-- Among rows in order of time the latest is the last. -/
theorem latestRow_map {kept : List D}
    (h : kept.Pairwise fun a b => (base (values a)).receivedAt < (base (values b)).receivedAt) :
    latestRow base (kept.map values) = kept.getLast?.map values := by
  rw [latestRow, firstMax, argmax_eq_getLast?, List.getLast?_map]
  rw [List.pairwise_map]
  exact h.imp fun hlt => Prod.Lex.toLex_lt_toLex.mpr (.inl hlt)

/-- A delivery has an identity that no row before it has. -/
theorem History.fresh {done kept : List D} {d : D}
    (h : History base scopeOf values request scope before (done ++ [d]))
    (hkept : kept.Sublist done)
    (hkey : ∀ a b, (base (values a)).idempotencyKey = (base (values b)).idempotencyKey →
      request a = request b) :
    ∀ row ∈ before ++ kept.map values, sameIdentity base (values d) row = false := by
  intro row hrow
  have hd : d ∈ done ++ [d] := List.mem_append_right done List.mem_cons_self
  cases List.mem_append.mp hrow with
  | inl hbefore => exact h.unknown row hbefore d hd
  | inr hmap =>
    obtain ⟨a, ha, rfl⟩ := List.mem_map.mp hmap
    have hadone := hkept.subset ha
    have hrequest : request a ≠ request d :=
      (List.pairwise_append.mp h.distinct).2.2 a hadone d List.mem_cons_self
    have hkeys : (base (values d)).idempotencyKey ≠ (base (values a)).idempotencyKey :=
      fun heq => hrequest (hkey d a heq).symm
    have hids : (base (values d)).id ≠ (base (values a)).id :=
      fun heq => hkeys (h.noCollision d hd a (List.mem_append_left _ hadone) heq)
    simp [sameIdentity, hkeys, hids]

variable [DecidableEq Scope]

/-- The rows of the scope are those of the entries kept. -/
theorem History.filter_rows (h : History base scopeOf values request scope before log)
    {kept : List D} (hkept : kept.Sublist log) :
    (before ++ kept.map values).filter (fun row => scopeOf row = scope) = kept.map values := by
  rw [List.filter_append, List.filter_eq_nil_iff.mpr fun row hrow => by simpa using h.noneBefore row hrow,
    List.nil_append, List.filter_eq_self]
  intro row hrow
  obtain ⟨d, hd, rfl⟩ := List.mem_map.mp hrow
  simpa using h.inScope d (hkept.subset hd)

theorem History.latestRow (h : History base scopeOf values request scope before log)
    {kept : List D} (hkept : kept.Sublist log) :
    latestRow base ((before ++ kept.map values).filter (fun row => scopeOf row = scope)) =
      kept.getLast?.map values := by
  rw [h.filter_rows hkept, latestRow_map (h.increasing.sublist hkept)]

variable [DecidableEq Digest]

/-- What a delivery does to the rows of a compressed log. -/
theorem History.recordChange {done kept : List D} {d : D} {Content : Type} {content : D → Content}
    (h : History base scopeOf values request scope before (done ++ [d]))
    (hkept : kept.Sublist done)
    (hkey : ∀ a b, (base (values a)).idempotencyKey = (base (values b)).idempotencyKey →
      request a = request b)
    {digest : Content → Digest} (hinjective : digest.Injective)
    (hdigest : ∀ d, (base (values d)).contentSha256 = digest (content d))
    (accepts : Row → Bool) (conflict : String) :
    (kept.getLast?.map content = some (content d) →
      recordChange base (fun row => scopeOf row = scope) accepts conflict (values d)
        (before ++ kept.map values) =
      .ok ⟨before ++ kept.map values, none, false, kept.getLast?.map values⟩) ∧
    (kept.getLast?.map content ≠ some (content d) →
      recordChange base (fun row => scopeOf row = scope) accepts conflict (values d)
        (before ++ kept.map values) =
      if accepts (values d) then
        .ok ⟨before ++ (kept ++ [d]).map values, some (values d), true, kept.getLast?.map values⟩
      else .error .data) := by
  have hlatest := (h.of_sublist (List.sublist_append_left done [d])).latestRow hkept
  have hsame : (kept.getLast?.map values).map (fun row => (base row).contentSha256) =
      some (base (values d)).contentSha256 ↔ kept.getLast?.map content = some (content d) := by
    have hmap : (kept.getLast?.map values).map (fun row => (base row).contentSha256) =
        (kept.getLast?.map content).map digest := by
      simp only [Option.map_map, Function.comp_def, hdigest]
    rw [hmap, hdigest d, ← Option.map_some]
    exact (Option.map_injective hinjective).eq_iff
  rw [ne_eq, ← hsame, ← hlatest]
  constructor
  · exact recordChange_same
  · intro hnew
    rw [recordChange_new hnew (h.fresh hkept hkey), List.map_append, List.map_singleton,
      List.append_assoc]

/-- A repository that returns what `recordChange` leaves records a compressed log. -/
theorem History.records {done : List D} {d : D} {Content : Type} [DecidableEq Content]
    {content : D → Content}
    (h : History base scopeOf values request scope before (done ++ [d]))
    (hkey : ∀ a b, (base (values a)).idempotencyKey = (base (values b)).idempotencyKey →
      request a = request b)
    {digest : Content → Digest} (hinjective : digest.Injective)
    (hdigest : ∀ d, (base (values d)).contentSha256 = digest (content d))
    (accepts : Row → Bool) (conflict : String)
    {step : List Row → D → Except EnrichmentError (List Row)}
    (hstep : ∀ rows, step rows d = (Collection.recordChange base (fun row => scopeOf row = scope)
      accepts conflict (values d) rows).map RecordedChange.rows) :
    Records content values (fun rows => rows) step (fun d => accepts (values d) = true)
      (fun _ _ => True) before (compress content done) d := by
  obtain ⟨hsame, hnew⟩ := h.recordChange (compress_sublist content done) hkey hinjective hdigest
    accepts conflict
  refine ⟨?_, ?_, ?_⟩
  · intro s hs hlast
    exact ⟨_, by rw [hs, hstep, hsame hlast]; rfl, rfl⟩
  · intro s hs hlast hadmitted
    exact ⟨_, by rw [hs, hstep, hnew hlast, if_pos hadmitted.1]; rfl, rfl⟩
  · intro s s' hs hlast hdone
    rw [hs, hstep, hnew hlast] at hdone
    refine ⟨?_, fun _ _ => trivial⟩
    by_contra hfits
    rw [if_neg hfits] at hdone
    cases hdone

end History

/-! ### Lossless rows -/

section Lossless

variable {Digest Row Scope D : Type} [DecidableEq Scope]
  (base : Row → EnrichmentRow Digest) (scopeOf : Row → Scope) (values : D → Row) (scope : Scope)
  {Content : Type} [DecidableEq Content] (content : D → Content)

/-- At every time the latest row has the digest of the content delivered last, and there is one
row for every change of the content. -/
structure Lossless (log : List D) (rows : List Row) : Prop where
  asOf : ∀ t, (latestRow base
      ((rows.filter fun row => scopeOf row = scope).filter fun row =>
        (base row).receivedAt ≤ t)).map (fun row => (base row).contentSha256) =
    (asOf (fun d => (base (values d)).receivedAt) t log).map
      fun d => (base (values d)).contentSha256
  length : (rows.filter fun row => scopeOf row = scope).length = changes none (log.map content)

variable {base scopeOf values scope content} {request : D → Option Uuid} {before : List Row}
  {log : List D}

/-- The rows of a compressed log tell what the log tells. -/
theorem History.lossless (h : History base scopeOf values request scope before log)
    {digest : Content → Digest} (hdigest : ∀ d, (base (values d)).contentSha256 = digest (content d)) :
    Lossless base scopeOf values scope content log
      (before ++ (compress content log).map values) where
  asOf t := by
    have hsublist := compress_sublist content log
    have hpairwise := h.increasing.sublist hsublist
    have hdigests : (fun d => (base (values d)).contentSha256) = fun d => digest (content d) :=
      funext hdigest
    rw [h.filter_rows hsublist, List.filter_map, latestRow_map (hpairwise.sublist List.filter_sublist),
      Option.map_map]
    have hasOf := asOf_compress (fun d => (base (values d)).receivedAt) content
      (h.increasing.imp le_of_lt) t
    have hmap := congrArg (Option.map digest) hasOf
    rw [Option.map_map, Option.map_map] at hmap
    rw [hdigests]
    simp only [ChangeLog.asOf] at hmap ⊢
    simpa only [Function.comp_def, hdigest] using hmap
  length := by
    rw [h.filter_rows (compress_sublist content log), List.length_map, length_compress]

end Lossless

/-! ### Runs of deliveries -/

section Repositories

variable {Digest : Type} (hashing : EnrichmentHashing Digest)

def PairFactHistory : Uuid × Text → List (PairFactEvent Digest) → List PairFactDelivery → Prop :=
  History PairFactEvent.toEnrichmentRow PairFactEvent.scope (·.values hashing)
    fun d => some d.apiRequestLogId

def MetadataHistory : Uuid × Text × MetadataSource × Option Uuid →
    List (TokenMetadataEvent Digest) → List MetadataDelivery → Prop :=
  History TokenMetadataEvent.toEnrichmentRow TokenMetadataEvent.scope (·.values hashing)
    (·.evidenceId)

def BoostHistory : Uuid × BoostSource × Option Uuid →
    List (BoostObservation Digest) → List BoostDelivery → Prop :=
  History BoostObservation.toEnrichmentRow BoostObservation.scope (·.values hashing)
    fun d => some d.apiRequestLogId

/-- The numbers that two observations both have can be compared. A NaN has no order. -/
def BoostObservation.Comparable (previous observation : BoostObservation Digest) : Prop :=
  ∀ metric, ∀ a ∈ previous.metric metric, ∀ b ∈ observation.metric metric, a ≠ .nan ∧ b ≠ .nan

theorem metricEvents_ok_iff (observation : BoostObservation Digest)
    (previous : Option (BoostObservation Digest)) (metric : BoostMetric) :
    (∃ events, metricEvents observation previous metric = .ok events) ↔
      ∀ p ∈ previous, ∀ a ∈ p.metric metric, ∀ b ∈ observation.metric metric,
        a ≠ .nan ∧ b ≠ .nan := by
  unfold metricEvents
  cases hcurrent : observation.metric metric with
  | none => simp
  | some current =>
    cases previous with
    | none => simp
    | some p =>
      simp only [Option.bind_some, Option.mem_some_iff, forall_eq']
      cases p.metric metric with
      | none => simp
      | some before =>
        cases before with
        | nan => simp
        | units n =>
          cases current with
          | nan => simp
          | units m =>
            by_cases h : n = m
            · simp [h]
            · simp [h]

theorem observationEvents_ok_iff (observation : BoostObservation Digest)
    (previous : Option (BoostObservation Digest)) :
    (∃ events, observationEvents observation previous = .ok events) ↔
      ∀ p ∈ previous, p.Comparable observation := by
  constructor
  · intro ⟨events, hevents⟩ p hp metric
    simp only [observationEvents, bind_eq_ok] at hevents
    obtain ⟨active, hactive, amount, hamount, total, htotal, _⟩ := hevents
    cases metric with
    | activeBoostCount => exact (metricEvents_ok_iff _ _ _).mp ⟨active, hactive⟩ p hp
    | amount => exact (metricEvents_ok_iff _ _ _).mp ⟨amount, hamount⟩ p hp
    | totalAmount => exact (metricEvents_ok_iff _ _ _).mp ⟨total, htotal⟩ p hp
  · intro h
    have hmetric (metric : BoostMetric) :
        ∃ events, metricEvents observation previous metric = .ok events :=
      (metricEvents_ok_iff _ _ _).mpr fun p hp => h p hp metric
    obtain ⟨active, hactive⟩ := hmetric .activeBoostCount
    obtain ⟨amount, hamount⟩ := hmetric .amount
    obtain ⟨total, htotal⟩ := hmetric .totalAmount
    exact ⟨active ++ amount ++ total, by rw [observationEvents, hactive, hamount, htotal]; rfl⟩

variable [DecidableEq Digest]

def deliverPairFacts (log : List PairFactDelivery) (rows : List (PairFactEvent Digest)) :
    Except EnrichmentError (List (PairFactEvent Digest)) :=
  log.foldlM (fun rows d => (recordPairFact hashing d rows).map RecordedChange.rows) rows

def deliverMetadata (log : List MetadataDelivery) (rows : List (TokenMetadataEvent Digest)) :
    Except EnrichmentError (List (TokenMetadataEvent Digest)) :=
  log.foldlM (fun rows d => (recordMetadata hashing d rows).map RecordedChange.rows) rows

def deliverBoosts (log : List BoostDelivery) (store : BoostStore Digest) :
    Except EnrichmentError (BoostStore Digest) :=
  log.foldlM (fun store d => (recordBoost hashing d store).map Prod.fst) store

variable {hashing}

open scoped Classical in
theorem PairFactHistory.records (hdigest : Function.Injective hashing.pairFact)
    {scope : Uuid × Text} {before : List (PairFactEvent Digest)} {done : List PairFactDelivery}
    {d : PairFactDelivery} (h : PairFactHistory hashing scope before (done ++ [d])) :
    Records (·.fact) (·.values hashing) (fun rows => rows)
      (fun rows d => (recordPairFact hashing d rows).map RecordedChange.rows)
      (fun d => (d.values hashing).fits = true) (fun _ _ => True) before
      (compress (·.fact) done) d := by
  have hscope : d.scope = scope := h.inScope d (List.mem_append_right done List.mem_cons_self)
  refine History.records h ?_ hdigest (fun _ => rfl) PairFactEvent.fits
    "pair fact identity maps to different content" ?_
  · intro a b hab
    injection hab with _ hrequest
    exact congrArg some hrequest
  · intro rows
    rw [recordPairFact, hscope]

open scoped Classical in
theorem MetadataHistory.records (hdigest : Function.Injective hashing.metadata)
    {scope : Uuid × Text × MetadataSource × Option Uuid}
    {before : List (TokenMetadataEvent Digest)} {done : List MetadataDelivery}
    {d : MetadataDelivery} (h : MetadataHistory hashing scope before (done ++ [d]))
    (hevidence : d.evidenceId.isSome) (hpresent : d.metadata.isAbsent = false) :
    Records (·.metadata) (·.values hashing) (fun rows => rows)
      (fun rows d => (recordMetadata hashing d rows).map RecordedChange.rows)
      (fun d => (d.values hashing).fits = true) (fun _ _ => True) before
      (compress (·.metadata) done) d := by
  have hscope : d.scope = scope := h.inScope d (List.mem_append_right done List.mem_cons_self)
  refine History.records h ?_ hdigest (fun _ => rfl) TokenMetadataEvent.fits
    "metadata identity maps to different content" ?_
  · intro a b hab
    injection hab
  · intro rows
    have hnone : ¬ d.evidenceId.isNone = true := by rw [Option.isNone_eq_false_iff.mpr hevidence]; simp
    rw [recordMetadata, if_neg hnone, hpresent, if_neg Bool.false_ne_true, hscope]

section Boost

variable {scope : Uuid × BoostSource × Option Uuid} {before : List (BoostObservation Digest)}
  {done kept : List BoostDelivery} {d : BoostDelivery} {store : BoostStore Digest}

omit [DecidableEq Digest] in
theorem BoostHistory.request_eq_of_key (a b : BoostDelivery)
    (h : (a.values hashing).idempotencyKey = (b.values hashing).idempotencyKey) :
    some a.apiRequestLogId = some b.apiRequestLogId := by
  injection h with _ _ _ hrequest
  exact congrArg some hrequest

theorem BoostHistory.recordBoost_same (hdigest : Function.Injective hashing.boost)
    (h : BoostHistory hashing scope before (done ++ [d])) (hpresent : d.fact.isAbsent = false)
    (hkept : kept.Sublist done) (hs : store.observations = before ++ kept.map (·.values hashing))
    (hlast : kept.getLast?.map (·.fact) = some d.fact) :
    recordBoost hashing d store = .ok (store, none) := by
  have hscope : d.scope = scope := h.inScope d (List.mem_append_right done List.mem_cons_self)
  obtain ⟨hsame, _⟩ := History.recordChange h hkept BoostHistory.request_eq_of_key hdigest
    (fun _ => rfl) (fun _ => d.fits) "boost identity maps to different content"
  rw [recordBoost, hpresent, hs, hscope, hsame hlast, ← hs]
  rfl

theorem BoostHistory.recordBoost_new (hdigest : Function.Injective hashing.boost)
    (h : BoostHistory hashing scope before (done ++ [d])) (hpresent : d.fact.isAbsent = false)
    (hkept : kept.Sublist done) (hs : store.observations = before ++ kept.map (·.values hashing))
    (hlast : kept.getLast?.map (·.fact) ≠ some d.fact) :
    recordBoost hashing d store =
      if d.fits then
        (observationEvents (d.values hashing) (kept.getLast?.map (·.values hashing))).map
          fun recorded => (⟨before ++ (kept ++ [d]).map (·.values hashing),
            recorded.foldl insertEvent store.events⟩, some (d.values hashing))
      else .error .data := by
  have hscope : d.scope = scope := h.inScope d (List.mem_append_right done List.mem_cons_self)
  obtain ⟨_, hnew⟩ := History.recordChange h hkept BoostHistory.request_eq_of_key hdigest
    (fun _ => rfl) (fun _ => d.fits) "boost identity maps to different content"
  rw [recordBoost, hpresent, hs, hscope, hnew hlast]
  cases d.fits with
  | false => rfl
  | true =>
    simp only [Bool.false_eq_true, if_false, if_true, ok_bind, recordEvents]
    cases observationEvents (d.values hashing) (kept.getLast?.map (·.values hashing)) with
    | error e => rfl
    | ok recorded => rfl

theorem BoostHistory.records (hdigest : Function.Injective hashing.boost)
    (h : BoostHistory hashing scope before (done ++ [d])) (hpresent : d.fact.isAbsent = false) :
    Records (·.fact) (·.values hashing) BoostStore.observations
      (fun store d => (recordBoost hashing d store).map Prod.fst) (fun d => d.fits = true)
      (fun p d => (p.values hashing).Comparable (d.values hashing)) before
      (compress (·.fact) done) d := by
  have hsublist : (compress (·.fact) done).Sublist done := compress_sublist (·.fact) done
  refine ⟨?_, ?_, ?_⟩
  · intro store hs hlast
    exact ⟨store, by rw [BoostHistory.recordBoost_same hdigest h hpresent hsublist hs hlast]; rfl, hs⟩
  · intro store hs hlast hadmitted
    have hcomparable : ∀ p ∈ (compress (·.fact) done).getLast?.map (·.values hashing),
        p.Comparable (d.values hashing) := by
      intro p hp
      obtain ⟨b, hb, rfl⟩ := Option.map_eq_some_iff.mp hp
      exact hadmitted.2 b hb
    obtain ⟨recorded, hrecorded⟩ := (observationEvents_ok_iff _ _).mpr hcomparable
    refine ⟨⟨before ++ (compress (·.fact) done ++ [d]).map (·.values hashing),
      recorded.foldl insertEvent store.events⟩, ?_, rfl⟩
    rw [BoostHistory.recordBoost_new hdigest h hpresent hsublist hs hlast, if_pos hadmitted.1,
      hrecorded]
    rfl
  · intro store store' hs hlast hstep
    rw [BoostHistory.recordBoost_new hdigest h hpresent hsublist hs hlast] at hstep
    by_cases hfits : d.fits = true
    · rw [if_pos hfits, map_eq_ok] at hstep
      obtain ⟨_, hrecord, _⟩ := hstep
      obtain ⟨recorded, hrecorded, _⟩ := map_eq_ok.mp hrecord
      refine ⟨hfits, ?_⟩
      intro b hb
      exact (observationEvents_ok_iff _ _).mp ⟨recorded, hrecorded⟩ _ (Option.mem_map_of_mem _ hb)
    · rw [if_neg hfits] at hstep
      cases hstep

end Boost

omit [DecidableEq Digest] in
/-- The run of a recording repository is lossless if and only if its log is accepted. -/
theorem History.exists_lossless_iff {Row Scope D σ Content : Type} [DecidableEq Scope]
    [DecidableEq Content] {base : Row → EnrichmentRow Digest} {scopeOf : Row → Scope}
    {values : D → Row} {request : D → Option Uuid} {scope : Scope} {before : List Row}
    {log : List D} (h : History base scopeOf values request scope before log)
    {content : D → Content} {rowsOf : σ → List Row} {step : σ → D → Except EnrichmentError σ}
    {fits : D → Prop} {follows : D → D → Prop}
    (hrecords : ∀ done d, (done ++ [d]) <+: log →
      Records content values rowsOf step fits follows before (compress content done) d)
    (s₀ : σ) (hstart : rowsOf s₀ = before) {digest : Content → Digest}
    (hdigest : ∀ d, (base (values d)).contentSha256 = digest (content d)) :
    (∃ s, log.foldlM step s₀ = .ok s ∧ Lossless base scopeOf values scope content log (rowsOf s)) ↔
      Accepted content fits follows log := by
  obtain ⟨hrun, hexists⟩ := run_records hstart hrecords
  constructor
  · intro ⟨s, hs, _⟩
    exact (hrun s hs).2
  · intro haccepted
    obtain ⟨s, hs⟩ := hexists haccepted
    exact ⟨s, hs, (hrun s hs).1 ▸ h.lossless hdigest⟩

/-- Where every entry may follow every other, only the columns decide. -/
theorem accepted_true_iff {D Content : Type} [DecidableEq Content] {content : D → Content}
    {fits : D → Prop} {log : List D} :
    Accepted content fits (fun _ _ => True) log ↔ ∀ d ∈ compress content log, fits d :=
  ⟨fun h => h.1, fun h => ⟨h, (List.pairwise_of_forall fun _ _ => trivial).isChain⟩⟩

open scoped Classical in
/-- Deliveries of one scope leave rows that tell, at every time, the content delivered last. None
raises, if each delivery of a new content fits its columns and can be compared. -/
theorem recorded_rows_lossless (hashing : EnrichmentHashing Digest)
    (hpair : Function.Injective hashing.pairFact) (hmetadata : Function.Injective hashing.metadata)
    (hboost : Function.Injective hashing.boost) :
    (∀ scope before log, PairFactHistory hashing scope before log →
      ((∃ rows, deliverPairFacts hashing log before = .ok rows ∧
          Lossless PairFactEvent.toEnrichmentRow PairFactEvent.scope (·.values hashing) scope
            (·.fact) log rows) ↔
        ∀ d ∈ compress (·.fact) log, (d.values hashing).fits = true)) ∧
    (∀ scope before log, MetadataHistory hashing scope before log →
      (∀ d ∈ log, d.evidenceId.isSome ∧ d.metadata.isAbsent = false) →
      ((∃ rows, deliverMetadata hashing log before = .ok rows ∧
          Lossless TokenMetadataEvent.toEnrichmentRow TokenMetadataEvent.scope (·.values hashing)
            scope (·.metadata) log rows) ↔
        ∀ d ∈ compress (·.metadata) log, (d.values hashing).fits = true)) ∧
    (∀ scope before events log, BoostHistory hashing scope before log →
      (∀ d ∈ log, d.fact.isAbsent = false) →
      ((∃ store, deliverBoosts hashing log ⟨before, events⟩ = .ok store ∧
          Lossless BoostObservation.toEnrichmentRow BoostObservation.scope (·.values hashing) scope
            (·.fact) log store.observations) ↔
        (∀ d ∈ compress (·.fact) log, d.fits = true) ∧
          (compress (·.fact) log).IsChain
            fun p d => (p.values hashing).Comparable (d.values hashing))) := by
  refine ⟨?_, ?_, ?_⟩
  · intro scope before log h
    have hrecords : ∀ done d, (done ++ [d]) <+: log → _ := fun done d hdone =>
      PairFactHistory.records hpair (History.of_sublist h hdone.sublist)
    exact (History.exists_lossless_iff h hrecords before rfl fun _ => rfl).trans accepted_true_iff
  · intro scope before log h hlog
    have hrecords : ∀ done d, (done ++ [d]) <+: log → _ := fun done d hdone =>
      have hd := hlog d (hdone.subset (List.mem_append_right done List.mem_cons_self))
      MetadataHistory.records hmetadata (History.of_sublist h hdone.sublist) hd.1 hd.2
    exact (History.exists_lossless_iff h hrecords before rfl fun _ => rfl).trans accepted_true_iff
  · intro scope before events log h hlog
    have hrecords : ∀ done d, (done ++ [d]) <+: log → _ := fun done d hdone =>
      BoostHistory.records hboost (History.of_sublist h hdone.sublist)
        (hlog d (hdone.subset (List.mem_append_right done List.mem_cons_self)))
    exact History.exists_lossless_iff h hrecords ⟨before, events⟩ rfl fun _ => rfl

end Repositories

/-! ### A run of each repository -/

/-- Digests that are the contents, and identifiers that are the requests. -/
def contentDigests : EnrichmentHashing (PairFactCreate ⊕ MetadataCreate ⊕ BoostCreate) where
  pairFact := .inl
  metadata content := .inr (.inl content)
  boost content := .inr (.inr content)
  uuid5
    | .pairFact _ requestId _ => requestId
    | .metadata _ _ _ _ evidenceId _ => evidenceId.getD 0
    | .boost _ _ _ requestId _ => requestId

def namedPair : PairFactDelivery where
  pairId := 1
  collectorRunId := none
  apiRequestLogId := 2
  provider := text "dexscreener"
  receivedAt := 3
  sourceRecordLocator := text "$[0]"
  sourceRecordSha256 := []
  fact := {
    pairCreatedAt := none
    dexIdentifier := some (text "raydium")
    labels := none
    baseTokenAddress := none
    baseTokenName := none
    baseTokenSymbol := none
    quoteTokenAddress := none
    quoteTokenName := none
    quoteTokenSymbol := none }

def namedToken : MetadataDelivery where
  tokenId := 1
  pairId := none
  collectorRunId := none
  apiRequestLogId := some 2
  discoveryEventId := none
  provider := text "dexscreener"
  sourceKind := .boostFeed
  sourceObservedAt := none
  receivedAt := 3
  sourceRecordLocator := text "$[0]"
  sourceRecordSha256 := []
  metadata := {
    name := some (text "pump")
    symbol := none
    metadataUri := none
    imageUrl := none
    headerUrl := none
    websiteUrl := none
    twitter := none
    telegram := none
    otherLinks := none }

def boostAt (requestId : Uuid) (receivedAt : Int) (amount : Nat) : BoostDelivery where
  tokenId := 1
  pairId := none
  collectorRunId := none
  apiRequestLogId := requestId
  provider := text "dexscreener"
  sourceKind := .topFeed
  feedRank := some 1
  sourceObservedAt := none
  receivedAt := receivedAt
  sourceRecordLocator := text "$[0]"
  sourceRecordSha256 := []
  fact := ⟨none, some (.finite false amount 0), none⟩

theorem storedNumeric_natural {n : Nat} (h : n < 10 ^ 20) :
    storedNumeric (.finite false n 0) = some (.units (n * 10 ^ 18 : Nat)) := by
  have hroom : n * 10 ^ 18 < 10 ^ 38 := by omega
  have hunits : unitsAtScale n 0 = n * 10 ^ 18 := by
    rw [unitsAtScale, if_pos (by decide)]
    rfl
  simp only [storedNumeric, hunits, hroom, if_true, Bool.false_eq_true, if_false]

theorem BoostDelivery.metric_amount {Digest : Type} (hashing : EnrichmentHashing Digest)
    (d : BoostDelivery) :
    (d.values hashing).metric .amount = d.fact.amount.bind storedNumeric := rfl

theorem boostAt_metric {n : Nat} (h : n < 10 ^ 20) (i : Uuid) (t : Int) (metric : BoostMetric) :
    ((boostAt i t n).values contentDigests).metric metric =
      if metric = .amount then some (.units (n * 10 ^ 18 : Nat)) else none := by
  cases metric with
  | activeBoostCount => rfl
  | totalAmount => rfl
  | amount =>
    have hamount : (boostAt i t n).fact.amount = some (.finite false n 0) := rfl
    rw [if_pos rfl, BoostDelivery.metric_amount, hamount, Option.bind_some, storedNumeric_natural h]

/-- Natural amounts can be compared. -/
theorem boostAt_comparable {m n : Nat} (hm : m < 10 ^ 20) (hn : n < 10 ^ 20) (i j : Uuid)
    (t u : Int) :
    ((boostAt i t m).values contentDigests).Comparable
      ((boostAt j u n).values contentDigests) := by
  intro metric a ha b hb
  rw [boostAt_metric hm] at ha
  rw [boostAt_metric hn] at hb
  by_cases hmetric : metric = .amount
  · rw [if_pos hmetric, Option.mem_some_iff] at ha hb
    rw [← ha, ← hb]
    exact ⟨StoredNumeric.noConfusion, StoredNumeric.noConfusion⟩
  · rw [if_neg hmetric] at ha
    cases ha

open scoped Classical in
/-- A boost of 1, then 2, then 1 again has three rows. -/
theorem flapping_boost_rows :
    (∃ rows, deliverPairFacts contentDigests [namedPair] [] = .ok rows ∧
      Lossless PairFactEvent.toEnrichmentRow PairFactEvent.scope (·.values contentDigests)
        (1, text "dexscreener") (·.fact) [namedPair] rows) ∧
    (∃ rows, deliverMetadata contentDigests [namedToken] [] = .ok rows ∧
      Lossless TokenMetadataEvent.toEnrichmentRow TokenMetadataEvent.scope
        (·.values contentDigests) (1, text "dexscreener", .boostFeed, none) (·.metadata)
        [namedToken] rows) ∧
    (∃ store, deliverBoosts contentDigests [boostAt 2 3 1, boostAt 4 5 2, boostAt 6 7 1]
        ⟨[], []⟩ = .ok store ∧
      Lossless BoostObservation.toEnrichmentRow BoostObservation.scope (·.values contentDigests)
        (1, .topFeed, none) (·.fact) [boostAt 2 3 1, boostAt 4 5 2, boostAt 6 7 1]
        store.observations) := by
  obtain ⟨hpair, hmetadata, hboost⟩ := recorded_rows_lossless contentDigests Sum.inl_injective
    (Sum.inr_injective.comp Sum.inl_injective) (Sum.inr_injective.comp Sum.inr_injective)
  refine ⟨?_, ?_, ?_⟩
  · refine (hpair _ [] [namedPair] (History.singleton rfl)).mpr ?_
    intro d hd
    rw [List.mem_singleton.mp ((compress_sublist _ _).subset hd)]
    decide
  · refine (hmetadata _ [] [namedToken] (History.singleton rfl) ?_).mpr ?_
    · intro d hd
      rw [List.mem_singleton.mp hd]
      exact ⟨rfl, rfl⟩
    · intro d hd
      rw [List.mem_singleton.mp ((compress_sublist _ _).subset hd)]
      decide
  · refine (hboost _ [] [] _ ⟨by simp, by simp, ?_, ?_, ?_, ?_⟩ ?_).mpr ?_
    · simp [boostAt, BoostDelivery.values, BoostObservation.scope]
    · simp [boostAt, BoostDelivery.values]
    · simp [boostAt]
    · simp [boostAt, BoostDelivery.values, BoostDelivery.key, contentDigests]
    · simp [boostAt, BoostCreate.isAbsent]
    · have hkept : compress (·.fact) [boostAt 2 3 1, boostAt 4 5 2, boostAt 6 7 1] =
          [boostAt 2 3 1, boostAt 4 5 2, boostAt 6 7 1] := rfl
      rw [hkept]
      refine ⟨by decide, ?_⟩
      simp [boostAt_comparable]

open scoped Classical in
/-- An amount of `10^20` has no room in `NUMERIC(38, 18)`: its delivery raises. -/
theorem large_amount_raises :
    BoostHistory contentDigests (1, .topFeed, none) [] [boostAt 2 3 (10 ^ 20)] ∧
      (boostAt 2 3 (10 ^ 20)).fact.isAbsent = false ∧
      Function.Injective contentDigests.boost ∧
      deliverBoosts contentDigests [boostAt 2 3 (10 ^ 20)] ⟨[], []⟩ = .error .data := by
  exact ⟨History.singleton rfl, rfl, Sum.inr_injective.comp Sum.inr_injective, rfl⟩

end PumpResearch.Collection
