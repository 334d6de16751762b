import PumpResearch.Research.DatasetIdentity

/-! Whether the availability watermark of a state covers the facts that the state carries. -/
namespace PumpResearch.Research
open KeyedOrder Results

/-- A coverage decision is available once it is decided and in effect. -/
def CoverageFact.availableAt (fact : CoverageFact) : Timestamp :=
  max fact.decidedAt fact.effectiveAt

/-- The availability times of everything a state carries. -/
def carriedTimes (state : TokenStateAsOf) : List Timestamp :=
  state.admissionAt.toList ++
  (state.lifecycle.map (·.decidedAt)).toList ++
  (state.coverage.map (·.availableAt)).toList ++
  (state.candidate.map (·.candidateAt)).toList ++
  (state.candidateTier.map (·.decidedAt)).toList ++
  (state.currentObservation.map (·.receivedAt)).toList ++
  state.observationHistory.map (·.receivedAt) ++
  (state.pairFact.map (·.receivedAt)).toList ++
  (state.boost.map (·.receivedAt)).toList ++
  state.firstBoostReceivedAt.toList ++
  (state.previousBoost.map (·.receivedAt)).toList ++
  (state.metadata.map (·.receivedAt)).toList ++
  (state.security.map (·.receivedAt)).toList ++
  (state.holderSnapshot.toList ++ state.traderDistribution.toList ++
    state.creatorHistory.toList ++ state.securityFeatures.toList ++ state.liquidityEvents ++
    state.walletEdges ++ state.walletClusters ++ state.fundingRelationships).map (·.receivedAt) ++
  (state.context.map (·.receivedAt)).toList

/-- Every carried fact was available at the watermark, the watermark is no later than the decision,
and a state without one carries nothing. -/
structure WatermarkCovers (state : TokenStateAsOf) : Prop where
  covers : ∀ time ∈ carriedTimes state, ∃ watermark ∈ state.availabilityWatermark, time ≤ watermark
  bounded : ∀ watermark ∈ state.availabilityWatermark, watermark ≤ state.decisionAt
  absent : state.availabilityWatermark = none → carriedTimes state = []

section History
variable (h : TokenHistory) (t : Timestamp)

def visibleLifecycle : List LifecycleFact :=
  h.lifecycle.filter fun item =>
    decide (item.decidedAt ≤ t) && decide (item.inputWatermark ≤ item.decidedAt)

def visibleCoverage : List CoverageFact :=
  h.coverage.filter fun item => decide (item.decidedAt ≤ t) && decide (item.effectiveAt ≤ t)

def visiblePairFacts : List PairFact :=
  h.pairFacts.filter fun item =>
    decide (item.receivedAt ≤ t) && decide (some item.pairId = selectPair (visibleObservations h t))

def visibleContext : List MarketContextFact :=
  h.context.filter fun item => decide (item.receivedAt ≤ t) && decide (item.bucketEnd ≤ t)

/-- The availability times of all visible facts other than coverage decisions. Observations and
pair facts count for the selected pair only. -/
def evidenceTimes : List Timestamp :=
  (visibleDiscoveries h t).map (·.receivedAt) ++
  (pairHistory h t).map (·.receivedAt) ++
  (visibleLifecycle h t).map (·.decidedAt) ++
  (visibleCandidates h t).map (·.candidateAt) ++
  (visibleCandidateTiers h t).map (·.decidedAt) ++
  (visiblePairFacts h t).map (·.receivedAt) ++
  (visibleBoosts h t).map (·.receivedAt) ++
  (h.metadata.filter fun item => item.receivedAt ≤ t).map (·.receivedAt) ++
  (h.security.filter fun item => item.receivedAt ≤ t).map (·.receivedAt) ++
  (visibleContext h t).map (·.receivedAt) ++
  (deepSecurity h t).map (·.receivedAt)

def coverageOrder (item : CoverageFact) : Timestamp ×ₗ Timestamp ×ₗ String :=
  toLex (item.effectiveAt, timeKey (·.decidedAt) (·.id) item)

/-- The visible coverage decision that is last in effect is no newer than some other evidence. -/
def CoverageCovered : Prop :=
  ∀ fact ∈ visibleCoverage h t,
    (∀ other ∈ visibleCoverage h t, coverageOrder other ≤ coverageOrder fact) →
      ∃ time ∈ evidenceTimes h t, fact.availableAt ≤ time

end History

/-! ### What the watermark reaches -/

/-- Some of the times is no earlier. -/
def ReachedBy (times : List Timestamp) (time : Timestamp) : Prop := ∃ known ∈ times, time ≤ known

section Reach
variable {times more : List Timestamp} {time : Timestamp}

theorem reachedBy_append :
    ReachedBy (times ++ more) time ↔ ReachedBy times time ∨ ReachedBy more time := by
  simp only [ReachedBy, List.mem_append, or_and_right, exists_or]

theorem reachedBy_of_mem (h : time ∈ times) : ReachedBy times time := ⟨time, h, le_rfl⟩

theorem reachedBy_max? :
    (∃ watermark ∈ times.max?, time ≤ watermark) ↔ ReachedBy times time := by
  constructor
  · intro h
    obtain ⟨watermark, hwatermark, hle⟩ := h
    exact ⟨watermark, List.max?_mem hwatermark, hle⟩
  · intro h
    obtain ⟨known, hknown, hle⟩ := h
    cases hmax : times.max? with
    | none => simp [List.max?_eq_none_iff.mp hmax] at hknown
    | some watermark =>
      exact ⟨watermark, rfl, hle.trans ((List.max?_le_iff hmax).mp le_rfl known hknown)⟩

theorem mem_map_of_latest {α κ : Type} [LinearOrder κ] {key : α → κ} {stamp : α → Timestamp}
    {xs : List α} (h : time ∈ ((firstMax key xs).map stamp).toList) : time ∈ xs.map stamp := by
  obtain ⟨latest, hlatest, rfl⟩ := Option.map_eq_some_iff.mp (Option.mem_toList.mp h)
  exact List.mem_map_of_mem (mem_of_firstMax hlatest)

/-- The latest item of a family reaches as far as the whole family. -/
theorem reachedBy_firstMax {α κ : Type} [LinearOrder κ] {key : α → κ} {stamp : α → Timestamp}
    (hkey : ∀ a b, key a ≤ key b → stamp a ≤ stamp b) (xs : List α) :
    ReachedBy ((firstMax key xs).map stamp).toList time ↔ ReachedBy (xs.map stamp) time := by
  constructor
  · intro h
    obtain ⟨known, hknown, hle⟩ := h
    exact ⟨known, mem_map_of_latest hknown, hle⟩
  · intro h
    obtain ⟨known, hknown, hle⟩ := h
    obtain ⟨item, hitem, rfl⟩ := List.mem_map.mp hknown
    cases hmax : firstMax key xs with
    | none => simp [firstMax_eq_none.mp hmax] at hitem
    | some latest =>
      exact ⟨stamp latest, by simp, hle.trans (hkey _ _ (le_of_firstMax hmax hitem))⟩

theorem le_of_timeKey_le {α : Type} {stamp : α → Timestamp} {ident : α → String} (a b : α)
    (h : timeKey stamp ident a ≤ timeKey stamp ident b) : stamp a ≤ stamp b := by
  have hlex := Prod.Lex.le_iff.mp h
  cases hlex with
  | inl hlt => exact hlt.le
  | inr heq => exact heq.1.le

/-- So does the last item of a sorted family. -/
theorem reachedBy_getLast? {α : Type} {stamp : α → Timestamp} {xs : List α}
    (hsorted : xs.Pairwise fun a b => stamp a ≤ stamp b) :
    ReachedBy (xs.getLast?.map stamp).toList time ↔ ReachedBy (xs.map stamp) time := by
  cases xs using List.reverseRec with
  | nil => rfl
  | append_singleton xs last =>
    rw [List.getLast?_concat, List.map_append]
    have hbefore := List.pairwise_append.mp hsorted
    constructor
    · intro h
      obtain ⟨known, hknown, hle⟩ := h
      exact ⟨known, List.mem_append_right _ (by simpa using hknown), hle⟩
    · intro h
      obtain ⟨known, hknown, hle⟩ := h
      refine ⟨stamp last, by simp, ?_⟩
      cases List.mem_append.mp hknown with
      | inl hmem =>
        obtain ⟨item, hitem, rfl⟩ := List.mem_map.mp hmem
        exact hle.trans (hbefore.2.2 item hitem last (List.mem_singleton.mpr rfl))
      | inr hmem =>
        have heq : known = stamp last := by simpa using hmem
        exact heq ▸ hle

end Reach

section Evidence
variable (h : TokenHistory) (t : Timestamp)

theorem visibleBoosts_pairwise :
    (visibleBoosts h t).Pairwise fun a b => a.receivedAt ≤ b.receivedAt :=
  (sortOn_pairwise _ _).imp fun {a b} hle => le_of_timeKey_le a b hle

/-- The watermark is the latest time among all visible evidence. -/
theorem reachedBy_knownTimes (time : Timestamp) :
    ReachedBy (knownTimes h t) time ↔ ReachedBy (evidenceTimes h t) time := by
  have hcontext : ∀ a b : MarketContextFact,
      toLex (a.receivedAt, timeKey (·.bucketEnd) (·.id) a) ≤
        toLex (b.receivedAt, timeKey (·.bucketEnd) (·.id) b) → a.receivedAt ≤ b.receivedAt := by
    intro a b hle
    have hlex := Prod.Lex.le_iff.mp hle
    cases hlex with
    | inl hlt => exact hlt.le
    | inr heq => exact heq.1.le
  simp only [knownTimes, evidenceTimes, reachedBy_append, latestLifecycle, latestCandidate,
    latestCandidateTier, latestPairFact, latestReceived, latestContext,
    reachedBy_firstMax le_of_timeKey_le, reachedBy_firstMax hcontext,
    reachedBy_getLast? (visibleBoosts_pairwise h t), visibleLifecycle, visibleCandidates,
    visibleCandidateTiers, visiblePairFacts, visibleContext]

theorem evidenceTimes_le : ∀ time ∈ evidenceTimes h t, time ≤ t := by
  simp only [evidenceTimes, List.forall_mem_append, List.forall_mem_map, visibleDiscoveries,
    pairHistory, visibleObservations, visibleLifecycle, visibleCandidates, visibleCandidateTiers,
    visiblePairFacts, visibleBoosts, visibleContext, deepSecurity, mem_sortOn, List.mem_filter,
    Bool.and_eq_true, decide_eq_true_eq, and_imp]
  tauto

/-- Only facts of the visible security families are carried. -/
theorem securityFacts_deep (H : Hashing) (contract : FeatureSetContract) :
    ∀ fact ∈ (tokenState h t H contract).holderSnapshot.toList ++
        (tokenState h t H contract).traderDistribution.toList ++
        (tokenState h t H contract).creatorHistory.toList ++
        (tokenState h t H contract).securityFeatures.toList ++
        (tokenState h t H contract).liquidityEvents ++ (tokenState h t H contract).walletEdges ++
        (tokenState h t H contract).walletClusters ++
        (tokenState h t H contract).fundingRelationships,
      fact ∈ deepSecurity h t := by
  have hlatest : ∀ family : String, ∀ fact ∈ (latestSecurity h t family).toList,
      fact ∈ deepSecurity h t := by
    intro family fact hfact
    exact (List.mem_filter.mp (mem_of_firstMax (Option.mem_toList.mp hfact))).1
  have hevents : ∀ family : String, ∀ fact ∈ securityEvents h t family,
      fact ∈ deepSecurity h t := by
    intro family fact hfact
    exact (List.mem_filter.mp ((mem_sortOn _ _ _).mp hfact)).1
  simp only [List.forall_mem_append]
  exact ⟨⟨⟨⟨⟨⟨⟨hlatest _, hlatest _⟩, hlatest _⟩, hlatest _⟩, hevents _⟩, hevents _⟩, hevents _⟩,
    hevents _⟩

/-- A carried admission is the time of a visible lifecycle decision. -/
theorem admissionAsOf_mem : ∀ time ∈ (admissionAsOf h t).toList,
    time ∈ (visibleLifecycle h t).map (·.decidedAt) := by
  intro time htime
  have hmem := List.min?_mem (Option.mem_toList.mp htime)
  obtain ⟨item, hitem, rfl⟩ := List.mem_map.mp hmem
  refine List.mem_map_of_mem ?_
  simp only [visibleLifecycle, LifecycleFact.admits, List.mem_filter, Bool.and_eq_true] at hitem ⊢
  exact ⟨hitem.1, hitem.2.1, hitem.2.2.2⟩

theorem families_subset :
    (pairHistory h t).map (·.receivedAt) ⊆ evidenceTimes h t ∧
    (visibleLifecycle h t).map (·.decidedAt) ⊆ evidenceTimes h t ∧
    (visibleCandidates h t).map (·.candidateAt) ⊆ evidenceTimes h t ∧
    (visibleCandidateTiers h t).map (·.decidedAt) ⊆ evidenceTimes h t ∧
    (visiblePairFacts h t).map (·.receivedAt) ⊆ evidenceTimes h t ∧
    (visibleBoosts h t).map (·.receivedAt) ⊆ evidenceTimes h t ∧
    (h.metadata.filter fun item => item.receivedAt ≤ t).map (·.receivedAt) ⊆ evidenceTimes h t ∧
    (h.security.filter fun item => item.receivedAt ≤ t).map (·.receivedAt) ⊆ evidenceTimes h t ∧
    (visibleContext h t).map (·.receivedAt) ⊆ evidenceTimes h t ∧
    (deepSecurity h t).map (·.receivedAt) ⊆ evidenceTimes h t := by
  simp only [evidenceTimes, List.subset_def, List.mem_append]
  tauto

/-- Apart from its coverage decision, a state carries visible evidence only. -/
theorem carriedTimes_evidence (H : Hashing) (contract : FeatureSetContract) :
    ∀ time ∈ carriedTimes (tokenState h t H contract),
      time ∈ ((latestCoverage h t).map (·.availableAt)).toList ∨ time ∈ evidenceTimes h t := by
  obtain ⟨hpair, hlifecycle, hcandidate, htier, hpairFact, hboost, hmetadata, hsecurity, hcontext,
    hdeep⟩ := families_subset h t
  have hin : ∀ {times family : List Timestamp}, family ⊆ evidenceTimes h t →
      (∀ time ∈ times, time ∈ family) → ∀ time ∈ times,
        time ∈ ((latestCoverage h t).map (·.availableAt)).toList ∨ time ∈ evidenceTimes h t :=
    fun hfamily htimes time htime => .inr (hfamily (htimes time htime))
  -- a family of which one fact is carried
  have hone : ∀ {α : Type} {stamp : α → Timestamp} {one : Option α} {family : List α},
      (∀ fact ∈ one, fact ∈ family) → ∀ time ∈ (one.map stamp).toList, time ∈ family.map stamp := by
    intro α stamp one family hmem time htime
    obtain ⟨fact, hfact, rfl⟩ := Option.map_eq_some_iff.mp (Option.mem_toList.mp htime)
    exact List.mem_map_of_mem (hmem fact hfact)
  simp only [carriedTimes, List.forall_mem_append, and_assoc]
  refine ⟨hin hlifecycle (admissionAsOf_mem h t), hin hlifecycle fun _ => mem_map_of_latest,
    fun time htime => .inl htime, hin hcandidate fun _ => mem_map_of_latest,
    hin htier fun _ => mem_map_of_latest, hin hpair (hone fun _ => List.mem_of_getLast?),
    hin hpair fun _ => id, hin hpairFact fun _ => mem_map_of_latest,
    hin hboost (hone fun _ => List.mem_of_getLast?), hin hboost (hone fun _ => List.mem_of_mem_head?),
    hin hboost (hone fun _ hfact => List.mem_of_mem_dropLast (List.mem_of_getLast? hfact)),
    hin hmetadata fun _ => mem_map_of_latest, hin hsecurity fun _ => mem_map_of_latest, ?_,
    hin hcontext fun _ => mem_map_of_latest⟩
  exact hin hdeep (List.forall_mem_map.mpr fun fact hfact =>
    List.mem_map_of_mem (securityFacts_deep h t H contract fact hfact))

end Evidence

section Coverage
variable {h : TokenHistory} {t : Timestamp}

theorem availableAt_eq_of_order {fact other : CoverageFact}
    (horder : coverageOrder fact = coverageOrder other) : fact.availableAt = other.availableAt := by
  have heffective : fact.effectiveAt = other.effectiveAt := congrArg (fun k => (ofLex k).1) horder
  have hdecided : fact.decidedAt = other.decidedAt :=
    congrArg (fun k => (ofLex (ofLex k).2).1) horder
  rw [CoverageFact.availableAt, CoverageFact.availableAt, heffective, hdecided]

/-- The carried coverage decision is a visible one that is last in order, and all such decisions
became available at one time. -/
theorem coverageCovered_iff : CoverageCovered h t ↔
    ∀ fact ∈ latestCoverage h t, ReachedBy (evidenceTimes h t) fact.availableAt := by
  constructor
  · intro hcovered fact hfact
    exact hcovered fact (mem_of_firstMax hfact) fun other hother => le_of_firstMax hfact hother
  · intro hlatest fact hfact hlast
    cases hmax : latestCoverage h t with
    | none => simp [firstMax_eq_none.mp hmax, visibleCoverage] at hfact
    | some latest =>
      have hle := hlast latest (mem_of_firstMax hmax)
      have horder := le_antisymm (le_of_firstMax hmax hfact) hle
      rw [availableAt_eq_of_order horder]
      exact hlatest latest hmax

variable (H : Hashing) (contract : FeatureSetContract)

theorem watermarkCovers_iff_coverageCovered :
    WatermarkCovers (tokenState h t H contract) ↔ CoverageCovered h t := by
  have hreach : ∀ time, (∃ watermark ∈ (tokenState h t H contract).availabilityWatermark,
      time ≤ watermark) ↔ ReachedBy (evidenceTimes h t) time := by
    intro time
    rw [tokenState_availabilityWatermark, reachedBy_max?, reachedBy_knownTimes]
  rw [coverageCovered_iff]
  constructor
  · intro hcovers fact hfact
    have hcarried : fact.availableAt ∈ carriedTimes (tokenState h t H contract) := by
      have hcoverage : (tokenState h t H contract).coverage = some fact := hfact
      simp [carriedTimes, hcoverage]
    exact (hreach _).mp (hcovers.covers _ hcarried)
  · intro hlatest
    have hcovers : ∀ time ∈ carriedTimes (tokenState h t H contract),
        ∃ watermark ∈ (tokenState h t H contract).availabilityWatermark, time ≤ watermark := by
      intro time htime
      rw [hreach]
      cases carriedTimes_evidence h t H contract time htime with
      | inl hcoverage =>
        obtain ⟨fact, hfact, rfl⟩ := Option.map_eq_some_iff.mp (Option.mem_toList.mp hcoverage)
        exact hlatest fact hfact
      | inr hevidence => exact reachedBy_of_mem hevidence
    refine ⟨hcovers, ?_, ?_⟩
    · intro watermark hwatermark
      obtain ⟨time, htime, hle⟩ := (hreach watermark).mp ⟨watermark, hwatermark, le_rfl⟩
      exact hle.trans (evidenceTimes_le h t time htime)
    · intro hnone
      rw [List.eq_nil_iff_forall_not_mem]
      intro time htime
      obtain ⟨watermark, hwatermark, _⟩ := hcovers time htime
      rw [hnone] at hwatermark
      cases hwatermark

/-- A valid history has a state at every time, and its watermark covers it exactly when the carried
coverage decision is no newer than some other evidence. -/
theorem watermark_covers_iff (allowInvalidEpoch : Bool)
    (hepoch : h.epochDataValid = true ∨ allowInvalidEpoch = true)
    (hvalid : validateHistory h = .ok ()) :
    ∃ state, getTokenStateAsOf H h t contract allowInvalidEpoch = .ok state ∧
      (WatermarkCovers state ↔ CoverageCovered h t) := by
  refine ⟨tokenState h t H contract, ?_, watermarkCovers_iff_coverageCovered H contract⟩
  have hgate : (!h.epochDataValid && !allowInvalidEpoch) = false := by
    cases hepoch with
    | inl hdata => simp [hdata]
    | inr hallow => simp [hallow]
  rw [getTokenStateAsOf, hgate, hvalid]
  rfl

end Coverage

/-- A token whose coverage is decided at 5 s and which is observed at 10 s. -/
def coveredHistory : TokenHistory where
  epochId := "epoch"
  epochNumber := 1
  epochDataValid := true
  tokenId := "token"
  chain := "solana"
  address := "mint"
  coverage := [⟨"c1", seconds 5, seconds 5, "NEW", "NEW"⟩]
  observations := [{ id := "o1", pairId := "pair", pairAddress := "pool",
                     receivedAt := seconds 10, priceUsd := some 2 }]

theorem watermark_covers_observed :
    ∃ state, getTokenStateAsOf plainHashing coveredHistory (seconds 60) {} false = .ok state ∧
      (WatermarkCovers state ↔ CoverageCovered coveredHistory (seconds 60)) :=
  watermark_covers_iff plainHashing {} false (.inl rfl) rfl

/-- At 7 s the coverage decision is all there is to know, and there is no watermark. -/
theorem watermark_not_covers_coverage :
    ¬ ∀ (H : Hashing) (h : TokenHistory) (t : Timestamp) (contract : FeatureSetContract)
      (state : TokenStateAsOf),
      getTokenStateAsOf H h t contract false = .ok state → WatermarkCovers state := by
  intro hclaim
  have hcovers := hclaim plainHashing coveredHistory (seconds 7) {}
    (tokenState coveredHistory (seconds 7) plainHashing {}) rfl
  have hcarried := hcovers.absent (by rfl)
  have hcoverage : (tokenState coveredHistory (seconds 7) plainHashing {}).coverage =
      some ⟨"c1", seconds 5, seconds 5, "NEW", "NEW"⟩ := by rfl
  simp [carriedTimes, hcoverage] at hcarried

end PumpResearch.Research
