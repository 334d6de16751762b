import PumpResearch.Research.Labels
import PumpResearch.Research.NoFutureInformation
import PumpResearch.Research.Sources

/-! Joining a cold and a hot source at a cutoff yields what one source over the whole range
yields, and the research functions cannot tell the two apart. -/
namespace PumpResearch.Research
open KeyedOrder OrderedDict Results

/-- A source serves histories if every query returns their slices, whatever it writes into
the descriptors. -/
def Serves (source : ResearchSource) (histories : List TokenHistory) : Prop :=
  ∀ query, ∃ descriptor : TokenHistory → SourceDescriptor,
    source query = .ok ((selectHistories histories query).map fun history =>
      withDescriptor (sliceHistory history query.startAt query.endAt) (descriptor history))

theorem inMemorySource_serves (H : Hashing) (histories : List TokenHistory) (name : String) :
    Serves (inMemorySource H histories name) histories :=
  fun _ => ⟨fun history => .memory name (historyDigest H history), rfl⟩

/-- Two histories of one token hold exactly the same facts, family by family. -/
structure SameFacts (h₁ h₂ : TokenHistory) : Prop extends SameIdentity h₁ h₂ where
  discoveries : h₁.discoveries.Perm h₂.discoveries
  observations : h₁.observations.Perm h₂.observations
  lifecycle : h₁.lifecycle.Perm h₂.lifecycle
  pairFacts : h₁.pairFacts.Perm h₂.pairFacts
  boosts : h₁.boosts.Perm h₂.boosts
  metadata : h₁.metadata.Perm h₂.metadata
  security : h₁.security.Perm h₂.security
  context : h₁.context.Perm h₂.context
  coverage : h₁.coverage.Perm h₂.coverage
  candidates : h₁.candidates.Perm h₂.candidates
  candidateTiers : h₁.candidateTiers.Perm h₂.candidateTiers
  selectiveSecurity : h₁.selectiveSecurity.Perm h₂.selectiveSecurity

theorem SameFacts.uniqueIds {h₁ h₂ : TokenHistory} (h : SameFacts h₁ h₂) (hu : UniqueIds h₂) :
    UniqueIds h₁ where
  discoveries := (h.discoveries.map _).nodup_iff.mpr hu.discoveries
  observations := (h.observations.map _).nodup_iff.mpr hu.observations
  lifecycle := (h.lifecycle.map _).nodup_iff.mpr hu.lifecycle
  pairFacts := (h.pairFacts.map _).nodup_iff.mpr hu.pairFacts
  boosts := (h.boosts.map _).nodup_iff.mpr hu.boosts
  metadata := (h.metadata.map _).nodup_iff.mpr hu.metadata
  security := (h.security.map _).nodup_iff.mpr hu.security
  context := (h.context.map _).nodup_iff.mpr hu.context
  coverage := (h.coverage.map _).nodup_iff.mpr hu.coverage
  candidates := (h.candidates.map _).nodup_iff.mpr hu.candidates
  candidateTiers := (h.candidateTiers.map _).nodup_iff.mpr hu.candidateTiers
  selectiveSecurity := (h.selectiveSecurity.map _).nodup_iff.mpr hu.selectiveSecurity

/-- The same facts are the same past at every time. -/
theorem SameFacts.samePast {h₁ h₂ : TokenHistory} (h : SameFacts h₁ h₂) (t : Timestamp) :
    SamePast t h₁ h₂ where
  discoveries := fun _ _ => h.discoveries.mem_iff
  observations := fun _ _ => h.observations.mem_iff
  lifecycle := fun _ _ => h.lifecycle.mem_iff
  pairFacts := fun _ _ => h.pairFacts.mem_iff
  boosts := fun _ _ => h.boosts.mem_iff
  metadata := fun _ _ => h.metadata.mem_iff
  security := fun _ _ => h.security.mem_iff
  context := fun _ _ => h.context.mem_iff
  coverage := fun _ _ => h.coverage.mem_iff
  candidates := fun _ _ => h.candidates.mem_iff
  candidateTiers := fun _ _ => h.candidateTiers.mem_iff
  selectiveSecurity := fun _ _ => h.selectiveSecurity.mem_iff

theorem sliceHistory_uniqueIds {h : TokenHistory} (hu : UniqueIds h)
    (startAt endAt : Option Timestamp) (d : SourceDescriptor) :
    UniqueIds (withDescriptor (sliceHistory h startAt endAt) d) where
  discoveries := hu.discoveries.sublist (List.filter_sublist.map _)
  observations := hu.observations.sublist (List.filter_sublist.map _)
  lifecycle := hu.lifecycle.sublist (List.filter_sublist.map _)
  pairFacts := hu.pairFacts.sublist (List.filter_sublist.map _)
  boosts := hu.boosts.sublist (List.filter_sublist.map _)
  metadata := hu.metadata.sublist (List.filter_sublist.map _)
  security := hu.security.sublist (List.filter_sublist.map _)
  context := hu.context.sublist (List.filter_sublist.map _)
  coverage := hu.coverage.sublist (List.filter_sublist.map _)
  candidates := hu.candidates.sublist (List.filter_sublist.map _)
  candidateTiers := hu.candidateTiers.sublist (List.filter_sublist.map _)
  selectiveSecurity := hu.selectiveSecurity.sublist (List.filter_sublist.map _)

/-- The cold and the hot part of one history merge to its slice of the whole range. -/
theorem mergeHistories_split (H : Hashing) {h : TokenHistory} (hu : UniqueIds h)
    (cutoff : Timestamp) (startAt endAt : Option Timestamp) (d₁ d₂ d : SourceDescriptor) :
    ∃ merged, mergeHistories H
        [withDescriptor (sliceHistory h startAt (some (coldEnd cutoff endAt))) d₁,
          withDescriptor (sliceHistory h (some (hotStart cutoff startAt)) endAt) d₂] cutoff =
        .ok merged ∧
      SameFacts merged (withDescriptor (sliceHistory h startAt endAt) d) := by
  obtain ⟨f₁, e₁, p₁⟩ := mergeFacts_split (·.receivedAt) cutoff startAt endAt hu.discoveries
  obtain ⟨f₂, e₂, p₂⟩ := mergeFacts_split (·.receivedAt) cutoff startAt endAt hu.observations
  obtain ⟨f₃, e₃, p₃⟩ := mergeFacts_split (·.decidedAt) cutoff startAt endAt hu.lifecycle
  obtain ⟨f₄, e₄, p₄⟩ := mergeFacts_split (·.receivedAt) cutoff startAt endAt hu.pairFacts
  obtain ⟨f₅, e₅, p₅⟩ := mergeFacts_split (·.receivedAt) cutoff startAt endAt hu.boosts
  obtain ⟨f₆, e₆, p₆⟩ := mergeFacts_split (·.receivedAt) cutoff startAt endAt hu.metadata
  obtain ⟨f₇, e₇, p₇⟩ := mergeFacts_split (·.receivedAt) cutoff startAt endAt hu.security
  obtain ⟨f₈, e₈, p₈⟩ := mergeFacts_split (·.receivedAt) cutoff startAt endAt hu.context
  obtain ⟨f₉, e₉, p₉⟩ := mergeFacts_split (·.decidedAt) cutoff startAt endAt hu.coverage
  obtain ⟨f₁₀, e₁₀, p₁₀⟩ :=
    mergeFacts_split (·.candidateAt) cutoff startAt endAt hu.candidates
  obtain ⟨f₁₁, e₁₁, p₁₁⟩ :=
    mergeFacts_split (·.decidedAt) cutoff startAt endAt hu.candidateTiers
  obtain ⟨f₁₂, e₁₂, p₁₂⟩ :=
    mergeFacts_split (·.receivedAt) cutoff startAt endAt hu.selectiveSecurity
  let merged : TokenHistory := {
    epochId := h.epochId, epochNumber := h.epochNumber, epochDataValid := h.epochDataValid
    tokenId := h.tokenId, chain := h.chain, address := h.address
    discoveries := f₁, observations := f₂, lifecycle := f₃, pairFacts := f₄, boosts := f₅
    metadata := f₆, security := f₇, context := f₈, coverage := f₉, candidates := f₁₀
    candidateTiers := f₁₁, selectiveSecurity := f₁₂
    sourceDescriptor := .hotCold cutoff
      (sortOn (fun d => H.canonicalDigest (.descriptor d)) [d₁, d₂]) }
  refine ⟨merged, ?_, ⟨rfl, rfl, rfl, rfl, rfl, rfl⟩,
    p₁, p₂, p₃, p₄, p₅, p₆, p₇, p₈, p₉, p₁₀, p₁₁, p₁₂⟩
  simp [mergeHistories, withDescriptor, sliceHistory, e₁, e₂, e₃, e₄, e₅, e₆, e₇, e₈, e₉, e₁₀,
    e₁₁, e₁₂, bind, Except.bind, pure, Except.pure, merged]

/-- Equal results, or a rejected history on both sides: with several offending facts the
message names whichever comes first. -/
def SameOutcome {α : Type} (r₁ r₂ : Except ResearchError α) : Prop :=
  r₁ = r₂ ∨ ∃ m₁ m₂, r₁ = .error (.contract m₁) ∧ r₂ = .error (.contract m₂)

theorem SameOutcome.bind {α β : Type} {r₁ r₂ : Except ResearchError α}
    {f g : α → Except ResearchError β} (h : SameOutcome r₁ r₂)
    (hfg : ∀ a, r₁ = .ok a → SameOutcome (f a) (g a)) : SameOutcome (r₁ >>= f) (r₂ >>= g) := by
  rcases h with rfl | ⟨m₁, m₂, rfl, rfl⟩
  · cases r₁ with
    | error e => exact Or.inl rfl
    | ok a => exact hfg a rfl
  · exact Or.inr ⟨m₁, m₂, rfl, rfl⟩

theorem raiseOnFirst_outcome {α : Type} {bad : α → Bool} {message : α → String} {xs ys : List α}
    (h : ∀ x, x ∈ xs ↔ x ∈ ys) :
    SameOutcome (raiseOnFirst bad (fun a => .contract (message a)) xs)
      (raiseOnFirst bad (fun a => .contract (message a)) ys) := by
  cases hx : xs.find? bad with
  | none =>
    have hy : ys.find? bad = none := by
      rw [List.find?_eq_none] at hx ⊢
      exact fun y hy => hx y ((h y).mpr hy)
    exact Or.inl (by rw [raiseOnFirst, raiseOnFirst, hx, hy])
  | some a =>
    have hy : ys.find? bad ≠ none := by
      intro hy
      rw [List.find?_eq_none] at hy
      exact hy a ((h a).mp (List.mem_of_find?_eq_some hx)) (List.find?_some hx)
    obtain ⟨b, hb⟩ := Option.ne_none_iff_exists'.mp hy
    exact Or.inr ⟨message a, message b, by rw [raiseOnFirst, hx], by rw [raiseOnFirst, hb]⟩

theorem SameFacts.validateHistory_outcome {h₁ h₂ : TokenHistory} (h : SameFacts h₁ h₂) :
    SameOutcome (validateHistory h₁) (validateHistory h₂) := by
  refine (raiseOnFirst_outcome fun _ => h.lifecycle.mem_iff).bind fun _ _ => ?_
  refine (raiseOnFirst_outcome fun _ => h.context.mem_iff).bind fun _ _ => ?_
  refine (raiseOnFirst_outcome fun _ => h.candidates.mem_iff).bind fun _ _ => ?_
  refine (raiseOnFirst_outcome fun _ => h.candidateTiers.mem_iff).bind fun _ _ => ?_
  exact raiseOnFirst_outcome fun _ => h.selectiveSecurity.mem_iff

theorem SameFacts.state_outcome {h₁ h₂ : TokenHistory} (h : SameFacts h₁ h₂) (hu : UniqueIds h₂)
    (H : Hashing) (t : Timestamp) (contract : FeatureSetContract) (allow : Bool) :
    SameOutcome (getTokenStateAsOf H h₁ t contract allow)
      (getTokenStateAsOf H h₂ t contract allow) := by
  have hstate := tokenState_congr h.toSameIdentity
    ((h.samePast t).visibleAgree (h.uniqueIds hu) hu) H contract
  rw [getTokenStateAsOf, getTokenStateAsOf, h.epochDataValid, h.epochNumber]
  by_cases hbad : (!h₂.epochDataValid && !allow) = true
  · exact Or.inl (by simp [hbad, throw, throwThe, MonadExceptOf.throw, bind, Except.bind])
  · simp only [hbad]
    refine h.validateHistory_outcome.bind fun _ _ => Or.inl ?_
    rw [hstate]

theorem SameFacts.labels_eq {F : Type} [Numerics F] {h₁ h₂ : TokenHistory} (h : SameFacts h₁ h₂)
    (hu : UniqueIds h₂) (H : Hashing) (state : TokenStateAsOf) (contract : LabelSetContract) :
    buildOutcomeLabels (F := F) H h₁ state contract = buildOutcomeLabels H h₂ state contract := by
  apply buildOutcomeLabels_congr
  · apply SameByKey.sortOn_eq
    apply SameByKey.refine _ (timeKey_refines _ _)
    apply SameByKey.filter
    exact SameByKey.of_nodup (h.uniqueIds hu).observations hu.observations
      fun _ => h.observations.mem_iff
  · intro t
    have hl := ((h.samePast t).visibleAgree (h.uniqueIds hu) hu)
    exact latestLifecycle_congr hl

/-- Every research function gives the same result on both histories. -/
structure Indistinguishable (F : Type) [Numerics F] (H : Hashing) (h₁ h₂ : TokenHistory) :
    Prop where
  state : ∀ t contract allow,
    SameOutcome (getTokenStateAsOf H h₁ t contract allow) (getTokenStateAsOf H h₂ t contract allow)
  features : ∀ t contract allow featureSet,
    SameOutcome
      (getTokenStateAsOf H h₁ t contract allow >>= fun state =>
        (buildMarketFeatures H state featureSet : Except ResearchError (FeatureResult F)))
      (getTokenStateAsOf H h₂ t contract allow >>= fun state =>
        buildMarketFeatures H state featureSet)
  candidates : ∀ policy scopeStartAt scopeEndAt,
    generateCandidateTimestamps H h₁ policy scopeStartAt scopeEndAt =
      generateCandidateTimestamps H h₂ policy scopeStartAt scopeEndAt
  labels : ∀ t contract allow labelSet,
    SameOutcome
      (getTokenStateAsOf H h₁ t contract allow >>= fun state =>
        (buildOutcomeLabels H h₁ state labelSet : Except ResearchError (LabelResult F)))
      (getTokenStateAsOf H h₂ t contract allow >>= fun state =>
        buildOutcomeLabels H h₂ state labelSet)

theorem SameFacts.indistinguishable {F : Type} [Numerics F] {h₁ h₂ : TokenHistory}
    (h : SameFacts h₁ h₂) (hu : UniqueIds h₂) (H : Hashing) : Indistinguishable F H h₁ h₂ where
  state := h.state_outcome hu H
  features t contract allow _ :=
    (h.state_outcome hu H t contract allow).bind fun _ _ => Or.inl rfl
  candidates _ _ _ := generate_congr h.toSameIdentity (fun _ => h.observations.mem_iff)
    (fun _ => h.lifecycle.mem_iff)
  labels t contract allow labelSet :=
    (h.state_outcome hu H t contract allow).bind fun state _ =>
      Or.inl (h.labels_eq hu H state labelSet)

/-- The groups of the cold and hot parts: one cold and one hot part per token, in order. -/
theorem groupInto_cold_hot {histories : List TokenHistory} (cold hot : TokenHistory → TokenHistory)
    (hc : ∀ h, (cold h).tokenId = h.tokenId) (hh : ∀ h, (hot h).tokenId = h.tokenId)
    (hnd : (histories.map (·.tokenId)).Nodup) :
    (groupInto (·.tokenId) (histories.map hot)
        (groupInto (·.tokenId) (histories.map cold) Dict.empty)).values =
      histories.map fun h => [cold h, hot h] := by
  have hck : (histories.map cold).map (·.tokenId) = histories.map (·.tokenId) := by
    simp [List.map_map, Function.comp_def, hc]
  have hkeys : (groupInto (·.tokenId) (histories.map cold) Dict.empty).keys =
      histories.map (·.tokenId) := by
    rw [keys_groupInto_of_fresh, hck]
    · rfl
    · rw [hck]
      simpa using hnd
  rw [Dict.values_eq_map_get? _ [], keys_groupInto_of_subset, hkeys, List.map_map]
  · apply List.map_congr_left
    intro h hm
    have honly : ∀ f : TokenHistory → TokenHistory, (∀ h, (f h).tokenId = h.tokenId) →
        (histories.map f).filter (fun x => x.tokenId = h.tokenId) = [f h] := by
      intro f hf
      rw [List.filter_map]
      have hone : histories.filter ((fun x => decide (x.tokenId = h.tokenId)) ∘ f) = [h] := by
        simpa [Function.comp_def, hf] using filter_key_eq_singleton hnd hm
      rw [hone]
      rfl
    simp only [Function.comp_apply, getD_groupInto, honly cold hc, honly hot hh]
    rfl
  · intro x hx
    obtain ⟨h, hm, rfl⟩ := List.mem_map.mp hx
    rw [hkeys, hh]
    exact List.mem_map_of_mem hm

theorem mem_selectHistories {histories : List TokenHistory} {query : ResearchQuery}
    {h : TokenHistory} (hm : h ∈ selectHistories histories query) :
    h ∈ histories ∧ h.epochNumber = query.epochNumber := by
  simp only [selectHistories, mem_sortOn, List.mem_filter, Bool.and_eq_true,
    decide_eq_true_eq] at hm
  exact ⟨hm.1, hm.2.1.1⟩

/-- One epoch's selection has one history per token. -/
theorem selectHistories_tokens_nodup {histories : List TokenHistory} (query : ResearchQuery)
    (hnd : (histories.map fun h => (h.epochNumber, h.tokenId)).Nodup) :
    ((selectHistories histories query).map (·.tokenId)).Nodup := by
  have hperm : (selectHistories histories query).Perm _ := sortOn_perm _ _
  have hpair := ((hperm.map fun h => (h.epochNumber, h.tokenId)).nodup_iff).mpr
    (hnd.sublist (List.filter_sublist.map _))
  rw [List.nodup_map_iff_inj_on hpair.of_map]
  intro x hx y hy hxy
  have hepoch : x.epochNumber = y.epochNumber :=
    (mem_selectHistories hx).2.trans (mem_selectHistories hy).2.symm
  exact List.inj_on_of_nodup_map hpair hx hy (Prod.ext hepoch hxy)

theorem mapM_forall₂ {α β γ δ : Type} {R : γ → δ → Prop} {e : α → β}
    {f : β → Except ResearchError γ} {g : α → δ} (xs : List α)
    (h : ∀ x ∈ xs, ∃ c, f (e x) = .ok c ∧ R c (g x)) :
    ∃ cs, (xs.map e).mapM f = .ok cs ∧ List.Forall₂ R cs (xs.map g) := by
  induction xs with
  | nil => exact ⟨[], rfl, .nil⟩
  | cons x xs ih =>
    obtain ⟨c, hc, hR⟩ := h x (by simp)
    obtain ⟨cs, hcs, hRs⟩ := ih fun y hy => h y (by simp [hy])
    exact ⟨c :: cs, by rw [List.map_cons, List.mapM_cons, hc, hcs]; rfl, .cons hR hRs⟩

theorem sliceHistory_withDescriptor (h : TokenHistory) (d : SourceDescriptor)
    (startAt endAt : Option Timestamp) :
    sliceHistory (withDescriptor (sliceHistory h startAt endAt) d) startAt endAt =
      withDescriptor (sliceHistory h startAt endAt) d := by
  have hidem := congrArg (withDescriptor · d) (sliceHistory_idem h startAt endAt)
  exact hidem

theorem address_pairwise {ms ds : List TokenHistory} {R : TokenHistory → TokenHistory → Prop}
    (h : List.Forall₂ R ms ds) (hR : ∀ m d, R m d → m.address = d.address)
    (hds : ds.Pairwise fun a b => a.address ≤ b.address) :
    ms.Pairwise fun a b => a.address ≤ b.address := by
  have haddr : ms.map (·.address) = ds.map (·.address) := by
    induction h with
    | nil => rfl
    | cons hmd _ ih =>
      rw [List.pairwise_cons] at hds
      rw [List.map_cons, List.map_cons, hR _ _ hmd, ih hds.2]
  have hmap := List.pairwise_map.mpr hds
  rw [← haddr] at hmap
  exact List.pairwise_map.mp hmap

/-- A hot/cold source over two sources that serve the same histories returns, for every
query and cutoff, the histories a single source returns: the same facts, and the same
states, features, candidates and labels at every time. -/
theorem hot_cold_transparent {F : Type} [Numerics F] (H : Hashing) (histories : List TokenHistory)
    (cold hot single : ResearchSource) (hotFrom : Timestamp) (query : ResearchQuery)
    (hcold : Serves cold histories) (hhot : Serves hot histories)
    (hsingle : Serves single histories)
    (hkeys : (histories.map fun h => (h.epochNumber, h.tokenId)).Nodup)
    (hu : ∀ h ∈ histories, UniqueIds h) :
    ∃ merged direct, hotColdSource H cold hot hotFrom query = .ok merged ∧
      single query = .ok direct ∧
      List.Forall₂ (fun m d => SameFacts m d ∧ Indistinguishable F H m d) merged direct := by
  obtain ⟨coldDescriptor, hc⟩ := hcold { query with endAt := some (coldEnd hotFrom query.endAt) }
  obtain ⟨hotDescriptor, hh⟩ := hhot { query with startAt := some (hotStart hotFrom query.startAt) }
  obtain ⟨descriptor, hs⟩ := hsingle query
  have hselCold : selectHistories histories
      { query with endAt := some (coldEnd hotFrom query.endAt) } =
        selectHistories histories query := rfl
  have hselHot : selectHistories histories
      { query with startAt := some (hotStart hotFrom query.startAt) } =
        selectHistories histories query := rfl
  rw [hselCold] at hc
  rw [hselHot] at hh
  have hgroups := groupInto_cold_hot
    (fun h => withDescriptor
      (sliceHistory h query.startAt (some (coldEnd hotFrom query.endAt))) (coldDescriptor h))
    (fun h => withDescriptor
      (sliceHistory h (some (hotStart hotFrom query.startAt)) query.endAt) (hotDescriptor h))
    (fun _ => rfl) (fun _ => rfl) (selectHistories_tokens_nodup query hkeys)
  obtain ⟨merged, hmerge, hsame⟩ := mapM_forall₂
    (R := fun m d => SameFacts m d ∧ Indistinguishable F H m d)
    (e := fun h => [withDescriptor
        (sliceHistory h query.startAt (some (coldEnd hotFrom query.endAt))) (coldDescriptor h),
      withDescriptor
        (sliceHistory h (some (hotStart hotFrom query.startAt)) query.endAt) (hotDescriptor h)])
    (f := fun parts => mergeHistories H parts hotFrom)
    (g := fun h => withDescriptor (sliceHistory h query.startAt query.endAt) (descriptor h))
    (selectHistories histories query) (by
      intro h hm
      have huh := hu h (mem_selectHistories hm).1
      obtain ⟨m, hm, hfacts⟩ := mergeHistories_split H huh hotFrom query.startAt query.endAt
        (coldDescriptor h) (hotDescriptor h) (descriptor h)
      exact ⟨m, hm, hfacts, hfacts.indistinguishable (sliceHistory_uniqueIds huh _ _ _) H⟩)
  have hsorted : sortOn (fun h : TokenHistory => h.address) merged = merged := by
    apply sortOn_eq_self
    apply address_pairwise hsame fun m d h => h.1.address
    rw [List.pairwise_map]
    exact sortOn_pairwise _ _
  refine ⟨merged, _, ?_, hs, hsame⟩
  simp only [hotColdSource, hc, hh, bind_eq_ok, pure_eq_ok, List.map_map, Function.comp_def,
    sliceHistory_withDescriptor, hgroups, Except.ok.injEq, exists_eq_left']
  exact ⟨merged, hmerge, hsorted⟩

theorem hot_cold_transparent_at_61 :
    ∃ merged direct,
      hotColdSource plainHashing (inMemorySource plainHashing [admittedLaterHistory] "cold")
          (inMemorySource plainHashing [admittedLaterHistory] "hot") (seconds 61)
          { epochNumber := 1, endAt := some (seconds 80) } = .ok merged ∧
        inMemorySource plainHashing [admittedLaterHistory] "memory"
          { epochNumber := 1, endAt := some (seconds 80) } = .ok direct ∧
        List.Forall₂ (fun m d => SameFacts m d ∧
          @Indistinguishable ℚ exactNumerics plainHashing m d) merged direct := by
  refine @hot_cold_transparent ℚ exactNumerics plainHashing [admittedLaterHistory] _ _ _
    (seconds 61) _ (inMemorySource_serves _ _ _) (inMemorySource_serves _ _ _)
    (inMemorySource_serves _ _ _) (by decide) ?_
  intro h hm
  rw [List.mem_singleton.mp hm]
  constructor <;> decide

end PumpResearch.Research
