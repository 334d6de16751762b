import PumpResearch.Lifecycle.Policy

/-! The evidence of a response does not depend on the order of its pairs. It is the pair of most
liquidity, and of the least address among those. -/
namespace PumpResearch.Lifecycle

open KeyedOrder

/-- The candidate of most liquidity, and of the least address among those. -/
structure Preferred (candidates : List LifecycleEvidenceCandidate)
    (best : LifecycleEvidenceCandidate) : Prop where
  mem : best ∈ candidates
  greatest : ∀ candidate ∈ candidates, ∀ x ∈ candidate.liquidityUsd,
    ∃ y ∈ best.liquidityUsd, x ≤ y
  least : ∀ candidate ∈ candidates, candidate.liquidityUsd = best.liquidityUsd →
    canonicalPairKey best ≤ canonicalPairKey candidate

/-- The candidates that lack what the policy requires. -/
def Incomplete (candidates : List LifecycleEvidenceCandidate) : Prop :=
  2 ≤ candidates.length ∧ ∃ candidate ∈ candidates, candidate.liquidityUsd = none

variable {candidates candidates' : List LifecycleEvidenceCandidate}

theorem selectEvidence_perm (hkeys : (candidates.map canonicalPairKey).Nodup)
    (hperm : candidates'.Perm candidates) : selectEvidence candidates' = selectEvidence candidates := by
  have hkeys' : (candidates'.map canonicalPairKey).Nodup :=
    (hperm.map canonicalPairKey).nodup_iff.mpr hkeys
  have hsort := (SameByKey.of_nodup hkeys' hkeys fun a => hperm.mem_iff).sortOn_eq
  rw [selectEvidence, selectEvidence, hsort]

/-- Among sorted candidates the first of most liquidity is preferred. -/
theorem preferred_of_head {ordered tied : List LifecycleEvidenceCandidate}
    {best : LifecycleEvidenceCandidate} {greatest : ℚ}
    (hsorted : ordered.Pairwise fun a b => canonicalPairKey a ≤ canonicalPairKey b)
    (hgreatest : (ordered.filterMap (·.liquidityUsd)).max? = some greatest)
    (htied : ordered.filter (·.liquidityUsd = some greatest) = best :: tied) :
    Preferred ordered best := by
  have hbest : best ∈ ordered.filter (·.liquidityUsd = some greatest) := by
    rw [htied]
    exact List.mem_cons_self
  obtain ⟨hmem, hliquidity⟩ := List.mem_filter.mp hbest
  rw [decide_eq_true_eq] at hliquidity
  obtain ⟨_, hmax⟩ := List.max?_eq_some_iff.mp hgreatest
  refine ⟨hmem, ?_, ?_⟩
  · intro candidate hcandidate x hx
    exact ⟨greatest, hliquidity, hmax x (List.mem_filterMap.mpr ⟨candidate, hcandidate, hx⟩)⟩
  · intro candidate hcandidate heq
    have hfiltered : candidate ∈ best :: tied := by
      rw [← htied, List.mem_filter, decide_eq_true_eq]
      exact ⟨hcandidate, heq.trans hliquidity⟩
    have hfirst := hsorted.filter (·.liquidityUsd = some greatest)
    rw [htied] at hfirst
    cases List.mem_cons.mp hfiltered with
    | inl hself => rw [hself]
    | inr hrest => exact (List.pairwise_cons.mp hfirst).1 candidate hrest

/-- With two complete candidates there is a most liquid one. -/
theorem exists_tied {ordered : List LifecycleEvidenceCandidate} (hne : ordered ≠ [])
    (hcomplete : ∀ candidate ∈ ordered, candidate.liquidityUsd ≠ none) :
    ∃ greatest best tied, (ordered.filterMap (·.liquidityUsd)).max? = some greatest ∧
      ordered.filter (·.liquidityUsd = some greatest) = best :: tied := by
  obtain ⟨first, hfirst⟩ := List.exists_mem_of_ne_nil ordered hne
  obtain ⟨x, hx⟩ := Option.ne_none_iff_exists'.mp (hcomplete first hfirst)
  have hvalues : ordered.filterMap (·.liquidityUsd) ≠ [] :=
    List.ne_nil_of_mem (List.mem_filterMap.mpr ⟨first, hfirst, hx⟩)
  obtain ⟨greatest, hgreatest⟩ := Option.isSome_iff_exists.mp (List.isSome_max?_of_ne_nil hvalues)
  obtain ⟨hmem, _⟩ := List.max?_eq_some_iff.mp hgreatest
  obtain ⟨best, hbest, hliquidity⟩ := List.mem_filterMap.mp hmem
  have hfiltered : best ∈ ordered.filter (·.liquidityUsd = some greatest) := by
    rw [List.mem_filter, decide_eq_true_eq]
    exact ⟨hbest, hliquidity⟩
  cases htied : ordered.filter (·.liquidityUsd = some greatest) with
  | nil => rw [htied] at hfiltered; cases hfiltered
  | cons head tied => exact ⟨greatest, head, tied, hgreatest, htied⟩

/-- What a selection is: a failure for nothing or something incomplete, else what is preferred. -/
theorem selectEvidence_cases (candidates : List LifecycleEvidenceCandidate) :
    ((selectEvidence candidates).selected = none ∧ (candidates = [] ∨ Incomplete candidates)) ∨
    (¬ (candidates = [] ∨ Incomplete candidates) ∧
      ∃ best, (selectEvidence candidates).selected = some best ∧ Preferred candidates best) := by
  have hperm := sortOn_perm canonicalPairKey candidates
  have hsorted := sortOn_pairwise canonicalPairKey candidates
  have htransfer {best : LifecycleEvidenceCandidate}
      (h : Preferred (sortOn canonicalPairKey candidates) best) : Preferred candidates best :=
    ⟨hperm.mem_iff.mp h.mem, fun c hc => h.greatest c (hperm.mem_iff.mpr hc),
      fun c hc => h.least c (hperm.mem_iff.mpr hc)⟩
  have hincomplete : Incomplete candidates ↔ Incomplete (sortOn canonicalPairKey candidates) := by
    rw [Incomplete, Incomplete, hperm.length_eq]
    simp only [hperm.mem_iff]
  have hnil : candidates = [] ↔ sortOn canonicalPairKey candidates = [] := by
    rw [← List.length_eq_zero_iff, ← List.length_eq_zero_iff, hperm.length_eq]
  rw [hincomplete, hnil]
  simp only [selectEvidence]
  generalize sortOn canonicalPairKey candidates = ordered at hsorted htransfer ⊢
  cases ordered with
  | nil => exact .inl ⟨rfl, .inl rfl⟩
  | cons first rest =>
    cases rest with
    | nil =>
      refine .inr ⟨by simp [Incomplete], first, rfl, htransfer ⟨List.mem_singleton_self first, ?_, ?_⟩⟩
      · intro candidate hcandidate x hx
        rw [List.mem_singleton.mp hcandidate] at hx
        exact ⟨x, hx, le_rfl⟩
      · intro candidate hcandidate _
        rw [List.mem_singleton.mp hcandidate]
    | cons second rest =>
      simp only
      by_cases hmissing : ∃ candidate ∈ first :: second :: rest, candidate.liquidityUsd = none
      · obtain ⟨candidate, hcandidate, hnone⟩ := hmissing
        have hne : ((first :: second :: rest).filter (·.liquidityUsd.isNone)).map (·.pairAddress) ≠
            [] := by
          refine List.ne_nil_of_mem (List.mem_map_of_mem (List.mem_filter.mpr ⟨hcandidate, ?_⟩))
          rw [hnone]
          rfl
        rw [if_pos hne]
        exact .inl ⟨rfl, .inr ⟨by simp, candidate, hcandidate, hnone⟩⟩
      · have hcomplete : ∀ candidate ∈ first :: second :: rest, candidate.liquidityUsd ≠ none :=
          fun candidate hcandidate hnone => hmissing ⟨candidate, hcandidate, hnone⟩
        have hempty : ((first :: second :: rest).filter (·.liquidityUsd.isNone)).map (·.pairAddress) =
            [] := by
          rw [List.map_eq_nil_iff, List.filter_eq_nil_iff]
          intro candidate hcandidate hnone
          exact hcomplete candidate hcandidate (Option.isNone_iff_eq_none.mp hnone)
        obtain ⟨greatest, best, tied, hgreatest, htied⟩ := exists_tied (List.cons_ne_nil _ _) hcomplete
        rw [if_neg (not_not.mpr hempty), hgreatest, htied]
        refine .inr ⟨?_, best, rfl, htransfer (preferred_of_head hsorted hgreatest htied)⟩
        intro h
        cases h with
        | inl hnil => cases hnil
        | inr hincomplete => exact hmissing hincomplete.2

/-- Candidates of distinct pairs have one preferred candidate at most. -/
theorem Preferred.unique (hkeys : (candidates.map canonicalPairKey).Nodup)
    {best best' : LifecycleEvidenceCandidate} (h : Preferred candidates best)
    (h' : Preferred candidates best') : best = best' := by
  have hliquidity : best.liquidityUsd = best'.liquidityUsd := by
    cases hb : best.liquidityUsd with
    | none =>
      cases hb' : best'.liquidityUsd with
      | none => rfl
      | some y =>
        obtain ⟨x, hx, _⟩ := h.greatest best' h'.mem y hb'
        rw [hb] at hx
        cases hx
    | some x =>
      obtain ⟨y, hy, hxy⟩ := h'.greatest best h.mem x hb
      obtain ⟨x', hx', hyx⟩ := h.greatest best' h'.mem y hy
      rw [hb, Option.mem_some_iff] at hx'
      rw [Option.mem_def.mp hy, le_antisymm hxy (hx' ▸ hyx)]
  have hkey := le_antisymm (h.least best' h'.mem hliquidity.symm) (h'.least best h.mem hliquidity)
  exact List.inj_on_of_nodup_map hkeys h.mem h'.mem hkey

/-- The selection does not depend on the order of the candidates. It fails exactly for none or for
several of which one lacks liquidity, it prefers most liquidity and then the least address, and a
less liquid candidate does not change it. -/
theorem selectEvidence_order (candidates : List LifecycleEvidenceCandidate)
    (hkeys : (candidates.map canonicalPairKey).Nodup) :
    (∀ candidates', candidates'.Perm candidates →
      selectEvidence candidates' = selectEvidence candidates) ∧
    ((selectEvidence candidates).outcome = .failed ↔ candidates = [] ∨ Incomplete candidates) ∧
    ((selectEvidence candidates).outcome = .selected →
      ∃ best, (selectEvidence candidates).selected = some best ∧ Preferred candidates best) ∧
    (∀ added extended, extended.Perm (added :: candidates) →
      (extended.map canonicalPairKey).Nodup → 2 ≤ candidates.length → ¬ Incomplete candidates →
      (∃ x ∈ added.liquidityUsd, ∀ best ∈ (selectEvidence candidates).selected,
        ∃ y ∈ best.liquidityUsd, x < y) →
      (selectEvidence extended).selected = (selectEvidence candidates).selected) := by
  refine ⟨fun candidates' => selectEvidence_perm hkeys, ?_, ?_, ?_⟩
  · rw [EvidenceSelectionResult.outcome]
    cases selectEvidence_cases candidates with
    | inl hfailed =>
      rw [hfailed.1]
      exact ⟨fun _ => hfailed.2, fun _ => rfl⟩
    | inr hselected =>
      obtain ⟨hcomplete, best, hbest, _⟩ := hselected
      rw [hbest]
      refine ⟨?_, fun h => absurd h hcomplete⟩
      intro h
      cases h
  · intro houtcome
    cases selectEvidence_cases candidates with
    | inl hfailed =>
      rw [EvidenceSelectionResult.outcome, hfailed.1] at houtcome
      cases houtcome
    | inr hselected => exact hselected.2
  · intro added extended hperm hextended hlength hcomplete hlower
    obtain ⟨x, hx, hlower⟩ := hlower
    have hnotFailed : ¬ (candidates = [] ∨ Incomplete candidates) := by
      intro h
      cases h with
      | inl hnil => rw [hnil] at hlength; exact absurd hlength (by decide)
      | inr hincomplete => exact hcomplete hincomplete
    have hsome := (selectEvidence_cases candidates).resolve_left fun h => hnotFailed h.2
    obtain ⟨_, best, hbest, hpreferred⟩ := hsome
    obtain ⟨y, hy, hxy⟩ := hlower best hbest
    have hextendedComplete : ¬ (extended = [] ∨ Incomplete extended) := by
      intro h
      cases h with
      | inl hnil =>
        rw [hnil] at hperm
        exact absurd hperm.symm.eq_nil (List.cons_ne_nil _ _)
      | inr hincomplete =>
        obtain ⟨_, candidate, hcandidate, hnone⟩ := hincomplete
        cases List.mem_cons.mp (hperm.mem_iff.mp hcandidate) with
        | inl hadded =>
          rw [← hadded, hnone] at hx
          cases hx
        | inr hold => exact hcomplete ⟨hlength, candidate, hold, hnone⟩
    obtain ⟨_, best', hbest', hpreferred'⟩ :=
      (selectEvidence_cases extended).resolve_left fun h => hextendedComplete h.2
    rw [hbest, hbest', Option.some_inj]
    have hold : best ∈ extended := hperm.mem_iff.mpr (List.mem_cons_of_mem _ hpreferred.mem)
    have hmem' : best' ∈ candidates := by
      cases List.mem_cons.mp (hperm.mem_iff.mp hpreferred'.mem) with
      | inr h => exact h
      | inl hadded =>
        obtain ⟨z, hz, hyz⟩ := hpreferred'.greatest best hold y hy
        rw [hadded, Option.mem_def.mp hx, Option.mem_some_iff] at hz
        rw [← hz] at hyz
        exact absurd hyz (not_le.mpr hxy)
    have hrestrict : Preferred candidates best' := by
      refine ⟨hmem', ?_, ?_⟩
      · intro candidate hcandidate
        exact hpreferred'.greatest candidate (hperm.mem_iff.mpr (List.mem_cons_of_mem _ hcandidate))
      · intro candidate hcandidate
        exact hpreferred'.least candidate (hperm.mem_iff.mpr (List.mem_cons_of_mem _ hcandidate))
    exact hrestrict.unique hkeys hpreferred

def candidateAt (pairAddress : String) (liquidityUsd : Option ℚ) : LifecycleEvidenceCandidate :=
  ⟨1, 2, 3, "solana", pairAddress, none, liquidityUsd, none, none⟩

/-- Two pairs of one liquidity: the response that has them the other way round, and one with a
less liquid pair, select the same. -/
theorem tied_candidates_order :
    (∀ candidates', candidates'.Perm [candidateAt "b" (some 5), candidateAt "a" (some 5)] →
      selectEvidence candidates' =
        selectEvidence [candidateAt "b" (some 5), candidateAt "a" (some 5)]) ∧
    (selectEvidence [candidateAt "c" (some 3), candidateAt "b" (some 5),
        candidateAt "a" (some 5)]).selected =
      (selectEvidence [candidateAt "b" (some 5), candidateAt "a" (some 5)]).selected := by
  obtain ⟨hperm, _, _, hadded⟩ :=
    selectEvidence_order [candidateAt "b" (some 5), candidateAt "a" (some 5)] (by decide)
  refine ⟨hperm, hadded (candidateAt "c" (some 3)) _ (List.Perm.refl _) (by decide) (by decide) ?_ ?_⟩
  · simp [Incomplete, candidateAt]
  · have hselected : (selectEvidence [candidateAt "b" (some 5), candidateAt "a" (some 5)]).selected =
        some (candidateAt "a" (some 5)) := by decide +kernel
    rw [hselected]
    refine ⟨3, rfl, ?_⟩
    intro best hbest
    cases hbest
    exact ⟨5, rfl, by norm_num⟩

end PumpResearch.Lifecycle
