import PumpResearch.Research.Features
import PumpResearch.Research.CandidateTimestamps

/-! Two histories with the same past are indistinguishable at a decision time. -/
namespace PumpResearch.Research
open KeyedOrder

/-- Fact ids are unique inside each family. -/
structure UniqueIds (h : TokenHistory) : Prop where
  discoveries : (h.discoveries.map (·.id)).Nodup
  observations : (h.observations.map (·.id)).Nodup
  lifecycle : (h.lifecycle.map (·.id)).Nodup
  pairFacts : (h.pairFacts.map (·.id)).Nodup
  boosts : (h.boosts.map (·.id)).Nodup
  metadata : (h.metadata.map (·.id)).Nodup
  security : (h.security.map (·.id)).Nodup
  context : (h.context.map (·.id)).Nodup
  coverage : (h.coverage.map (·.id)).Nodup
  candidates : (h.candidates.map (·.id)).Nodup
  candidateTiers : (h.candidateTiers.map (·.id)).Nodup
  selectiveSecurity : (h.selectiveSecurity.map (·.id)).Nodup

/-- Both lists hold the same available facts, in any order. -/
def SameAvailable {α : Type} (available : α → Bool) (xs ys : List α) : Prop :=
  ∀ x, available x = true → (x ∈ xs ↔ x ∈ ys)

/-- Both histories hold exactly the same facts available by the time `t`. -/
structure SamePast (t : Timestamp) (h₁ h₂ : TokenHistory) : Prop where
  discoveries : SameAvailable (fun x => x.receivedAt ≤ t) h₁.discoveries h₂.discoveries
  observations : SameAvailable (fun x => x.receivedAt ≤ t) h₁.observations h₂.observations
  lifecycle : SameAvailable (fun x => x.decidedAt ≤ t) h₁.lifecycle h₂.lifecycle
  pairFacts : SameAvailable (fun x => x.receivedAt ≤ t) h₁.pairFacts h₂.pairFacts
  boosts : SameAvailable (fun x => x.receivedAt ≤ t) h₁.boosts h₂.boosts
  metadata : SameAvailable (fun x => x.receivedAt ≤ t) h₁.metadata h₂.metadata
  security : SameAvailable (fun x => x.receivedAt ≤ t) h₁.security h₂.security
  context : SameAvailable (fun x => x.receivedAt ≤ t) h₁.context h₂.context
  coverage : SameAvailable (fun x => decide (x.decidedAt ≤ t) && decide (x.effectiveAt ≤ t))
    h₁.coverage h₂.coverage
  candidates : SameAvailable (fun x => x.candidateAt ≤ t) h₁.candidates h₂.candidates
  candidateTiers : SameAvailable (fun x => x.decidedAt ≤ t) h₁.candidateTiers h₂.candidateTiers
  selectiveSecurity :
    SameAvailable (fun x => x.receivedAt ≤ t) h₁.selectiveSecurity h₂.selectiveSecurity

/-- Unique ids leave no order to compare. -/
theorem SameAvailable.familyAgrees {α : Type} {ident : α → String} {available : α → Bool}
    {xs ys : List α} (h : SameAvailable available xs ys) (hx : (xs.map ident).Nodup)
    (hy : (ys.map ident).Nodup) : FamilyAgrees ident available xs ys := by
  apply SameByKey.of_nodup
  · exact hx.sublist (List.filter_sublist.map ident)
  · exact hy.sublist (List.filter_sublist.map ident)
  · intro x
    rw [List.mem_filter, List.mem_filter]
    constructor
    · rintro ⟨hm, ha⟩
      exact ⟨(h x ha).mp hm, ha⟩
    · rintro ⟨hm, ha⟩
      exact ⟨(h x ha).mpr hm, ha⟩

theorem SamePast.visibleAgree {t : Timestamp} {h₁ h₂ : TokenHistory} (h : SamePast t h₁ h₂)
    (hu₁ : UniqueIds h₁) (hu₂ : UniqueIds h₂) : VisibleAgree t h₁ h₂ where
  discoveries := h.discoveries.familyAgrees hu₁.discoveries hu₂.discoveries
  observations := h.observations.familyAgrees hu₁.observations hu₂.observations
  lifecycle := h.lifecycle.familyAgrees hu₁.lifecycle hu₂.lifecycle
  pairFacts := h.pairFacts.familyAgrees hu₁.pairFacts hu₂.pairFacts
  boosts := h.boosts.familyAgrees hu₁.boosts hu₂.boosts
  metadata := h.metadata.familyAgrees hu₁.metadata hu₂.metadata
  security := h.security.familyAgrees hu₁.security hu₂.security
  context := h.context.familyAgrees hu₁.context hu₂.context
  coverage := h.coverage.familyAgrees hu₁.coverage hu₂.coverage
  candidates := h.candidates.familyAgrees hu₁.candidates hu₂.candidates
  candidateTiers := h.candidateTiers.familyAgrees hu₁.candidateTiers hu₂.candidateTiers
  selectiveSecurity :=
    h.selectiveSecurity.familyAgrees hu₁.selectiveSecurity hu₂.selectiveSecurity

/-- A token admitted at 0 s and observed at 10 s. -/
def admittedHistory : TokenHistory where
  epochId := "epoch"
  epochNumber := 1
  epochDataValid := true
  tokenId := "token"
  chain := "solana"
  address := "mint"
  lifecycle := [⟨"l1", 0, 0, none, "NEW", "admitted"⟩]
  observations := [{ id := "o1", pairId := "pair", pairAddress := "pool",
                     receivedAt := seconds 10, priceUsd := some 2 }]

/-- The same token with a later observation and a late lifecycle event. -/
def admittedLaterHistory : TokenHistory :=
  { admittedHistory with
    lifecycle := [⟨"l2", seconds 90, seconds 80, some "NEW", "DEAD", "silent"⟩,
      ⟨"l1", 0, 0, none, "NEW", "admitted"⟩]
    observations := { id := "o2", pairId := "other", pairAddress := "pool2",
                      receivedAt := seconds 61, priceUsd := some 9 } ::
      admittedHistory.observations }

end PumpResearch.Research
