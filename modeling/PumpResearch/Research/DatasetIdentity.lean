import PumpResearch.Library.RelatedLists
import PumpResearch.Research.RowColumns
import PumpResearch.Research.SeparatingHashing

/-! What the identity of a dataset says about its rows: it covers nine families, while the
watermark and the identity flag of a row also read the other three. -/
namespace PumpResearch.Research
open KeyedOrder OrderedDict RelatedLists Results

/-- Two histories agree on their identity and on every hashed family, id by id. -/
structure HashedSame (h₁ h₂ : TokenHistory) : Prop extends SameIdentity h₁ h₂ where
  discoveries : SameByKey (·.id) h₁.discoveries h₂.discoveries
  observations : SameByKey (·.id) h₁.observations h₂.observations
  lifecycle : SameByKey (·.id) h₁.lifecycle h₂.lifecycle
  pairFacts : SameByKey (·.id) h₁.pairFacts h₂.pairFacts
  boosts : SameByKey (·.id) h₁.boosts h₂.boosts
  metadata : SameByKey (·.id) h₁.metadata h₂.metadata
  security : SameByKey (·.id) h₁.security h₂.security
  context : SameByKey (·.id) h₁.context h₂.context
  coverage : SameByKey (·.id) h₁.coverage h₂.coverage

section Documents

end Documents

section Evidence

def visibleCandidates (h : TokenHistory) (t : Timestamp) : List CandidateFact :=
  h.candidates.filter fun item =>
    decide (item.candidateAt ≤ t) && decide (item.inputWatermark ≤ t)

def visibleCandidateTiers (h : TokenHistory) (t : Timestamp) : List CandidateTierFact :=
  h.candidateTiers.filter fun item =>
    decide (item.decidedAt ≤ t) && decide (item.inputWatermark ≤ t)

/-- A latest item carries the latest time of its list. -/
theorem exists_latest {α : Type} (time : α → Timestamp) (ident : α → String) {xs : List α}
    {x : α} (hx : x ∈ xs) : ∃ m, firstMax (timeKey time ident) xs = some m ∧ m ∈ xs ∧ time x ≤ time m := by
  cases hm : firstMax (timeKey time ident) xs with
  | none => simp [firstMax_eq_none.mp hm] at hx
  | some m =>
    have hle := le_of_firstMax hm hx
    refine ⟨m, rfl, mem_of_firstMax hm, ?_⟩
    rcases Prod.Lex.le_iff.mp hle with hlt | ⟨heq, _⟩
    · exact hlt.le
    · exact heq.le

end Evidence

section State
variable {h₁ h₂ : TokenHistory}

/-- A history with the unhashed families of another. -/
def withUnhashed (h evidence : TokenHistory) : TokenHistory :=
  { h with
    candidates := evidence.candidates
    candidateTiers := evidence.candidateTiers
    selectiveSecurity := evidence.selectiveSecurity }

theorem FamilyAgrees.of_sameByKey {α : Type} {ident : α → String} {available : α → Bool}
    {xs ys : List α} (h : SameByKey ident xs ys) : FamilyAgrees ident available xs ys :=
  h.filter available

theorem HashedSame.visibleAgree (h : HashedSame h₁ h₂) (t : Timestamp) :
    VisibleAgree t h₁ (withUnhashed h₂ h₁) where
  discoveries := .of_sameByKey h.discoveries
  observations := .of_sameByKey h.observations
  lifecycle := .of_sameByKey h.lifecycle
  pairFacts := .of_sameByKey h.pairFacts
  boosts := .of_sameByKey h.boosts
  metadata := .of_sameByKey h.metadata
  security := .of_sameByKey h.security
  context := .of_sameByKey h.context
  coverage := .of_sameByKey h.coverage
  candidates := .of_sameByKey (.refl _ _)
  candidateTiers := .of_sameByKey (.refl _ _)
  selectiveSecurity := .of_sameByKey (.refl _ _)

variable {F : Type} [Numerics F]

theorem HashedSame.labels_eq (h : HashedSame h₁ h₂) (H : Hashing) (s : TokenStateAsOf)
    (contract : LabelSetContract) :
    (buildOutcomeLabels H h₁ s contract : Except ResearchError (LabelResult F)) =
      buildOutcomeLabels H h₂ s contract := by
  apply buildOutcomeLabels_congr
  · exact ((h.observations.filter _).refine (timeKey_refines _ _)).sortOn_eq
  · intro t
    have hl := latestLifecycle_congr (h.visibleAgree t)
    exact hl

end State

section Rows
variable {F : Type} [Numerics F] {H : Hashing} {spec : DatasetBuildSpec}

section Selected
variable {hs₁ hs₂ : List TokenHistory}

end Selected

end Rows

section Sample

end Sample

end PumpResearch.Research
