import PumpResearch.Candidates.Policy
import PumpResearch.Library.KeyedMachines
import PumpResearch.Library.KeyedOrder

/-! The historical simulation of the market rule. It streams the observations of an epoch token
by token and keeps a flag and an expiry instead of the projection. -/
namespace PumpResearch.Candidates
open KeyedMachines KeyedOrder

/-- A row of the simulated stream. -/
structure EvidenceRow where
  tokenId : Uuid
  receivedAt : Int
  liquidityUsd : Option ℚ
  volumeM5Usd : Option ℚ
  buysM5 : Option Int
  sellsM5 : Option Int
deriving DecidableEq

/-- The local state of `_simulate_rows`. -/
structure SimulationState where
  currentToken : Option Uuid
  tier1 : Bool
  expiresAt : Option Int
  tokenEligible : Bool
  evaluatedTokens : Nat
  eligibleTokens : Nat
  candidates : Nat
  promotions : Nat
  demotions : Nat
  intervals : List (Int × Int)

/-- The result, without its rates and its methodology text. -/
structure HistoricalCandidateSimulation where
  epochNumber : Int
  evaluatedTokens : Nat
  eligibleTokens : Nat
  candidateEvents : Nat
  promotionsToTier1 : Nat
  demotionsToTier0 : Nat
  promotionsToTier2 : Nat
  peakCandidateCoverage : Nat
deriving DecidableEq

/-- `_peak_intervals` behind the sort: the ends of the active intervals, least first. -/
def peakOf : List Int → Nat → List (Int × Int) → Nat
  | _, peak, [] => peak
  | active, peak, (start, finish) :: rest =>
    let active := (active.dropWhile (· ≤ start)).orderedInsert (· ≤ ·) finish
    peakOf active (max peak active.length) rest

/-- `_peak_intervals`. -/
def peakIntervals (intervals : List (Int × Int)) : Nat :=
  peakOf [] 0 (intervals.mergeSort fun a b => a.1 < b.1 ∨ a.1 = b.1 ∧ a.2 ≤ b.2)

section Simulation
variable (divide : ℚ → ℚ → ℚ) (policy : CandidatePolicy)

/-- `_market_eligible`. -/
def marketEligible (row : EvidenceRow) : Bool :=
  let transactions := match row.buysM5, row.sellsM5 with
    | some buys, some sells => some (buys + sells)
    | _, _ => none
  let ratio := match row.volumeM5Usd, row.liquidityUsd with
    | some volume, some liquidity => if liquidity = 0 then none else some (divide volume liquidity)
    | _, _ => none
  presentAnd row.liquidityUsd (policy.minimumLiquidityUsd ≤ ·) &&
    presentAnd transactions (policy.minimumTransactionsM5 ≤ ·) &&
    presentAnd ratio (policy.minimumVolumeLiquidityRatio ≤ ·)

/-- Count a token that the stream has left. -/
def countToken (s : SimulationState) : SimulationState :=
  if s.currentToken = none then s
  else { s with
    evaluatedTokens := s.evaluatedTokens + 1
    eligibleTokens := s.eligibleTokens + s.tokenEligible.toNat }

/-- The start of a round: a new token starts anew. -/
def enterToken (s : SimulationState) (row : EvidenceRow) : SimulationState :=
  if s.currentToken = some row.tokenId then s
  else { countToken s with
    currentToken := some row.tokenId, tier1 := false, expiresAt := none, tokenEligible := false }

/-- One round of the loop. -/
def simulateRow (s : SimulationState) (row : EvidenceRow) : SimulationState :=
  let s := enterToken s row
  let eligible := marketEligible divide policy row
  let s := { s with tokenEligible := s.tokenEligible || eligible }
  if s.tier1 = false ∧ eligible then
    { s with
      tier1 := true
      promotions := s.promotions + 1
      candidates := s.candidates + 1
      expiresAt := some (row.receivedAt + policy.tier1Ttl)
      intervals := s.intervals ++ [(row.receivedAt, row.receivedAt + policy.tier1Ttl)] }
  else if s.tier1 ∧ ∃ expires ∈ s.expiresAt, expires ≤ row.receivedAt then
    if eligible then
      { s with
        candidates := s.candidates + 1
        expiresAt := some (row.receivedAt + policy.tier1Ttl)
        intervals := s.intervals ++ [(row.receivedAt, row.receivedAt + policy.tier1Ttl)] }
    else { s with tier1 := false, expiresAt := none, demotions := s.demotions + 1 }
  else s

def emptySimulation : SimulationState := ⟨none, false, none, false, 0, 0, 0, 0, 0, []⟩

/-- `_simulate_rows`. -/
def simulateRows (epochNumber : Int) (rows : List EvidenceRow) : HistoricalCandidateSimulation :=
  let s := countToken (rows.foldl (simulateRow divide policy) emptySimulation)
  { epochNumber := epochNumber
    evaluatedTokens := s.evaluatedTokens
    eligibleTokens := s.eligibleTokens
    candidateEvents := s.candidates
    promotionsToTier1 := s.promotions
    demotionsToTier0 := s.demotions
    promotionsToTier2 := 0
    peakCandidateCoverage := peakIntervals s.intervals }

/-! ### The rule as one machine for each token -/

/-- The expiry of a token's coverage, if it is in the first tier, after a row. -/
def marketNext (expires : Option Int) (row : EvidenceRow) : Option Int :=
  if marketEligible divide policy row then
    if ∀ e ∈ expires, e ≤ row.receivedAt then some (row.receivedAt + policy.tier1Ttl) else expires
  else if ∃ e ∈ expires, e ≤ row.receivedAt then none
  else expires

/-- The row nominates the token, or nominates it again. -/
def nominated (expires : Option Int) (row : EvidenceRow) : Nat :=
  if marketEligible divide policy row ∧ ∀ e ∈ expires, e ≤ row.receivedAt then 1 else 0

def promoted (expires : Option Int) (row : EvidenceRow) : Nat :=
  if marketEligible divide policy row ∧ expires = none then 1 else 0

def demoted (expires : Option Int) (row : EvidenceRow) : Nat :=
  if marketEligible divide policy row = false ∧ ∃ e ∈ expires, e ≤ row.receivedAt then 1 else 0

end Simulation

section Machines
variable (divide : ℚ → ℚ → ℚ) (policy : CandidatePolicy)

/-- The machine of the token that a row belongs to. -/
def SimulationState.expiresFor (s : SimulationState) (row : EvidenceRow) : Option Int :=
  if s.currentToken = some row.tokenId then s.expiresAt else none

/-- The flag is set while there is an expiry. -/
def FlagMatches (s : SimulationState) : Prop := s.tier1 = s.expiresAt.isSome

/-- Entering a token counts nothing, and leaves the machine of its token. -/
theorem enterToken_machine {s : SimulationState} (h : FlagMatches s) (row : EvidenceRow) :
    FlagMatches (enterToken s row) ∧ (enterToken s row).currentToken = some row.tokenId ∧
      (enterToken s row).expiresAt = s.expiresFor row ∧
      (enterToken s row).promotions = s.promotions ∧
      (enterToken s row).demotions = s.demotions ∧
      (enterToken s row).candidates = s.candidates := by
  unfold enterToken SimulationState.expiresFor
  by_cases hsame : s.currentToken = some row.tokenId
  · simp [hsame, h]
  · unfold countToken
    by_cases hnone : s.currentToken = none
    · simp [hnone, FlagMatches]
    · simp [hsame, hnone, FlagMatches]

/-- One round moves the machine of the row's token, and counts what it puts out. -/
theorem simulateRow_machine {s : SimulationState} (h : FlagMatches s) (row : EvidenceRow) :
    FlagMatches (simulateRow divide policy s row) ∧
      (simulateRow divide policy s row).currentToken = some row.tokenId ∧
      (simulateRow divide policy s row).expiresAt =
        marketNext divide policy (s.expiresFor row) row ∧
      (simulateRow divide policy s row).promotions =
        s.promotions + promoted divide policy (s.expiresFor row) row ∧
      (simulateRow divide policy s row).demotions =
        s.demotions + demoted divide policy (s.expiresFor row) row ∧
      (simulateRow divide policy s row).candidates =
        s.candidates + nominated divide policy (s.expiresFor row) row := by
  obtain ⟨hflag, htoken, hexpires, hpromotions, hdemotions, hcandidates⟩ :=
    enterToken_machine h row
  rw [FlagMatches, hexpires] at hflag
  rw [← hpromotions, ← hdemotions, ← hcandidates]
  cases heligible : marketEligible divide policy row with
  | true =>
    cases hstate : s.expiresFor row with
    | none =>
      simp [simulateRow, heligible, hstate, hflag, htoken, FlagMatches, marketNext, promoted,
        demoted, nominated]
    | some expires =>
      by_cases hover : expires ≤ row.receivedAt
      · simp [simulateRow, heligible, hexpires, hstate, hflag, htoken, FlagMatches, marketNext,
          promoted, demoted, nominated, hover]
      · simp [simulateRow, heligible, hexpires, hstate, hflag, htoken, FlagMatches, marketNext,
          promoted, demoted, nominated, hover]
  | false =>
    cases hstate : s.expiresFor row with
    | none =>
      simp [simulateRow, heligible, hexpires, hstate, hflag, htoken, FlagMatches, marketNext,
        promoted, demoted, nominated]
    | some expires =>
      by_cases hover : expires ≤ row.receivedAt
      · simp [simulateRow, heligible, hexpires, hstate, hflag, htoken, FlagMatches, marketNext,
          promoted, demoted, nominated, hover]
      · simp [simulateRow, heligible, hexpires, hstate, hflag, htoken, FlagMatches, marketNext,
          promoted, demoted, nominated, hover]

/-- The loop counts what the machine puts out that starts anew with each token. -/
theorem simulate_counts {s : SimulationState} (h : FlagMatches s) (rows : List EvidenceRow) :
    (rows.foldl (simulateRow divide policy) s).promotions = s.promotions +
        resetOutputs EvidenceRow.tokenId (marketNext divide policy) (promoted divide policy) none
          (s.currentToken, s.expiresAt) rows ∧
      (rows.foldl (simulateRow divide policy) s).demotions = s.demotions +
        resetOutputs EvidenceRow.tokenId (marketNext divide policy) (demoted divide policy) none
          (s.currentToken, s.expiresAt) rows ∧
      (rows.foldl (simulateRow divide policy) s).candidates = s.candidates +
        resetOutputs EvidenceRow.tokenId (marketNext divide policy) (nominated divide policy) none
          (s.currentToken, s.expiresAt) rows := by
  induction rows generalizing s with
  | nil => exact ⟨rfl, rfl, rfl⟩
  | cons row rest ih =>
    obtain ⟨hflag, htoken, hexpires, hpromotions, hdemotions, hcandidates⟩ :=
      simulateRow_machine divide policy h row
    obtain ⟨hp, hd, hc⟩ := ih hflag
    rw [htoken, hexpires] at hp hd hc
    rw [hpromotions] at hp
    rw [hdemotions] at hd
    rw [hcandidates] at hc
    simp only [List.foldl_cons, resetOutputs]
    refine ⟨?_, ?_, ?_⟩
    · rw [hp, Nat.add_assoc]
      rfl
    · rw [hd, Nat.add_assoc]
      rfl
    · rw [hc, Nat.add_assoc]
      rfl

/-- On rows sorted by token the simulation counts what the machines of all tokens put out. -/
theorem simulateRows_counts (epochNumber : Int) {rows : List EvidenceRow}
    (hsorted : rows.Pairwise fun a b => a.tokenId ≤ b.tokenId) :
    (simulateRows divide policy epochNumber rows).promotionsToTier1 =
        keyedOutputs EvidenceRow.tokenId (marketNext divide policy) (promoted divide policy)
          (fun _ => none) rows ∧
      (simulateRows divide policy epochNumber rows).demotionsToTier0 =
        keyedOutputs EvidenceRow.tokenId (marketNext divide policy) (demoted divide policy)
          (fun _ => none) rows ∧
      (simulateRows divide policy epochNumber rows).candidateEvents =
        keyedOutputs EvidenceRow.tokenId (marketNext divide policy) (nominated divide policy)
          (fun _ => none) rows := by
  have hstart : FlagMatches emptySimulation := rfl
  obtain ⟨hp, hd, hc⟩ := simulate_counts divide policy hstart rows
  have hleft : ∀ s : SimulationState, (countToken s).promotions = s.promotions ∧
      (countToken s).demotions = s.demotions ∧ (countToken s).candidates = s.candidates := by
    intro s
    unfold countToken
    by_cases hnone : s.currentToken = none
    · simp [hnone]
    · simp [hnone]
  obtain ⟨hleftP, hleftD, hleftC⟩ :=
    hleft (rows.foldl (simulateRow divide policy) emptySimulation)
  refine ⟨?_, ?_, ?_⟩
  · rw [simulateRows, hleftP, hp, ← resetOutputs_eq_keyedOutputs none rows hsorted]
    exact Nat.zero_add _
  · rw [simulateRows, hleftD, hd, ← resetOutputs_eq_keyedOutputs none rows hsorted]
    exact Nat.zero_add _
  · rw [simulateRows, hleftC, hc, ← resetOutputs_eq_keyedOutputs none rows hsorted]
    exact Nat.zero_add _

end Machines

end PumpResearch.Candidates
