import PumpResearch.Library.KeyedTotals
import PumpResearch.SecurityEnrichment.Evidence

/-! Concentration of holders. Token accounts of one owner count as one holder, and decimals are
exact. -/
namespace PumpResearch.SecurityEnrichment
open KeyedTotals

/-! ### Metrics -/

structure HolderAccountFact where
  tokenAccount : String
  ownerWallet : Option String
  rawBalance : ℚ
  isKnownPool : Bool := false
  isCreator : Bool := false
  exclusionReason : Option String := none
  balance_nonneg : 0 ≤ rawBalance
  excluded_pool : exclusionReason.isSome = true → isKnownPool = true

structure HolderMetrics where
  holderCount : Option Int
  top1Pct : Option ℚ
  top5Pct : Option ℚ
  top10Pct : Option ℚ
  top20Pct : Option ℚ
  largestHolderPct : Option ℚ
  largestNonPoolHolderPct : Option ℚ
  creatorHolderPct : Option ℚ
  hhi : Option ℚ
  coveredSupplyPct : Option ℚ
  completeness : EvidenceCompleteness
deriving DecidableEq

/-- The owner an account is counted under. An empty owner is no owner. -/
def HolderAccountFact.owner (account : HolderAccountFact) : String :=
  match account.ownerWallet.filter (· ≠ "") with
  | some wallet => wallet
  | none => "unknown-token-account:" ++ account.tokenAccount

/-- `_ratio`. -/
def ratio (numerator denominator : ℚ) : ℚ := numerator * 100 / denominator

def byOwner (accounts : List HolderAccountFact) : List ℚ :=
  (totals HolderAccountFact.owner (·.rawBalance) accounts).values

def nonPoolAccounts (accounts : List HolderAccountFact) : List HolderAccountFact :=
  accounts.filter fun account => !account.isKnownPool

def creatorBalance (accounts : List HolderAccountFact) : ℚ :=
  ((accounts.filter (·.isCreator)).map (·.rawBalance)).sum

/-- `build_holder_metrics`. -/
def buildHolderMetrics (accounts : List HolderAccountFact) (mintSupplyRaw : Option ℚ)
    (holderCount : Option Int) (completeness : EvidenceCompleteness) : HolderMetrics :=
  match mintSupplyRaw.filter (0 < ·) with
  | none => ⟨holderCount, none, none, none, none, none, none, none, none, none, completeness⟩
  | some supply =>
    let balances := descending (byOwner accounts)
    let top (n : Nat) := ratio (balances.take n).sum supply
    let creator := creatorBalance accounts
    { holderCount := holderCount
      top1Pct := some (top 1)
      top5Pct := some (top 5)
      top10Pct := some (top 10)
      top20Pct := some (top 20)
      largestHolderPct := some (top 1)
      largestNonPoolHolderPct :=
        some (ratio ((byOwner (nonPoolAccounts accounts)).max?.getD 0) supply)
      creatorHolderPct := if creator ≠ 0 then some (ratio creator supply) else none
      hhi := if completeness = .fullDistribution then
          some (balances.map fun value => (value / supply) ^ 2).sum
        else none
      coveredSupplyPct := some (ratio balances.sum supply)
      completeness := completeness }

/-! ### Balances -/

section Balances
variable (accounts : List HolderAccountFact)

theorem sum_byOwner : (byOwner accounts).sum = (accounts.map (·.rawBalance)).sum :=
  sum_totals _ _ accounts

/-- A choice of the accounts weighs no more than all of them. -/
theorem sum_filter_le (p : HolderAccountFact → Bool) (l : List HolderAccountFact) :
    ((l.filter p).map (·.rawBalance)).sum ≤ (l.map (·.rawBalance)).sum :=
  (List.filter_sublist.map _).sum_le_sum fun balance hbalance => by
    obtain ⟨account, _, rfl⟩ := List.mem_map.mp hbalance
    exact account.balance_nonneg

theorem byOwner_nonneg : ∀ balance ∈ byOwner accounts, 0 ≤ balance := by
  intro balance hbalance
  obtain ⟨account, _, rfl⟩ := (mem_values_totals _ _).mp hbalance
  refine List.sum_nonneg fun part hpart => ?_
  obtain ⟨member, _, rfl⟩ := List.mem_map.mp hpart
  exact member.balance_nonneg

/-- What an owner holds outside of pools is part of what it holds. -/
theorem nonPool_le_topSum : (byOwner (nonPoolAccounts accounts)).max?.getD 0 ≤
    topSum 1 (byOwner accounts) := by
  cases hmax : (byOwner (nonPoolAccounts accounts)).max? with
  | none => exact topSum_nonneg (byOwner_nonneg accounts) 1
  | some largest =>
    obtain ⟨account, haccount, rfl⟩ := (mem_values_totals _ _).mp (List.max?_mem hmax)
    have hmem : account ∈ accounts := (List.mem_filter.mp haccount).1
    have howner := le_topSum_one
      ((mem_values_totals HolderAccountFact.owner (·.rawBalance)).mpr ⟨account, hmem, rfl⟩)
    refine le_trans ?_ howner
    have hcomm : (nonPoolAccounts accounts).filter (fun a => a.owner = account.owner) =
        (accounts.filter fun a => a.owner = account.owner).filter fun a => !a.isKnownPool := by
      rw [nonPoolAccounts, List.filter_filter, List.filter_filter]
      exact List.filter_congr fun a _ => Bool.and_comm _ _
    rw [Option.getD_some, weightOf, hcomm]
    exact sum_filter_le _ _

/-- The squares of shares are at least the largest one's, and at most the largest share. -/
theorem sum_squares_bounds {balances : List ℚ} {supply : ℚ} (hsupply : 0 < supply)
    (hnonneg : ∀ balance ∈ balances, 0 ≤ balance) (hsum : balances.sum ≤ supply) :
    (topSum 1 balances / supply) ^ 2 ≤ (balances.map fun value => (value / supply) ^ 2).sum ∧
      (balances.map fun value => (value / supply) ^ 2).sum ≤ topSum 1 balances / supply := by
  constructor
  · by_cases hne : balances = []
    · simp [hne, topSum, descending]
    · refine List.single_le_sum ?_ _ (List.mem_map.mpr ⟨_, topSum_one_mem hne, rfl⟩)
      intro square hsquare
      obtain ⟨value, _, rfl⟩ := List.mem_map.mp hsquare
      exact sq_nonneg _
  · have hone : 0 ≤ topSum 1 balances / supply ^ 2 :=
      div_nonneg (topSum_nonneg hnonneg 1) (sq_nonneg supply)
    calc (balances.map fun value => (value / supply) ^ 2).sum
        ≤ (balances.map fun value => topSum 1 balances / supply ^ 2 * value).sum := by
          apply List.sum_le_sum
          intro value hvalue
          rw [div_pow, div_mul_eq_mul_div, sq value]
          have hle := mul_le_mul_of_nonneg_right (le_topSum_one hvalue) (hnonneg value hvalue)
          gcongr
      _ = topSum 1 balances / supply ^ 2 * balances.sum := by
          rw [List.sum_map_mul_left, List.map_id']
      _ ≤ topSum 1 balances / supply ^ 2 * supply := mul_le_mul_of_nonneg_left hsum hone
      _ = topSum 1 balances / supply := by
          field_simp

end Balances

/-! ### Regrouped accounts -/

/-- The accounts in another order, or one account of a known owner as several. -/
inductive Regrouped : List HolderAccountFact → List HolderAccountFact → Prop
  | permuted {accounts accounts' : List HolderAccountFact} (h : accounts.Perm accounts') :
      Regrouped accounts accounts'
  | split (before after parts : List HolderAccountFact) (account : HolderAccountFact)
      (wallet : String) (owned : account.ownerWallet = some wallet) (known : wallet ≠ "")
      (several : parts ≠ [])
      (same : ∀ part ∈ parts, part.ownerWallet = account.ownerWallet ∧
        part.isKnownPool = account.isKnownPool ∧ part.isCreator = account.isCreator)
      (whole : (parts.map (·.rawBalance)).sum = account.rawBalance) :
      Regrouped (before ++ account :: after) (before ++ parts ++ after)

/-- What the metrics read of an account besides its balance. -/
def HolderAccountFact.traits (account : HolderAccountFact) : String × Bool × Bool :=
  (account.owner, account.isKnownPool, account.isCreator)

section Regroup
variable {accounts accounts' : List HolderAccountFact}

/-- Accounts chosen by their traits hold the same together, and there are some or none. -/
theorem Regrouped.same_sum (h : Regrouped accounts accounts') (p : String × Bool × Bool → Bool) :
    ((accounts.filter fun account => p account.traits).map (·.rawBalance)).sum =
        ((accounts'.filter fun account => p account.traits).map (·.rawBalance)).sum ∧
      ((∃ account ∈ accounts, p account.traits = true) ↔
        ∃ account ∈ accounts', p account.traits = true) := by
  cases h with
  | permuted hperm =>
    constructor
    · exact ((hperm.filter _).map _).sum_eq
    · simp only [hperm.mem_iff]
  | split before after parts account wallet owned known several same whole =>
    have htraits : ∀ part ∈ parts, part.traits = account.traits := by
      intro part hpart
      obtain ⟨howner, hpool, hcreator⟩ := same part hpart
      simp [HolderAccountFact.traits, HolderAccountFact.owner, howner, hpool, hcreator, owned,
        Option.filter, known]
    obtain ⟨part, hpart⟩ := List.exists_mem_of_ne_nil parts several
    cases hp : p account.traits with
    | true =>
      have hall : parts.filter (fun account => p account.traits) = parts :=
        List.filter_eq_self.mpr fun part hpart => by rw [htraits part hpart, hp]
      constructor
      · simp [hp, hall, whole]
      · constructor
        · exact fun _ => ⟨part, by simp [hpart], by rw [htraits part hpart, hp]⟩
        · exact fun _ => ⟨account, by simp, hp⟩
    | false =>
      have hnone : parts.filter (fun account => p account.traits) = [] :=
        List.filter_eq_nil_iff.mpr fun part hpart => by simp [htraits part hpart, hp]
      have hout : ∀ part ∈ parts, ¬ p part.traits = true := fun part hpart => by
        simp [htraits part hpart, hp]
      constructor
      · simp [hp, hnone]
      · constructor
        · intro h
          obtain ⟨member, hmember, hchosen⟩ := h
          obtain hbefore | hrest := List.mem_append.mp hmember
          · exact ⟨member, by simp [hbefore], hchosen⟩
          · cases List.mem_cons.mp hrest with
            | inl heq =>
              rw [heq, hp] at hchosen
              cases hchosen
            | inr hafter => exact ⟨member, by simp [hafter], hchosen⟩
        · intro h
          obtain ⟨member, hmember, hchosen⟩ := h
          obtain hfirst | hafter := List.mem_append.mp hmember
          · obtain hbefore | hpart := List.mem_append.mp hfirst
            · exact ⟨member, by simp [hbefore], hchosen⟩
            · exact absurd hchosen (hout member hpart)
          · exact ⟨member, by simp [hafter], hchosen⟩

/-- The totals of owners, of all accounts or of those outside of pools. -/
theorem Regrouped.byOwner_perm (h : Regrouped accounts accounts')
    (p : String × Bool × Bool → Bool) :
    (byOwner (accounts.filter fun account => p account.traits)).Perm
      (byOwner (accounts'.filter fun account => p account.traits)) := by
  apply values_totals_perm
  · intro owner
    have hexists := (h.same_sum fun traits => p traits && decide (traits.1 = owner)).2
    simp only [Bool.and_eq_true, decide_eq_true_eq] at hexists
    simpa [HolderAccountFact.traits, and_assoc] using hexists
  · intro owner
    have hsum := (h.same_sum fun traits => decide (traits.1 = owner) && p traits).1
    simp only [weightOf, List.filter_filter]
    exact hsum

theorem Regrouped.buildHolderMetrics_eq (h : Regrouped accounts accounts')
    (mintSupplyRaw : Option ℚ) (holderCount : Option Int) (completeness : EvidenceCompleteness) :
    buildHolderMetrics accounts mintSupplyRaw holderCount completeness =
      buildHolderMetrics accounts' mintSupplyRaw holderCount completeness := by
  have hbalances : descending (byOwner accounts) = descending (byOwner accounts') := by
    have hperm := h.byOwner_perm fun _ => true
    rw [List.filter_true, List.filter_true] at hperm
    exact descending_congr hperm
  have hpools : (byOwner (nonPoolAccounts accounts)).max? =
      (byOwner (nonPoolAccounts accounts')).max? :=
    max?_congr (h.byOwner_perm fun traits => !traits.2.1)
  have hcreator : creatorBalance accounts = creatorBalance accounts' :=
    (h.same_sum fun traits => traits.2.2).1
  rw [buildHolderMetrics, buildHolderMetrics, hbalances, hpools, hcreator]

end Regroup

/-! ### Coherence -/

/-- The shares are ordered and bounded, and the squares agree with the largest of them. -/
structure Coherent (metrics : HolderMetrics) : Prop where
  ordered : ∃ top1 ∈ metrics.top1Pct, ∃ top5 ∈ metrics.top5Pct, ∃ top10 ∈ metrics.top10Pct,
    ∃ top20 ∈ metrics.top20Pct, ∃ covered ∈ metrics.coveredSupplyPct, 0 ≤ top1 ∧ top1 ≤ top5 ∧
      top5 ≤ top10 ∧ top10 ≤ top20 ∧ top20 ≤ covered ∧ covered ≤ 100
  nonPool : ∃ share ∈ metrics.largestNonPoolHolderPct, ∃ top1 ∈ metrics.top1Pct, share ≤ top1
  creator : ∀ share ∈ metrics.creatorHolderPct, ∃ covered ∈ metrics.coveredSupplyPct,
    share ≤ covered
  squares : ∀ hhi ∈ metrics.hhi, ∃ top1 ∈ metrics.top1Pct,
    (top1 / 100) ^ 2 ≤ hhi ∧ hhi ≤ top1 / 100

theorem ratio_le_ratio {a b supply : ℚ} (hsupply : 0 < supply) (h : a ≤ b) :
    ratio a supply ≤ ratio b supply := by
  unfold ratio
  gcongr

/-- Concentration is coherent, however the accounts are arranged. -/
theorem holder_concentration_coherent (accounts : List HolderAccountFact) (supply : ℚ)
    (hsupply : 0 < supply) (hsum : (accounts.map (·.rawBalance)).sum ≤ supply)
    (holderCount : Option Int) (completeness : EvidenceCompleteness) :
    Coherent (buildHolderMetrics accounts (some supply) holderCount completeness) ∧
      ∀ accounts', Regrouped accounts accounts' →
        buildHolderMetrics accounts' (some supply) holderCount completeness =
          buildHolderMetrics accounts (some supply) holderCount completeness := by
  refine ⟨?_, fun accounts' h => (h.buildHolderMetrics_eq _ _ _).symm⟩
  have hfilter : (some supply).filter (0 < ·) = some supply := by simp [Option.filter, hsupply]
  have hnonneg := byOwner_nonneg accounts
  have hcovered : (descending (byOwner accounts)).sum ≤ supply := by
    rw [sum_descending, sum_byOwner]
    exact hsum
  unfold buildHolderMetrics
  rw [hfilter]
  constructor
  · refine ⟨_, rfl, _, rfl, _, rfl, _, rfl, _, rfl, ?_, ?_, ?_, ?_, ?_, ?_⟩
    · have hone := topSum_nonneg hnonneg 1
      exact div_nonneg (mul_nonneg hone (by norm_num)) hsupply.le
    · exact ratio_le_ratio hsupply (topSum_mono hnonneg (by omega))
    · exact ratio_le_ratio hsupply (topSum_mono hnonneg (by omega))
    · exact ratio_le_ratio hsupply (topSum_mono hnonneg (by omega))
    · rw [sum_descending]
      exact ratio_le_ratio hsupply (topSum_le_sum hnonneg 20)
    · rw [ratio, div_le_iff₀ hsupply, mul_comm]
      exact mul_le_mul_of_nonneg_left hcovered (by norm_num)
  · exact ⟨_, rfl, _, rfl, ratio_le_ratio hsupply (nonPool_le_topSum accounts)⟩
  · intro share hshare
    dsimp only at hshare
    split at hshare
    · cases hshare
      refine ⟨_, rfl, ratio_le_ratio hsupply ?_⟩
      rw [sum_descending, sum_byOwner]
      exact sum_filter_le _ accounts
    · cases hshare
  · intro hhi hhhi
    dsimp only at hhhi
    split at hhhi
    · cases hhhi
      have hpercent : ratio ((descending (byOwner accounts)).take 1).sum supply / 100 =
          topSum 1 (byOwner accounts) / supply := by
        rw [ratio, topSum]
        ring
      have hbounds := sum_squares_bounds hsupply hnonneg
        ((sum_byOwner accounts).trans_le hsum)
      have hsorted := ((descending_perm (byOwner accounts)).map
        fun value => (value / supply) ^ 2).sum_eq
      rw [← hsorted, ← hpercent] at hbounds
      exact ⟨_, rfl, hbounds⟩
    · cases hhhi

/-- A pool, a creator with two accounts, and an account of no known owner. -/
def fourAccounts : List HolderAccountFact :=
  [⟨"a", some "pool", 40, true, false, some "pool", by norm_num, fun _ => rfl⟩,
    ⟨"b", some "creator", 20, false, true, none, by norm_num, fun h => by cases h⟩,
    ⟨"c", some "creator", 15, false, true, none, by norm_num, fun h => by cases h⟩,
    ⟨"d", none, 5, false, false, none, by norm_num, fun h => by cases h⟩]

theorem four_accounts_coherent :
    Coherent (buildHolderMetrics fourAccounts (some 100) (some 3) .fullDistribution) ∧
      ∀ accounts', Regrouped fourAccounts accounts' →
        buildHolderMetrics accounts' (some 100) (some 3) .fullDistribution =
          buildHolderMetrics fourAccounts (some 100) (some 3) .fullDistribution :=
  holder_concentration_coherent fourAccounts 100 (by norm_num) (by norm_num [fourAccounts]) _ _

end PumpResearch.SecurityEnrichment
