import PumpResearch.Library.PythonText
import PumpResearch.Library.Results
import PumpResearch.Library.RowGroups

/-! The batches of token addresses that `fetch_token_pairs` requests. -/
namespace PumpResearch.MarketData

open PythonText Results RowGroups Utf8

/-! ### Definitions -/

/-- How `fetch_token_pairs` raises: itself, or with the failure of a request. -/
inductive FetchFailure (ε : Type) where
  | value (message : String)
  | request (failure : ε)
deriving DecidableEq

def tokenBatchLimit : Nat := 30

/-- `_chunked`. -/
def chunked (values : List Text) (size : Nat) : List (List Text) := blocks size values

/-- One round of the loop of `_deduplicated_addresses`, over the keys of its dictionary. -/
def addAddress {ε : Type} (unique : List Text) (address : Text) :
    Except (FetchFailure ε) (List Text) :=
  let normalized := strip address
  if normalized = [] then .error (.value "DEX Screener token addresses must be non-empty")
  else .ok (if normalized ∈ unique then unique else unique ++ [normalized])

/-- `_deduplicated_addresses`. -/
def deduplicatedAddresses {ε : Type} (addresses : List Text) :
    Except (FetchFailure ε) (List Text) := do
  let unique ← addresses.foldlM addAddress []
  if unique = [] then throw (.value "At least one token address is required")
  return unique

/-- `DexScreenerTokenPairsResult`, over the results of its batches. -/
structure TokenPairsResult (ρ : Type) where
  chainId : Text
  requestedAddresses : List Text
  batches : List ρ

/-- What a call has requested, batch by batch, and how it ends. -/
structure FetchRun (ε ρ : Type) where
  requested : List (List Text)
  result : Except (FetchFailure ε) ρ

section Fetch

variable {ε ρ : Type} (fetchBatch : Nat → List Text → Except ε ρ)

/-- The loop over the batches. A request that fails ends it; `fetchBatch` tells how the request of
each number ends. -/
def fetchBatches : Nat → List (List Text) → FetchRun ε (List ρ)
  | _, [] => ⟨[], .ok []⟩
  | i, batch :: rest =>
    match fetchBatch i batch with
    | .error failure => ⟨[batch], .error (.request failure)⟩
    | .ok result =>
      let run := fetchBatches (i + 1) rest
      ⟨batch :: run.requested, run.result.map (result :: ·)⟩

/-- `DexScreenerClient.fetch_token_pairs`. -/
def fetchTokenPairs (chainId : Text) (tokenAddresses : List Text) :
    FetchRun ε (TokenPairsResult ρ) :=
  if strip chainId = [] then ⟨[], .error (.value "chain_id must be non-empty")⟩
  else
    match deduplicatedAddresses tokenAddresses with
    | .error failure => ⟨[], .error failure⟩
    | .ok addresses =>
      let run := fetchBatches fetchBatch 0 (chunked addresses tokenBatchLimit)
      ⟨run.requested, run.result.map fun batches => ⟨chainId, addresses, batches⟩⟩

end Fetch

/-! ### Addresses -/

section Addresses

variable {ε : Type}

theorem addAddress_eq_ok {unique next : List Text} {address : Text} :
    (addAddress unique address : Except (FetchFailure ε) (List Text)) = .ok next ↔
      strip address ≠ [] ∧
        next = if strip address ∈ unique then unique else unique ++ [strip address] := by
  rw [addAddress]
  split
  · next h =>
    constructor
    · intro herror
      cases herror
    · intro hok
      exact absurd h hok.1
  · next h =>
    constructor
    · intro hok
      exact ⟨h, (Except.ok.inj hok).symm⟩
    · intro hok
      rw [hok.2]

theorem eraseDups_concat (l : List Text) (a : Text) :
    (l ++ [a]).eraseDups = if a ∈ l.eraseDups then l.eraseDups else l.eraseDups ++ [a] := by
  rw [List.eraseDups_append]
  by_cases h : a ∈ l
  · rw [if_pos (List.mem_eraseDups.mpr h), List.removeAll,
      List.filter_cons_of_neg (by simpa using h)]
    exact List.append_nil _
  · rw [if_neg fun hmem => h (List.mem_eraseDups.mp hmem), List.removeAll,
      List.filter_cons_of_pos (by simpa using h)]
    rfl

/-- The loop keeps first occurrences, and ends if no address is blank. -/
theorem foldlM_addAddress (addresses next : List Text) :
    (addresses.foldlM addAddress [] : Except (FetchFailure ε) (List Text)) = .ok next ↔
      (∀ address ∈ addresses, strip address ≠ []) ∧ next = (addresses.map strip).eraseDups := by
  induction addresses using List.reverseRecOn generalizing next with
  | nil =>
    rw [List.foldlM_nil, pure_eq_ok]
    exact ⟨fun h => ⟨by simp, h.symm⟩, fun h => h.2.symm⟩
  | append_singleton addresses address ih =>
    rw [foldlM_concat, List.map_append, List.map_singleton, eraseDups_concat]
    constructor
    · intro ⟨mid, hmid, hadd⟩
      obtain ⟨hall, rfl⟩ := (ih mid).mp hmid
      obtain ⟨hblank, hnext⟩ := addAddress_eq_ok.mp hadd
      refine ⟨?_, hnext⟩
      intro a ha
      cases List.mem_append.mp ha with
      | inl ha => exact hall a ha
      | inr ha => exact List.mem_singleton.mp ha ▸ hblank
    · intro ⟨hall, hnext⟩
      have hbefore : ∀ a ∈ addresses, strip a ≠ [] := fun a ha => hall a (List.mem_append_left _ ha)
      have hlast := hall address (List.mem_append_right _ List.mem_cons_self)
      exact ⟨_, (ih _).mpr ⟨hbefore, rfl⟩, addAddress_eq_ok.mpr ⟨hlast, hnext⟩⟩

theorem eraseDups_eq_nil {l : List Text} : l.eraseDups = [] ↔ l = [] := by
  cases l with
  | nil => simp
  | cons a l => simp [List.eraseDups_cons]

theorem deduplicatedAddresses_eq_ok {addresses unique : List Text} :
    (deduplicatedAddresses addresses : Except (FetchFailure ε) (List Text)) = .ok unique ↔
      addresses ≠ [] ∧ (∀ address ∈ addresses, strip address ≠ []) ∧
        unique = (addresses.map strip).eraseDups := by
  rw [deduplicatedAddresses, bind_eq_ok]
  constructor
  · intro ⟨mid, hmid, hrest⟩
    obtain ⟨hall, rfl⟩ := (foldlM_addAddress addresses mid).mp hmid
    obtain ⟨hne, hunique⟩ := guard_eq_ok.mp hrest
    refine ⟨?_, hall, (pure_eq_ok.mp hunique).symm⟩
    intro hnil
    rw [hnil] at hne
    exact hne rfl
  · intro ⟨hne, hall, hunique⟩
    refine ⟨_, (foldlM_addAddress addresses _).mpr ⟨hall, rfl⟩, guard_eq_ok.mpr ⟨?_, ?_⟩⟩
    · rw [eraseDups_eq_nil, List.map_eq_nil_iff]
      exact hne
    · rw [hunique]
      rfl

end Addresses

/-! ### Requests -/

section Requests

variable {ε ρ : Type}

/-- The batches are requested in order: all of them, or up to the first that fails. -/
theorem fetchBatches_requested (fetchBatch : Nat → List Text → Except ε ρ)
    (batches : List (List Text)) (start : Nat) :
    (∃ results, (fetchBatches fetchBatch start batches).result = .ok results ∧
      (fetchBatches fetchBatch start batches).requested = batches) ∨
    ∃ i batch failure, batches[i]? = some batch ∧
      fetchBatch (start + i) batch = .error failure ∧
      (fetchBatches fetchBatch start batches).result = .error (.request failure) ∧
      (fetchBatches fetchBatch start batches).requested = batches.take (i + 1) := by
  induction batches generalizing start with
  | nil => exact .inl ⟨[], rfl, rfl⟩
  | cons batch rest ih =>
    rw [fetchBatches]
    cases hbatch : fetchBatch start batch with
    | error failure => exact .inr ⟨0, batch, failure, rfl, hbatch, rfl, rfl⟩
    | ok result =>
      cases ih (start + 1) with
      | inl hall =>
        obtain ⟨results, hresult, hrequested⟩ := hall
        exact .inl ⟨result :: results, by simp only [hresult]; rfl, by simp only [hrequested]⟩
      | inr hfailed =>
        obtain ⟨i, failed, failure, hget, hfailure, hresult, hrequested⟩ := hfailed
        refine .inr ⟨i + 1, failed, failure, hget, ?_, by simp only [hresult]; rfl, ?_⟩
        · rw [← hfailure, Nat.add_assoc, Nat.add_comm 1 i]
        · simp only [hrequested, List.take_succ_cons]

/-- The batches of a list of addresses. -/
structure BatchesOf (addresses : List Text) (batches : List (List Text)) : Prop where
  flatten : batches.flatten = (addresses.map strip).eraseDups
  length : ∀ batch ∈ batches, 1 ≤ batch.length ∧ batch.length ≤ 30
  full : ∀ batch ∈ batches.dropLast, batch.length = 30

theorem batchesOf_chunked (addresses : List Text) :
    BatchesOf addresses (chunked (addresses.map strip).eraseDups tokenBatchLimit) where
  flatten := flatten_blocks (by decide) _
  length _ h := length_of_mem_blocks h
  full _ h := length_of_mem_dropLast_blocks h

/-- A call raises before any request exactly for a blank chain, no address or a blank address.
Otherwise it requests the batches in order, all of them unless one fails. -/
theorem fetchTokenPairs_requests (fetchBatch : Nat → List Text → Except ε ρ) (chainId : Text)
    (addresses : List Text) :
    let run := fetchTokenPairs fetchBatch chainId addresses
    let refused := strip chainId = [] ∨ addresses = [] ∨ ∃ address ∈ addresses, strip address = []
    ((run.requested = [] ∧ ∃ failure, run.result = .error failure) ↔ refused) ∧
    (¬ refused → ∃ batches, BatchesOf addresses batches ∧
      ((∃ result, run.result = .ok result ∧ run.requested = batches) ∨
        ∃ i batch failure, batches[i]? = some batch ∧ fetchBatch i batch = .error failure ∧
          run.result = .error (.request failure) ∧ run.requested = batches.take (i + 1))) := by
  intro run refused
  have hdone : ¬ refused → ∃ batches, batches ≠ [] ∧ BatchesOf addresses batches ∧
      ((∃ result, run.result = .ok result ∧ run.requested = batches) ∨
        ∃ i batch failure, batches[i]? = some batch ∧ fetchBatch i batch = .error failure ∧
          run.result = .error (.request failure) ∧ run.requested = batches.take (i + 1)) := by
    intro h
    obtain ⟨hchain, haddresses⟩ := not_or.mp h
    obtain ⟨hne, hblank⟩ := not_or.mp haddresses
    have hok := (deduplicatedAddresses_eq_ok (ε := ε)).mpr
      ⟨hne, fun a ha hnil => hblank ⟨a, ha, hnil⟩, rfl⟩
    have hrun : run = ⟨(fetchBatches fetchBatch 0
          (chunked (addresses.map strip).eraseDups tokenBatchLimit)).requested,
        (fetchBatches fetchBatch 0
          (chunked (addresses.map strip).eraseDups tokenBatchLimit)).result.map
          fun batches => ⟨chainId, (addresses.map strip).eraseDups, batches⟩⟩ := by
      simp only [run, fetchTokenPairs, if_neg hchain, hok]
    have hbatches := batchesOf_chunked addresses
    refine ⟨_, ?_, hbatches, ?_⟩
    · intro hnil
      have hflatten := hbatches.flatten
      rw [hnil, List.flatten_nil, eq_comm, eraseDups_eq_nil, List.map_eq_nil_iff] at hflatten
      exact hne hflatten
    · cases fetchBatches_requested fetchBatch
        (chunked (addresses.map strip).eraseDups tokenBatchLimit) 0 with
      | inl hall =>
        obtain ⟨results, hresult, hrequested⟩ := hall
        exact .inl ⟨_, by rw [hrun, hresult]; rfl, by rw [hrun, hrequested]⟩
      | inr hfailed =>
        obtain ⟨i, batch, failure, hget, hfailure, hresult, hrequested⟩ := hfailed
        rw [Nat.zero_add] at hfailure
        exact .inr ⟨i, batch, failure, hget, hfailure, by rw [hrun, hresult]; rfl,
          by rw [hrun, hrequested]⟩
  refine ⟨⟨?_, ?_⟩, ?_⟩
  · intro ⟨hrequested, failure, hresult⟩
    by_contra hrefused
    obtain ⟨batches, hne, _, hrun⟩ := hdone hrefused
    cases hrun with
    | inl hall =>
      obtain ⟨_, _, hall⟩ := hall
      exact hne (hall.symm.trans hrequested)
    | inr hfailed =>
      obtain ⟨i, batch, _, hget, _, _, htake⟩ := hfailed
      rw [hrequested, eq_comm, List.take_eq_nil_iff] at htake
      exact htake.elim (by omega) hne
  · intro hrefused
    by_cases hchain : strip chainId = []
    · exact ⟨by simp only [run, fetchTokenPairs, if_pos hchain], _,
        by simp only [run, fetchTokenPairs, if_pos hchain]; rfl⟩
    · have haddresses := hrefused.resolve_left hchain
      cases hunique : (deduplicatedAddresses addresses : Except (FetchFailure ε) (List Text)) with
      | error failure =>
        exact ⟨by simp only [run, fetchTokenPairs, if_neg hchain, hunique], failure,
          by simp only [run, fetchTokenPairs, if_neg hchain, hunique]⟩
      | ok unique =>
        obtain ⟨hne, hall, _⟩ := deduplicatedAddresses_eq_ok.mp hunique
        obtain ⟨a, ha, hblank⟩ := haddresses.resolve_left hne
        exact absurd hblank (hall a ha)
  · intro hrefused
    obtain ⟨batches, _, hbatches, hrun⟩ := hdone hrefused
    exact ⟨batches, hbatches, hrun⟩

/-- A blank chain raises for good addresses, and behind a request that fails the addresses are not
requested. -/
theorem addresses_not_requested :
    (fetchTokenPairs (fun _ _ => (.ok () : Except Unit Unit)) (text " ") [text "a"]).requested = [] ∧
    (fetchTokenPairs (fun _ _ => (.ok () : Except Unit Unit)) (text " ") [text "a"]).result.isOk =
      false ∧
    strip (text "a") ≠ [] ∧
    (fetchTokenPairs (fun _ _ => (.error () : Except Unit Unit)) (text "solana")
        ((List.range 31).map fun n => List.replicate (n + 1) 97)).requested.flatten =
      (List.range 30).map fun n => List.replicate (n + 1) 97 := by
  decide +kernel

end Requests

end PumpResearch.MarketData
