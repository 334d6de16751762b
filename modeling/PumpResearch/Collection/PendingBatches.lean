import PumpResearch.Collection.AvailabilityRuns
import PumpResearch.Discovery.MessageOutcomes
import PumpResearch.MarketData.TokenPairBatches

/-! A claimed batch and the client that answers it. The client asks for trimmed addresses, the
workflow compares them with the claimed ones: one address with outer whitespace fails the batch. -/
namespace PumpResearch.Collection
open Discovery KeyedOrder KeyedTable MarketData PythonJson PythonText Results RowGroups Runs Utf8

/-! ### The client -/

/-- An answer that `DexScreenerClient` parses. -/
structure ProviderAnswer where
  pairs : List DexPair
  receivedAt : Int
  rawResponse : List JsonValue
  attemptCount : Nat

/-- `_fetch_batch`, when the provider answers. -/
def answerBatch (chain : Text) (answer : ProviderAnswer) (_ : Nat) (addresses : List Text) :
    Except Empty DexBatchResult :=
  .ok {
    chainId := chain
    requestedAddresses := addresses
    pairs := answer.pairs
    receivedAt := answer.receivedAt
    rawResponse := answer.rawResponse
    attemptCount := answer.attemptCount }

/-- `fetch_token_pairs`, as the workflow calls it. -/
def fetchAnswer (chain : Text) (addresses : List Text) (answer : ProviderAnswer) :
    Except FetchError TokenPairsResult :=
  match (fetchTokenPairs (answerBatch chain answer) chain addresses).result with
  | .ok result => .ok ⟨result.chainId, result.requestedAddresses, result.batches⟩
  | .error (.value message) => .error ⟨"ValueError", message, none, 1⟩

/-! ### Completion -/

section Completion
variable (check : BatchCheck) (schedule : DexAvailabilityClaim → Option AvailabilityError)
  (claims : List DexAvailabilityClaim) (answer : ProviderAnswer)

/-- `_check_claim_batch` with the schedules of its promoted tokens, which are set in the same
transaction: `schedule` tells how setting one raises. -/
def checkAndSchedule (fetched : Except FetchError TokenPairsResult) (store : AvailabilityStore) :
    Except AvailabilityError AvailabilityStore :=
  match matchedAnswer check claims fetched with
  | .error error => recordFailedBatch check claims error store
  | .ok batch => do
    let recorded ← recordAnsweredBatch check claims batch store
    match (presentClaims check claims batch).findSome? schedule with
    | some error => throw error
    | none => return recorded

/-- A claimed token with a pair is new, one without is pending with one more attempt, and every
other task is as it was. -/
def settledTask (batch : DexBatchResult) (task : DexAvailabilityTask) : DexAvailabilityTask :=
  match claims.find? (·.tokenId = task.tokenId) with
  | none => task
  | some claim =>
    if Present check batch claim then
      completedTask batch.receivedAt .new batch.receivedAt task
    else
      completedTask batch.receivedAt .pendingDex (batch.receivedAt + check.retryInterval) task

/-- The check ends on its success path, whatever it is asked for. -/
def Completes (store : AvailabilityStore) : Prop :=
  ∃ batch store', batch.pairs = answer.pairs ∧ batch.receivedAt = answer.receivedAt ∧
    matchedAnswer check claims (fetchAnswer check.chain (claims.map (·.address)) answer) =
      .ok batch ∧
    checkAndSchedule check schedule claims
      (fetchAnswer check.chain (claims.map (·.address)) answer) store = .ok store' ∧
    store'.tasks.rows = store.tasks.rows.map (settledTask check claims batch)

/-- The claims hold their tasks under the lease of the check. -/
def Held (store : AvailabilityStore) : Prop :=
  ∀ claim ∈ claims, ∃ task ∈ store.tasks.rows, task.tokenId = claim.tokenId ∧
    task.leaseId = some check.leaseId ∧ task.state = .pendingDex

/-- The addresses are as the client asks for them, the request row stores the answer, the lease
still holds, and every token that has a pair can be scheduled. -/
structure Settleable (store : AvailabilityStore) : Prop where
  trimmed : ∀ claim ∈ claims, strip claim.address = claim.address
  storable : jsonbFailure (.list answer.rawResponse) = none
  held : Held check claims store
  scheduled : ∀ claim ∈ claims, matchingPairs answer.pairs check.chain claim.address ≠ [] →
    schedule claim = none

end Completion

/-! ### Addresses -/

section Addresses
variable {chain : Text} {addresses : List Text}

theorem length_eraseDups_le (l : List Text) : l.eraseDups.length ≤ l.length := by
  induction l using List.reverseRecOn with
  | nil => exact le_rfl
  | append_singleton l a ih =>
    rw [eraseDups_concat]
    split
    · rw [List.length_append]
      omega
    · rw [List.length_append, List.length_append]
      omega

theorem eraseDups_of_nodup {l : List Text} (h : l.Nodup) : l.eraseDups = l := by
  induction l using List.reverseRecOn with
  | nil => rfl
  | append_singleton l a ih =>
    obtain ⟨hl, _, hdisjoint⟩ := List.nodup_append.mp h
    rw [eraseDups_concat, ih hl, if_neg]
    exact fun hmem => hdisjoint a hmem a List.mem_cons_self rfl

/-- The answer to at most one batch of addresses. -/
theorem fetchAnswer_eq (answer : ProviderAnswer) (hchain : strip chain ≠ []) (hne : addresses ≠ [])
    (hsolid : ∀ address ∈ addresses, strip address ≠ []) (hlength : addresses.length ≤ 30) :
    fetchAnswer chain addresses answer =
      .ok ⟨chain, (addresses.map strip).eraseDups,
        [⟨chain, (addresses.map strip).eraseDups, answer.pairs, answer.receivedAt,
          answer.rawResponse, answer.attemptCount⟩]⟩ := by
  have hunique : (deduplicatedAddresses addresses : Except (FetchFailure Empty) (List Text)) =
      .ok (addresses.map strip).eraseDups :=
    deduplicatedAddresses_eq_ok.mpr ⟨hne, hsolid, rfl⟩
  have hone : chunked (addresses.map strip).eraseDups tokenBatchLimit =
      [(addresses.map strip).eraseDups] := by
    refine blocks_of_length_le ?_ ?_
    · rw [Ne, eraseDups_eq_nil, List.map_eq_nil_iff]
      exact hne
    · have hle := length_eraseDups_le (addresses.map strip)
      rw [List.length_map] at hle
      exact hle.trans hlength
  unfold fetchAnswer fetchTokenPairs
  rw [if_neg hchain, hunique]
  simp only [hone]
  rfl

end Addresses

/-! ### Batches -/

section Batch
variable {check : BatchCheck} {schedule : DexAvailabilityClaim → Option AvailabilityError}
  {claims : List DexAvailabilityClaim} {batch : DexBatchResult}
  {fetched : Except FetchError TokenPairsResult} {store store' : AvailabilityStore}

/-- Tasks that the lease holds are completed. -/
theorem completeTasks_of_held {tokenIds : List Uuid} {leaseId : Uuid}
    {checkedAt nextCheckAt : Int} {nextState : AvailabilityState} (hnodup : tokenIds.Nodup)
    (hheld : ∀ tokenId ∈ tokenIds, ∃ task ∈ store.tasks.rows, task.tokenId = tokenId ∧
      task.leaseId = some leaseId ∧ task.state = .pendingDex) :
    ∃ store', completeTasks tokenIds leaseId checkedAt nextState nextCheckAt store = .ok store' := by
  unfold completeTasks
  split
  · exact ⟨_, rfl⟩
  · have hperm : ((store.tasks.rows.filter (OwnedBy tokenIds leaseId ·)).map
        DexAvailabilityTask.tokenId).Perm tokenIds := by
      refine (List.perm_ext_iff_of_nodup ((List.filter_sublist.map _).nodup store.tasks.nodup)
        hnodup).mpr fun tokenId => ?_
      rw [List.mem_map]
      constructor
      · intro ⟨task, htask, heq⟩
        rw [← heq]
        exact (of_decide_eq_true (List.mem_filter.mp htask).2).1
      · intro htoken
        obtain ⟨task, htask, heq, howned⟩ := hheld tokenId htoken
        exact ⟨task, List.mem_filter.mpr ⟨htask, decide_eq_true ⟨heq ▸ htoken, howned⟩⟩, heq⟩
    have hlength := hperm.length_eq
    rw [List.length_map] at hlength
    exact ⟨_, if_neg (not_not.mpr hlength)⟩

/-- What the two completions of an answered batch do to the tasks. -/
theorem recordAnsweredBatch_rows (hnodup : (claims.map (·.tokenId)).Nodup)
    (h : recordAnsweredBatch check claims batch store = .ok store') :
    store'.tasks.rows = store.tasks.rows.map (settledTask check claims batch) := by
  simp only [recordAnsweredBatch, bind_eq_ok, pure_eq_ok] at h
  obtain ⟨requested, hrequested, retried, hretried, promoted, hpromoted, rfl⟩ := h
  obtain ⟨requests, rfl⟩ := recordRequest_eq_ok hrequested
  have hfirst := (completeTasks_eq_ok hretried).2.2.2
  have hsecond := (completeTasks_eq_ok hpromoted).2.2.2
  show promoted.tasks.rows = _
  rw [hsecond]
  show retried.tasks.rows.map _ = _
  rw [hfirst, List.map_map]
  apply List.map_congr_left
  intro task _
  have hmem (picked : List DexAvailabilityClaim) : task.tokenId ∈ picked.map (·.tokenId) ↔
      ∃ claim ∈ picked, claim.tokenId = task.tokenId := List.mem_map
  unfold settledTask
  cases hfound : claims.find? (·.tokenId = task.tokenId) with
  | none =>
    have hnone : ∀ claim ∈ claims, claim.tokenId ≠ task.tokenId := by
      simpa [List.find?_eq_none] using hfound
    have habsent : task.tokenId ∉ (absentClaims check claims batch).map (·.tokenId) := by
      rw [hmem]
      intro ⟨claim, hclaim, heq⟩
      exact hnone claim (mem_claims_of_absent hclaim) heq
    have hpresent : task.tokenId ∉ (presentClaims check claims batch).map (·.tokenId) := by
      rw [hmem]
      intro ⟨claim, hclaim, heq⟩
      exact hnone claim (mem_claims_of_present hclaim) heq
    simp only [Function.comp_apply, if_neg habsent, if_neg hpresent]
  | some claim =>
    have hclaim := List.mem_of_find?_eq_some hfound
    have heq : claim.tokenId = task.tokenId := by simpa using List.find?_some hfound
    by_cases hpair : Present check batch claim
    · have hpicked : claim ∈ presentClaims check claims batch :=
        List.mem_filter.mpr ⟨hclaim, decide_eq_true hpair⟩
      have hpresent : task.tokenId ∈ (presentClaims check claims batch).map (·.tokenId) :=
        (hmem _).mpr ⟨claim, hpicked, heq⟩
      have habsent : task.tokenId ∉ (absentClaims check claims batch).map (·.tokenId) := by
        rw [hmem]
        intro ⟨other, hother, hsame⟩
        exact absent_ne_present hnodup hother hpicked (hsame.trans heq.symm)
      simp only [Function.comp_apply, if_neg habsent, if_pos hpresent, if_pos hpair]
    · have hpicked : claim ∈ absentClaims check claims batch :=
        List.mem_filter.mpr ⟨hclaim, decide_eq_true hpair⟩
      have habsent : task.tokenId ∈ (absentClaims check claims batch).map (·.tokenId) :=
        (hmem _).mpr ⟨claim, hpicked, heq⟩
      have hpresent : task.tokenId ∉ (presentClaims check claims batch).map (·.tokenId) := by
        rw [hmem]
        intro ⟨other, hother, hsame⟩
        exact absent_ne_present hnodup hpicked hother (heq.trans hsame.symm)
      have hkey : (completedTask batch.receivedAt .pendingDex
          (batch.receivedAt + check.retryInterval) task).tokenId = task.tokenId := rfl
      simp only [Function.comp_apply, if_pos habsent, hkey, if_neg hpresent, if_neg hpair]

theorem recordRequest_of_storable {request : CheckRequest} {payload : List JsonValue}
    (hpayload : request.responsePayload = some payload)
    (hstorable : jsonbFailure (.list payload) = none) :
    ∃ requests, recordRequest request store = .ok { store with requests } := by
  refine ⟨store.requests.insertNew request, ?_⟩
  simp only [recordRequest, hpayload, Option.bind_some, hstorable]

/-- An answered batch commits exactly when the request row stores the answer and the lease
holds. -/
theorem recordAnsweredBatch_iff (hnodup : (claims.map (·.tokenId)).Nodup)
    (hsound : EventsSound store) (hmatched : matchedAnswer check claims fetched = .ok batch) :
    (∃ store', recordAnsweredBatch check claims batch store = .ok store') ↔
      jsonbFailure (.list batch.rawResponse) = none ∧ Held check claims store := by
  constructor
  · intro hrecorded
    obtain ⟨store', h⟩ := hrecorded
    constructor
    · simp only [recordAnsweredBatch, bind_eq_ok] at h
      obtain ⟨requested, hrequested, _⟩ := h
      unfold recordRequest at hrequested
      split at hrequested
      · cases hrequested
      · next hnone => exact hnone
    · have hcheck : checkClaimBatch check claims fetched store = .ok store' := by
        simp only [checkClaimBatch, hmatched]
        exact h
      have hcommitted := checkClaimBatch_committed hnodup hsound hcheck
      intro claim hclaim
      have hmem := (batchChecks_perm check claims fetched).mem_iff.mpr
        (List.mem_map.mpr ⟨claim, hclaim, rfl⟩)
      obtain ⟨done, hdone, heq⟩ := List.mem_map.mp hmem
      rw [← heq]
      exact hcommitted.owned done hdone
  · intro hready
    obtain ⟨hstorable, hheld⟩ := hready
    obtain ⟨requests, hrequested⟩ : ∃ requests, recordRequest
        (successfulRequest check claims batch) store = .ok { store with requests } :=
      recordRequest_of_storable rfl hstorable
    obtain ⟨retried, hretried⟩ : ∃ retried, completeTasks
        ((absentClaims check claims batch).map (·.tokenId)) check.leaseId batch.receivedAt
        .pendingDex (batch.receivedAt + check.retryInterval) { store with requests } =
          .ok retried := by
      refine completeTasks_of_held ((List.filter_sublist.map _).nodup hnodup) fun tokenId htoken => ?_
      obtain ⟨claim, hclaim, rfl⟩ := List.mem_map.mp htoken
      exact hheld claim (mem_claims_of_absent hclaim)
    obtain ⟨promoted, hpromoted⟩ : ∃ promoted, completeTasks
        ((presentClaims check claims batch).map (·.tokenId)) check.leaseId batch.receivedAt .new
        batch.receivedAt (recordLifecycle
          ((absentClaims check claims batch).map (retryEvent check batch)) retried) =
          .ok promoted := by
      refine completeTasks_of_held ((List.filter_sublist.map _).nodup hnodup) fun tokenId htoken => ?_
      obtain ⟨claim, hclaim, rfl⟩ := List.mem_map.mp htoken
      obtain ⟨task, htask, heq, howned⟩ := hheld claim (mem_claims_of_present hclaim)
      refine ⟨task, ?_, heq, howned⟩
      show task ∈ retried.tasks.rows
      rw [(completeTasks_eq_ok hretried).2.2.2]
      refine List.mem_map.mpr ⟨task, htask, if_neg fun hmem => ?_⟩
      obtain ⟨absent, habsent, hsame⟩ := List.mem_map.mp hmem
      exact absent_ne_present hnodup habsent hclaim (hsame.trans heq)
    exact ⟨_, by simp only [recordAnsweredBatch, hrequested, ok_bind, hretried, hpromoted]; rfl⟩

/-- The answer matches the claims exactly when their addresses are trimmed. -/
theorem matchedAnswer_iff (answer : ProviderAnswer) (batch : DexBatchResult)
    (hclaims : claims ≠ []) (hchain : strip check.chain ≠ [])
    (hsolid : ∀ claim ∈ claims, strip claim.address ≠ []) (hlength : claims.length ≤ 30)
    (hnodup : (claims.map (·.address)).Nodup) :
    matchedAnswer check claims (fetchAnswer check.chain (claims.map (·.address)) answer) =
        .ok batch ↔
      (∀ claim ∈ claims, strip claim.address = claim.address) ∧
        batch = ⟨check.chain, claims.map (·.address), answer.pairs, answer.receivedAt,
          answer.rawResponse, answer.attemptCount⟩ := by
  have hfetched := fetchAnswer_eq answer hchain
    (fun hnil => hclaims (List.map_eq_nil_iff.mp hnil)) (by simpa using hsolid) (by simpa using hlength)
  have htrimmed : ((claims.map (·.address)).map strip).eraseDups = claims.map (·.address) ↔
      ∀ claim ∈ claims, strip claim.address = claim.address := by
    constructor
    · intro heq claim hclaim
      have hmem : claim.address ∈ ((claims.map (·.address)).map strip).eraseDups := by
        rw [heq]
        exact List.mem_map.mpr ⟨claim, hclaim, rfl⟩
      obtain ⟨address, _, hstrip⟩ := List.mem_map.mp (List.mem_eraseDups.mp hmem)
      rw [← hstrip, strip_strip]
    · intro hall
      have hsame : (claims.map (·.address)).map strip = claims.map (·.address) := by
        rw [List.map_map]
        exact List.map_congr_left hall
      rw [hsame, eraseDups_of_nodup hnodup]
  rw [matchedAnswer, hfetched, ok_bind]
  simp only [validateBatchResult, not_true, false_or, ne_eq]
  by_cases hall : ∀ claim ∈ claims, strip claim.address = claim.address
  · rw [if_neg (not_not.mpr (htrimmed.mpr hall)), htrimmed.mpr hall]
    constructor
    · intro h
      exact ⟨hall, (Except.ok.inj h).symm⟩
    · intro h
      rw [h.2]
  · rw [if_pos fun heq => hall (htrimmed.mp heq)]
    exact iff_of_false (fun h => by cases h) fun h => hall h.1

end Batch

/-! ### Runs -/

/-- An admission is of a token of the stream, and a claim is of at most one batch. -/
def FromStream : AvailabilityAction → Prop
  | .admission _ event _ => ∃ py raw receivedAt,
    parseNewTokenMessage py raw receivedAt = .ok (some event)
  | .claim _ _ limit _ _ => limit ≤ tokenBatchLimit
  | .check _ _ | .lost => True

/-- The tokens come from the stream, and the claims of a lease are of its tokens. -/
structure StreamInvariant (s : AvailabilitySystem) : Prop extends AvailabilityInvariant s where
  parsed : ∀ token ∈ s.store.tokens.rows, token.chain = text "solana" ∧ strip token.address ≠ []
  claimedTokens : ∀ leaseId, ∀ claim ∈ s.claimed leaseId, ∃ token ∈ s.store.tokens.rows,
    token.id = claim.tokenId ∧ token.identity = (claim.chain, claim.address)
  claimedSize : ∀ leaseId, (s.claimed leaseId).length ≤ tokenBatchLimit

section Runs
variable {s : AvailabilitySystem}

theorem streamInvariant_empty : StreamInvariant emptySystem where
  toAvailabilityInvariant := availabilityInvariant_empty
  parsed _ h := by cases h
  claimedTokens _ _ h := by cases h
  claimedSize _ := Nat.zero_le _

/-- A parsed token has an address that is not blank. -/
theorem parsed_address {py : Python} {raw : RawMessage} {receivedAt : Int}
    {event : DiscoveredToken} (h : parseNewTokenMessage py raw receivedAt = .ok (some event)) :
    event.chain = text "solana" ∧ strip event.address ≠ [] := by
  obtain ⟨payload, parsed, sourceEventAt, _, _, htoken⟩ := parse_eq_token h
  unfold discoveredToken at htoken
  split at htoken
  · cases htoken
  · simp only at htoken
    split at htoken
    · split at htoken
      · cases htoken
      · next hnone =>
        cases htoken
        exact ⟨rfl, (blankField_eq_none_iff rfl rfl rfl).mp hnone⟩
    · cases htoken

/-- The claims of a lease are of stored tokens, as many as asked for at most. -/
theorem claims_of_claimDue {now : Int} {limit : Nat} {leaseDuration : Int} {leaseId : Uuid}
    {locked : List Uuid} {store store' : AvailabilityStore} {claims : List DexAvailabilityClaim}
    (h : claimDue now limit leaseDuration leaseId locked store = .ok (store', claims)) :
    claims.length ≤ limit ∧ ∀ claim ∈ claims, ∃ token ∈ store.tokens.rows,
      token.id = claim.tokenId ∧ token.identity = (claim.chain, claim.address) := by
  unfold claimDue at h
  split at h
  · cases h
  · split at h
    · cases h
    · cases h
      constructor
      · rw [List.length_map]
        exact List.length_take_le _ _
      · intro claim hclaim
        obtain ⟨row, hrow, rfl⟩ := List.mem_map.mp hclaim
        have hsorted := (mem_sortOn _ _ _).mp (List.mem_filter.mp (List.mem_of_mem_take hrow)).1
        obtain ⟨task, _, hjoin⟩ := List.mem_filterMap.mp (List.mem_filter.mp hsorted).1
        obtain ⟨token, htoken, heq⟩ := Option.map_eq_some_iff.mp hjoin
        subst heq
        exact ⟨token, List.mem_of_find?_eq_some htoken,
          by simpa using List.find?_some htoken, rfl⟩

/-- A claim holds its tasks. -/
theorem held_of_claimDue {now : Int} {limit : Nat} {leaseDuration : Int} {locked : List Uuid}
    {check : BatchCheck} {store store' : AvailabilityStore} {claims : List DexAvailabilityClaim}
    (h : claimDue now limit leaseDuration check.leaseId locked store = .ok (store', claims)) :
    Held check claims store' := by
  unfold claimDue at h
  split at h
  · cases h
  · split at h
    · cases h
    · cases h
      intro claim hclaim
      obtain ⟨row, hrow, rfl⟩ := List.mem_map.mp hclaim
      obtain ⟨hstored, hclaimable, _⟩ := mem_dueRows hrow
      have hleased : leasedTask check.leaseId (now + leaseDuration) now row.1 ∈
          (dueRows now limit locked store).map
            fun row => leasedTask check.leaseId (now + leaseDuration) now row.1 :=
        List.mem_map.mpr ⟨row, hrow, rfl⟩
      have hnodup : (((dueRows now limit locked store).map
          fun row => leasedTask check.leaseId (now + leaseDuration) now row.1).map
            DexAvailabilityTask.tokenId).Nodup := by
        rw [List.map_map]
        exact dueRows_nodup now limit locked store
      exact ⟨_, Table.mem_write_of_mem hnodup hleased hstored rfl, rfl, rfl, hclaimable.1⟩

theorem StreamInvariant.step (h : StreamInvariant s) {action : AvailabilityAction}
    (haction : FromStream action) : StreamInvariant (availabilityStep s action) := by
  have hbase := h.toAvailabilityInvariant.step action
  cases action with
  | admission drawn event runId =>
    obtain ⟨py, raw, receivedAt, hparse⟩ := haction
    simp only [availabilityStep] at hbase ⊢
    split at hbase
    · next hdrawn =>
      rw [if_pos hdrawn]
      exact h
    · next hdrawn =>
      rw [if_neg hdrawn]
      refine ⟨hbase, Table.forall_insertNew (parsed_address hparse) h.parsed, ?_, h.claimedSize⟩
      intro leaseId claim hclaim
      obtain ⟨token, htoken, hsame⟩ := h.claimedTokens leaseId claim hclaim
      exact ⟨token, Table.mem_insertNew_of_mem htoken, hsame⟩
  | claim leaseId now limit leaseDuration locked =>
    simp only [availabilityStep] at hbase ⊢
    by_cases hfresh : s.claimed leaseId ≠ []
    · rw [if_pos hfresh]
      exact h
    · rw [if_neg hfresh] at hbase ⊢
      cases hclaimed : claimDue now limit leaseDuration leaseId locked s.store with
      | error error => exact h
      | ok result =>
        obtain ⟨store, claims⟩ := result
        rw [hclaimed] at hbase
        obtain ⟨htokens, _⟩ := claimDue_eq_ok hclaimed
        obtain ⟨hsize, hnamed⟩ := claims_of_claimDue hclaimed
        refine ⟨hbase, ?_, ?_, ?_⟩
        · show ∀ token ∈ store.tokens.rows, _
          rw [htokens]
          exact h.parsed
        · show ∀ other, ∀ claim ∈ Function.update s.claimed leaseId claims other,
            ∃ token ∈ store.tokens.rows, _
          rw [htokens]
          intro other claim hclaim
          by_cases heq : other = leaseId
          · rw [heq, Function.update_self] at hclaim
            exact hnamed claim hclaim
          · rw [Function.update_of_ne heq] at hclaim
            exact h.claimedTokens other claim hclaim
        · intro other
          show (Function.update s.claimed leaseId claims other).length ≤ _
          by_cases heq : other = leaseId
          · rw [heq, Function.update_self]
            exact hsize.trans haction
          · rw [Function.update_of_ne heq]
            exact h.claimedSize other
  | check check fetched =>
    simp only [availabilityStep] at hbase ⊢
    by_cases hclaims : batchClaims s check = []
    · rw [if_pos hclaims]
      exact h
    · rw [if_neg hclaims] at hbase ⊢
      cases hchecked : checkClaimBatch check (batchClaims s check) fetched s.store with
      | error error => exact h
      | ok store =>
        rw [hchecked] at hbase
        have htokens := (checkClaimBatch_committed (batchClaims_nodup h.toAvailabilityInvariant
          check) h.sound hchecked).tokens
        refine ⟨hbase, ?_, ?_, h.claimedSize⟩
        · show ∀ token ∈ store.tokens.rows, _
          rw [htokens]
          exact h.parsed
        · show ∀ leaseId, ∀ claim ∈ s.claimed leaseId, ∃ token ∈ store.tokens.rows, _
          rw [htokens]
          exact h.claimedTokens
  | lost => exact h

/-- The addresses of a batch are different ones of the stream. -/
theorem StreamInvariant.batch (h : StreamInvariant s) (check : BatchCheck) :
    ((batchClaims s check).map (·.address)).Nodup ∧ (batchClaims s check).length ≤ 30 ∧
      ∀ claim ∈ batchClaims s check, check.chain = text "solana" ∧ strip claim.address ≠ [] := by
  have hnodup := batchClaims_nodup h.toAvailabilityInvariant check
  have htoken : ∀ claim ∈ batchClaims s check, ∃ token ∈ s.store.tokens.rows,
      token.id = claim.tokenId ∧ token.identity = (check.chain, claim.address) := by
    intro claim hclaim
    obtain ⟨hmem, hchain⟩ := List.mem_filter.mp hclaim
    rw [← of_decide_eq_true hchain]
    exact h.claimedTokens check.leaseId claim hmem
  refine ⟨?_, ?_, ?_⟩
  · refine List.Nodup.map_on (fun claim hclaim other hother heq => ?_) hnodup.of_map
    obtain ⟨token, hmem, hid, hidentity⟩ := htoken claim hclaim
    obtain ⟨token', hmem', hid', hidentity'⟩ := htoken other hother
    have hsame : token = token' :=
      s.store.tokens.eq_of_key_eq hmem hmem' (by rw [hidentity, hidentity', heq])
    exact List.inj_on_of_nodup_map hnodup hclaim hother (by rw [← hid, ← hid', hsame])
  · exact (List.length_filter_le _ _).trans (h.claimedSize check.leaseId)
  · intro claim hclaim
    obtain ⟨token, hmem, _, hidentity⟩ := htoken claim hclaim
    obtain ⟨hchain, haddress⟩ := Prod.mk.inj hidentity
    rw [← hchain, ← haddress]
    exact h.parsed token hmem

end Runs

/-- A claimed batch ends on its success path exactly when its addresses are trimmed, the answer can
be stored, the lease still holds and the tokens with a pair can be scheduled. -/
theorem claimed_batch_completes_iff (actions : List AvailabilityAction)
    (hstream : ∀ action ∈ actions, FromStream action) (check : BatchCheck)
    (schedule : DexAvailabilityClaim → Option AvailabilityError) (answer : ProviderAnswer) :
    let s := run availabilityStep emptySystem actions
    batchClaims s check ≠ [] →
      (Completes check schedule (batchClaims s check) answer s.store ↔
        Settleable check schedule (batchClaims s check) answer s.store) := by
  intro s hclaims
  have hinvariant : StreamInvariant s := invariant_run (I := StreamInvariant)
    (fun _ _ h hok => h.step hok) (steps_of_forall hstream) streamInvariant_empty
  obtain ⟨haddresses, hlength, hsolid⟩ := hinvariant.batch check
  obtain ⟨first, hfirst⟩ := List.exists_mem_of_ne_nil _ hclaims
  have hchain : strip check.chain ≠ [] := by
    rw [(hsolid first hfirst).1]
    decide
  have hnodup := batchClaims_nodup hinvariant.toAvailabilityInvariant check
  have hmatched (batch : DexBatchResult) := matchedAnswer_iff answer batch hclaims hchain
    (fun claim hclaim => (hsolid claim hclaim).2) hlength haddresses
  constructor
  · intro ⟨batch, store', hpairs, _, hok, hdone, _⟩
    obtain ⟨htrimmed, hbatch⟩ := (hmatched batch).mp hok
    simp only [checkAndSchedule, hok, bind_eq_ok] at hdone
    obtain ⟨recorded, hrecorded, hscheduled⟩ := hdone
    obtain ⟨hstorable, hheld⟩ :=
      (recordAnsweredBatch_iff hnodup hinvariant.sound hok).mp ⟨recorded, hrecorded⟩
    refine ⟨htrimmed, ?_, hheld, ?_⟩
    · rw [hbatch] at hstorable
      exact hstorable
    · split at hscheduled
      · cases hscheduled
      · next hnone =>
        intro claim hclaim hpair
        rw [List.findSome?_eq_none_iff] at hnone
        refine hnone claim (List.mem_filter.mpr ⟨hclaim, decide_eq_true ?_⟩)
        unfold Present
        rw [hpairs]
        exact hpair
  · intro h
    obtain ⟨batch, hbatch⟩ : ∃ batch : DexBatchResult, batch = ⟨check.chain,
        (batchClaims s check).map (·.address), answer.pairs, answer.receivedAt,
        answer.rawResponse, answer.attemptCount⟩ := ⟨_, rfl⟩
    have hok := (hmatched batch).mpr ⟨h.trimmed, hbatch⟩
    obtain ⟨recorded, hrecorded⟩ := (recordAnsweredBatch_iff hnodup hinvariant.sound hok).mpr
      ⟨by rw [hbatch]; exact h.storable, h.held⟩
    refine ⟨batch, recorded, by rw [hbatch], by rw [hbatch], hok, ?_,
      recordAnsweredBatch_rows hnodup hrecorded⟩
    have hnone : (presentClaims check (batchClaims s check) batch).findSome? schedule = none := by
      rw [List.findSome?_eq_none_iff]
      intro claim hclaim
      obtain ⟨hmem, hpresent⟩ := List.mem_filter.mp hclaim
      refine h.scheduled claim hmem ?_
      have hpair := of_decide_eq_true hpresent
      unfold Present at hpair
      rwa [hbatch] at hpair
    simp only [checkAndSchedule, hok, hrecorded, ok_bind, hnone]
    rfl

/-! ### A padded mint -/

/-- The creation of a token without a transaction. -/
def mintText (mint : String) : Text := text ("\x7b\"mint\":\"" ++ mint ++ "\"\x7d")

/-- An interpreter with the digests of the messages below and of their events. -/
def mintPython : Python where
  decodeDepth := 1000
  encodeDepth := 1000
  maxStrDigits := 4300
  sha256 bytes :=
    if bytes = encode (text "pumpportal:token_created: A") then
      hexDigest "d5fd8d5661559d35ea0b67e4a9826c18c769b1469712bf2d28760ea3ee3e1978"
        (by decide +kernel) (by decide +kernel)
    else if bytes = encode (text "pumpportal:token_created:B") then
      hexDigest "1211e7b8b4d7ce5621bfe911f1c2609deae02725940cbcd1d2612b5b23d05b4f"
        (by decide +kernel) (by decide +kernel)
    else if bytes = encode (mintText " A") then
      hexDigest "11793482d0433dda7f9062db80644ef7ac9e5e7673303c4718313b04d2e71266"
        (by decide +kernel) (by decide +kernel)
    else
      hexDigest "7a97ca7e97dbc8c1f7446e234bb375bc9305ab7d4b815fb29f2bf0c65d411edc"
        (by decide +kernel) (by decide +kernel)
  canonicalJson payload :=
    if payload.strings = [text "mint", text " A"] then encode (mintText " A")
    else encode (mintText "B")
  lower t := t
  isoformat _ := text "2026-09-07T08:45:18+00:00"
  fromIsoformat _ := none
  floatOfText _ := none
  fromTimestamp _ := none

def parsedMint (mint : String) : Option DiscoveredToken :=
  (parseNewTokenMessage mintPython (.text (mintText mint)) 0).toOption.join

/-- Mints of the stream, admitted and claimed at once. -/
def mintsClaimed (mints : List (Uuid × String)) : List AvailabilityAction :=
  (mints.filterMap fun mint => (parsedMint mint.2).map fun event =>
    .admission mint.1 event none) ++ [.claim 7 0 30 60000000 []]

theorem fromStream_mintsClaimed (mints : List (Uuid × String)) :
    ∀ action ∈ mintsClaimed mints, FromStream action := by
  intro action haction
  cases List.mem_append.mp haction with
  | inl hmint =>
    obtain ⟨mint, _, hmint⟩ := List.mem_filterMap.mp hmint
    obtain ⟨event, hevent, rfl⟩ := Option.map_eq_some_iff.mp hmint
    refine ⟨mintPython, .text (mintText mint.2), 0, ?_⟩
    unfold parsedMint at hevent
    cases hparse : parseNewTokenMessage mintPython (.text (mintText mint.2)) 0 with
    | error failure =>
      rw [hparse] at hevent
      cases hevent
    | ok result =>
      rw [hparse] at hevent
      exact congrArg Except.ok hevent
  | inr hclaim =>
    rw [List.mem_singleton.mp hclaim]
    exact le_rfl

def mintCheck : BatchCheck := ⟨7, text "solana", 0, 1, 30000000, none⟩

/-- One pair, of the mint without spaces. -/
def pairOfB : ProviderAnswer where
  pairs := [⟨some (text "solana"), some (text "B"), none⟩]
  receivedAt := 1
  rawResponse := [.dict [(text "chainId", .str (text "solana")),
    (text "baseToken", .dict [(text "address", .str (text "B"))])]]
  attemptCount := 1

/-- The mint alone is promoted. -/
theorem claimed_batch_completes_alone :
    Completes mintCheck (fun _ => none)
      (batchClaims (run availabilityStep emptySystem (mintsClaimed [(2, "B")])) mintCheck) pairOfB
      (run availabilityStep emptySystem (mintsClaimed [(2, "B")])).store := by
  refine (claimed_batch_completes_iff (mintsClaimed [(2, "B")])
    (fromStream_mintsClaimed _) mintCheck (fun _ => none) pairOfB ?_).mpr ⟨?_, ?_, ?_, ?_⟩
  · decide +kernel
  · decide +kernel
  · decide +kernel
  · unfold Held
    decide +kernel
  · exact fun _ _ _ => rfl

/-- Claimed together with a mint that begins with a space, it is not, though it has a pair. -/
theorem padded_mint_fails_batch :
    (∀ action ∈ mintsClaimed [(1, " A"), (2, "B")], FromStream action) ∧
    (∃ claim ∈ batchClaims (run availabilityStep emptySystem (mintsClaimed [(1, " A"), (2, "B")]))
        mintCheck, matchingPairs pairOfB.pairs mintCheck.chain claim.address ≠ []) ∧
    ¬ Completes mintCheck (fun _ => none)
      (batchClaims (run availabilityStep emptySystem (mintsClaimed [(1, " A"), (2, "B")])) mintCheck)
      pairOfB (run availabilityStep emptySystem (mintsClaimed [(1, " A"), (2, "B")])).store := by
  refine ⟨fromStream_mintsClaimed _, by decide +kernel, ?_⟩
  intro ⟨batch, _, _, _, hok, _⟩
  have herror : (matchedAnswer mintCheck
      (batchClaims (run availabilityStep emptySystem (mintsClaimed [(1, " A"), (2, "B")])) mintCheck)
      (fetchAnswer mintCheck.chain ((batchClaims (run availabilityStep emptySystem
        (mintsClaimed [(1, " A"), (2, "B")])) mintCheck).map (·.address)) pairOfB)).isOk = false := by
    decide +kernel
  rw [hok] at herror
  cases herror

end PumpResearch.Collection
