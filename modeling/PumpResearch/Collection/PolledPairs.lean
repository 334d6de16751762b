import PumpResearch.Collection.EnrichmentRecords
import PumpResearch.Collection.Observations
import PumpResearch.Library.Runs
import PumpResearch.Scheduling.Store

/-! The observations of polled batches. A pair belongs to the token it was first recorded for, and
a record of it is an observation of that token only. -/
namespace PumpResearch.Collection
open Discovery KeyedTable PythonText RelatedLists Results Runs Scheduling Utf8

/-! ### Pairs -/

structure Pair where
  id : Uuid
  tokenId : Uuid
  chain : Text
  address : Text
  dexIdentifier : Option Text

/-- The columns of `uq_pairs_chain_address`. -/
def Pair.identity (pair : Pair) : Text × Text := (pair.chain, pair.address)

inductive PollError where
  | tokenMismatch
  | data
  | integrity
  | observation (error : ObservationError)
deriving DecidableEq

def Pair.fits (pair : Pair) : Bool :=
  fitsText 32 (some pair.chain) && fitsText 128 (some pair.address) &&
    fitsText 128 pair.dexIdentifier

/-- `PairRepository.get_or_create`. Another pair may have the identifier that is drawn. -/
def getOrCreatePair (created : Pair) (pairs : Table Pair.identity) :
    Except PollError (Table Pair.identity × Pair) :=
  if created.fits then
    match pairs.find? created.identity with
    | some pair =>
      if pair.tokenId = created.tokenId then .ok (pairs, pair) else .error .tokenMismatch
    | none =>
      if pairs.rows.any (·.id = created.id) then .error .integrity
      else .ok (pairs.insertNew created, created)
  else .error .data

/-! ### Responses -/

section Responses
variable {Facts : Type}

/-- The fields of a `DexScreenerPair` that the workflow reads. Its market facts, with the digest of
its raw record, are passed on as they are. -/
structure PolledPair (Facts : Type) where
  chainId : Option Text
  pairAddress : Option Text
  dexId : Option Text
  baseToken : Option Text
  quoteToken : Option Text
  facts : Facts

structure BatchMember where
  tokenId : Uuid
  address : Text
deriving DecidableEq

/-- The answer to a claimed batch, and the identifiers that new pairs draw. -/
structure PollResponse (Facts : Type) where
  chain : Text
  members : List BatchMember
  requestId : Uuid
  receivedAt : Int
  pairs : List (PolledPair Facts)
  drawn : Text → Uuid

inductive NormalizationIssue where
  | oversizedPairIdentity (field : String) (length maxLength sourceIndex : Nat)
  | missingPairAddress (memberAddress : Text) (sourceIndex : Nat)
  | pairTokenMismatch (memberAddress pairAddress : Text) (sourceIndex : Nat)
deriving DecidableEq

/-- The market facts of an observation, and the index its locator names. -/
structure ObservedFacts (Facts : Type) where
  sourceIndex : Nat
  facts : Facts

structure NormalizedPair (Facts : Type) where
  tokenId : Uuid
  tokenAddress : Text
  pairId : Uuid
  pair : PolledPair Facts
  sourceIndex : Nat

structure ObservationBuildResult (Facts : Type) where
  creates : List (ObservationCreate (ObservedFacts Facts))
  observedTokenIds : Finset Uuid
  issues : List NormalizationIssue
  normalizedPairs : List (NormalizedPair Facts)

/-! ### Normalization -/

def PolledPair.identityFields (pair : PolledPair Facts) : List (String × Option Text × Nat) :=
  [("chainId", pair.chainId, 32), ("pairAddress", pair.pairAddress, 128),
    ("baseToken.address", pair.baseToken, 128), ("quoteToken.address", pair.quoteToken, 128)]

/-- The identity fields of a record that are too long. -/
def oversizedIssues (pair : PolledPair Facts) (sourceIndex : Nat) : List NormalizationIssue :=
  pair.identityFields.filterMap fun (field, value, maximum) =>
    (value.filter fun text => maximum < text.length).map fun text =>
      .oversizedPairIdentity field text.length maximum sourceIndex

def PolledPair.names (pair : PolledPair Facts) (chain address : Text) : Bool :=
  pair.chainId = some chain ∧ (pair.baseToken = some address ∨ pair.quoteToken = some address)

/-- `_pairs_for_address`. -/
def pairsForAddress (pairs : List (PolledPair Facts)) (chain address : Text) :
    List (PolledPair Facts × Nat) :=
  pairs.zipIdx.filter fun (pair, _) => pair.names chain address

/-- A member of the batch, and a record that names it. -/
structure Association (Facts : Type) where
  member : BatchMember
  pair : PolledPair Facts
  sourceIndex : Nat

/-- The pairs of indices that the two loops pass through. -/
def associations (response : PollResponse Facts) : List (Association Facts) :=
  response.members.flatMap fun member =>
    (pairsForAddress response.pairs response.chain member.address).map fun (pair, sourceIndex) =>
      ⟨member, pair, sourceIndex⟩

def createdPair (response : PollResponse Facts) (a : Association Facts) (address : Text) : Pair where
  id := response.drawn address
  tokenId := a.member.tokenId
  chain := response.chain
  address := address
  dexIdentifier := boundedNormalizedText a.pair.dexId 128

/-- `_observation_create`. -/
def NormalizedPair.observation (normalized : NormalizedPair Facts) :
    ObservationCreate (ObservedFacts Facts) :=
  ⟨normalized.pairId, none, ⟨normalized.sourceIndex, normalized.pair.facts⟩⟩

def Association.normalized (a : Association Facts) (stored : Pair) : NormalizedPair Facts :=
  ⟨a.member.tokenId, a.member.address, stored.id, a.pair, a.sourceIndex⟩

namespace ObservationBuildResult

def skip (build : ObservationBuildResult Facts) (issue : NormalizationIssue) :
    ObservationBuildResult Facts :=
  { build with issues := build.issues ++ [issue] }

def observe (build : ObservationBuildResult Facts) (normalized : NormalizedPair Facts) :
    ObservationBuildResult Facts :=
  { build with
    creates := build.creates ++ [normalized.observation]
    normalizedPairs := build.normalizedPairs ++ [normalized]
    observedTokenIds := insert normalized.tokenId build.observedTokenIds }

end ObservationBuildResult

/-- One round of the loops. -/
def associate (response : PollResponse Facts)
    (s : Table Pair.identity × ObservationBuildResult Facts) (a : Association Facts) :
    Except PollError (Table Pair.identity × ObservationBuildResult Facts) :=
  if oversizedIssues a.pair a.sourceIndex ≠ [] then .ok s
  else
    match a.pair.pairAddress with
    | none => .ok (s.1, s.2.skip (.missingPairAddress a.member.address a.sourceIndex))
    | some address =>
      match getOrCreatePair (createdPair response a address) s.1 with
      | .ok (pairs, stored) => .ok (pairs, s.2.observe (a.normalized stored))
      | .error .tokenMismatch =>
        .ok (s.1, s.2.skip (.pairTokenMismatch a.member.address address a.sourceIndex))
      | .error error => .error error

def oversizedRecords (response : PollResponse Facts) : List NormalizationIssue :=
  response.pairs.zipIdx.flatMap fun (pair, sourceIndex) => oversizedIssues pair sourceIndex

/-- `_observation_creates`. -/
def observationCreates (response : PollResponse Facts) (pairs : Table Pair.identity) :
    Except PollError (Table Pair.identity × ObservationBuildResult Facts) :=
  (associations response).foldlM (associate response)
    (pairs, ⟨[], ∅, oversizedRecords response, []⟩)

/-- `_coverage_outcome`. -/
def coverageOutcome (memberCount observedCount : Nat) (hasIssues : Bool) : PollOutcome :=
  if observedCount = 0 ∧ hasIssues = false then .empty
  else if observedCount = memberCount ∧ hasIssues = false then .succeeded
  else .partly

/-! ### Batches -/

structure PollStore (Facts : Type) where
  pairs : Table Pair.identity
  observations : ObservationStore (ObservedFacts Facts)

/-- A batch whose transaction committed. -/
structure PolledBatch (Facts : Type) where
  response : PollResponse Facts
  build : ObservationBuildResult Facts
  emptyAddresses : List Text
  outcome : PollOutcome
  inserted : Nat

variable (accepts : Observation (ObservedFacts Facts) → Bool)

/-- The transaction of `execute`, up to its lifecycle evaluation: the pairs and observations. -/
def pollBatch (response : PollResponse Facts) (store : PollStore Facts) :
    Except PollError (PollStore Facts × PolledBatch Facts) := do
  let (pairs, build) ← observationCreates response store.pairs
  let (observations, inserted) ← (recordMany accepts
    ⟨response.requestId, some response.receivedAt⟩ build.creates store.observations).mapError
      .observation
  return (⟨pairs, observations⟩,
    { response := response
      build := build
      emptyAddresses := (response.members.filter fun member =>
        member.tokenId ∉ build.observedTokenIds).map (·.address)
      outcome := coverageOutcome response.members.length build.observedTokenIds.card
        (!build.issues.isEmpty)
      inserted := inserted })

structure PollSystem (Facts : Type) where
  store : PollStore Facts
  polled : List (PolledBatch Facts)

def startPolling : PollSystem Facts := ⟨⟨.empty, .empty, []⟩, []⟩

/-- A response of a claimed batch: its transaction commits, or leaves nothing. -/
def pollStep (s : PollSystem Facts) (response : PollResponse Facts) : PollSystem Facts :=
  match pollBatch accepts response s.store with
  | .ok (store, batch) => ⟨store, s.polled ++ [batch]⟩
  | .error _ => s

/-! ### Ownership -/

/-- The pairs of a table are kept in another. -/
def Kept (pairs pairs' : Table Pair.identity) : Prop :=
  ∀ identity stored, pairs.find? identity = some stored → pairs'.find? identity = some stored

theorem Kept.trans {pairs pairs' pairs'' : Table Pair.identity} (h : Kept pairs pairs')
    (h' : Kept pairs' pairs'') : Kept pairs pairs'' :=
  fun identity stored hfound => h' identity stored (h identity stored hfound)

theorem Kept.mem {pairs pairs' : Table Pair.identity} (h : Kept pairs pairs') {stored : Pair}
    (hmem : stored ∈ pairs.rows) : stored ∈ pairs'.rows :=
  (Table.find?_eq_some_iff.mp (h _ _ (Table.find?_key hmem))).1

/-- What an association leaves, as the owner of its pair decides. -/
def Association.owner (a : Association Facts) (chain : Text) (pairs : Table Pair.identity) :
    Option Pair :=
  a.pair.pairAddress.bind fun address => pairs.find? (chain, address)

def Association.isOversized (a : Association Facts) : Bool :=
  !(oversizedIssues a.pair a.sourceIndex).isEmpty

def Association.normalized? (a : Association Facts) (chain : Text) (pairs : Table Pair.identity) :
    Option (NormalizedPair Facts) :=
  if a.isOversized then none
  else ((a.owner chain pairs).filter fun stored => stored.tokenId = a.member.tokenId).map
    a.normalized

def Association.issue? (a : Association Facts) (chain : Text) (pairs : Table Pair.identity) :
    Option NormalizationIssue :=
  if a.isOversized then none
  else
    match a.pair.pairAddress with
    | none => some (.missingPairAddress a.member.address a.sourceIndex)
    | some address => ((a.owner chain pairs).filter fun stored =>
        stored.tokenId ≠ a.member.tokenId).map
          fun _ => .pairTokenMismatch a.member.address address a.sourceIndex

/-- The pair of an association is known, unless the record is skipped. -/
def Association.Resolved (a : Association Facts) (chain : Text) (pairs : Table Pair.identity) :
    Prop :=
  a.isOversized = true ∨ a.pair.pairAddress = none ∨ (a.owner chain pairs).isSome = true

theorem Association.owner_kept {a : Association Facts} {chain : Text}
    {pairs pairs' : Table Pair.identity} (hkept : Kept pairs pairs')
    (h : (a.owner chain pairs).isSome = true) : a.owner chain pairs' = a.owner chain pairs := by
  obtain ⟨stored, hstored⟩ := Option.isSome_iff_exists.mp h
  rw [hstored]
  rw [owner, Option.bind_eq_some_iff] at hstored ⊢
  obtain ⟨address, haddress, hfound⟩ := hstored
  exact ⟨address, haddress, hkept _ _ hfound⟩

/-- Later pairs do not change what became of an association. -/
theorem Association.Resolved.kept {a : Association Facts} {chain : Text}
    {pairs pairs' : Table Pair.identity} (h : a.Resolved chain pairs) (hkept : Kept pairs pairs') :
    a.Resolved chain pairs' ∧ a.normalized? chain pairs' = a.normalized? chain pairs ∧
      a.issue? chain pairs' = a.issue? chain pairs := by
  cases h with
  | inl hoversized =>
    refine ⟨.inl hoversized, ?_, ?_⟩
    · rw [normalized?, normalized?, if_pos hoversized, if_pos hoversized]
    · rw [issue?, issue?, if_pos hoversized, if_pos hoversized]
  | inr h =>
    cases h with
    | inl haddress =>
      refine ⟨.inr (.inl haddress), ?_, ?_⟩
      · simp only [normalized?, owner, haddress, Option.bind_none]
      · simp only [issue?, haddress]
    | inr hknown =>
      have howner := owner_kept hkept hknown
      refine ⟨.inr (.inr (by rw [howner]; exact hknown)), ?_, ?_⟩
      · rw [normalized?, normalized?, howner]
      · rw [issue?, issue?, howner]

theorem getOrCreatePair_eq_ok {created stored : Pair} {pairs pairs' : Table Pair.identity}
    (h : getOrCreatePair created pairs = .ok (pairs', stored)) :
    Kept pairs pairs' ∧ pairs'.find? created.identity = some stored ∧
      stored.tokenId = created.tokenId ∧
      (∀ row ∈ pairs'.rows, row ∈ pairs.rows ∨ row = stored) ∧
      ((pairs.rows.map (·.id)).Nodup → (pairs'.rows.map (·.id)).Nodup) := by
  unfold getOrCreatePair at h
  split at h
  · split at h
    · next pair hfound =>
      split at h
      · next htoken =>
        cases h
        exact ⟨fun _ _ h => h, hfound, htoken, fun _ h => .inl h, fun h => h⟩
      · cases h
    · next hfound =>
      split at h
      · cases h
      · next hfree =>
        cases h
        have hrows := Table.rows_insertNew_of_find?_eq_none hfound
        refine ⟨?_, ?_, rfl, ?_, ?_⟩
        · intro identity pair hpair
          rw [Table.find?_insertNew, hpair]
          rfl
        · rw [Table.find?_insertNew, hfound]
          simp
        · intro row hrow
          rw [hrows] at hrow
          exact (List.mem_append.mp hrow).imp id List.mem_singleton.mp
        · intro hnodup
          rw [hrows, List.map_append, List.map_singleton]
          refine List.nodup_append.mpr ⟨hnodup, List.nodup_singleton _, ?_⟩
          intro id hid other hother heq
          obtain ⟨row, hrow, hrowId⟩ := List.mem_map.mp hid
          rw [List.mem_singleton] at hother
          exact hfree (List.any_eq_true.mpr ⟨row, hrow, decide_eq_true (by rw [hrowId, heq, hother])⟩)
  · cases h

theorem getOrCreatePair_mismatch {created : Pair} {pairs : Table Pair.identity}
    (h : getOrCreatePair created pairs = .error .tokenMismatch) :
    ∃ stored, pairs.find? created.identity = some stored ∧ stored.tokenId ≠ created.tokenId := by
  unfold getOrCreatePair at h
  split at h
  · split at h
    · next pair hfound =>
      split at h
      · cases h
      · next htoken => exact ⟨pair, hfound, htoken⟩
    · split at h
      · cases h
      · cases h
  · cases h

/-! ### What a batch records -/

/-- The build over the associations passed through so far. -/
structure Built (response : PollResponse Facts) (pairs : Table Pair.identity)
    (done : List (Association Facts))
    (s : Table Pair.identity × ObservationBuildResult Facts) : Prop where
  kept : Kept pairs s.1
  resolved : ∀ a ∈ done, a.Resolved response.chain s.1
  normalized : s.2.normalizedPairs = done.filterMap fun a => a.normalized? response.chain s.1
  issues : s.2.issues = oversizedRecords response ++
    done.filterMap fun a => a.issue? response.chain s.1
  creates : s.2.creates = s.2.normalizedPairs.map (·.observation)
  observed : s.2.observedTokenIds = (s.2.normalizedPairs.map (·.tokenId)).toFinset
  owners : ∀ row ∈ s.1.rows, row ∈ pairs.rows ∨
    ∃ normalized ∈ s.2.normalizedPairs, normalized.pairId = row.id
  ids : (pairs.rows.map (·.id)).Nodup → (s.1.rows.map (·.id)).Nodup

/-- What is built stays as the pairs grow. -/
theorem Built.congr {response : PollResponse Facts} {pairs pairs' : Table Pair.identity}
    {done : List (Association Facts)} {s : Table Pair.identity × ObservationBuildResult Facts}
    (h : Built response pairs done s) (hkept : Kept s.1 pairs') :
    done.filterMap (fun a => a.normalized? response.chain pairs') = s.2.normalizedPairs ∧
      oversizedRecords response ++ done.filterMap (fun a => a.issue? response.chain pairs') =
        s.2.issues := by
  rw [h.normalized, h.issues]
  constructor
  · exact List.filterMap_congr fun a ha => ((h.resolved a ha).kept hkept).2.1
  · exact congrArg _ (List.filterMap_congr fun a ha => ((h.resolved a ha).kept hkept).2.2)

theorem Built.skip {response : PollResponse Facts} {pairs : Table Pair.identity}
    {done : List (Association Facts)} {s : Table Pair.identity × ObservationBuildResult Facts}
    (h : Built response pairs done s) {a : Association Facts} (issues : List NormalizationIssue)
    (hresolved : a.Resolved response.chain s.1) (hnone : a.normalized? response.chain s.1 = none)
    (hissue : (a.issue? response.chain s.1).toList = issues) :
    Built response pairs (done ++ [a]) (s.1, { s.2 with issues := s.2.issues ++ issues }) where
  kept := h.kept
  resolved := List.forall_mem_append.mpr ⟨h.resolved, List.forall_mem_singleton.mpr hresolved⟩
  normalized := by
    have hlast : [a].filterMap (fun b => b.normalized? response.chain s.1) = [] := by simp [hnone]
    show s.2.normalizedPairs = _
    rw [List.filterMap_append, ← h.normalized, hlast, List.append_nil]
  issues := by
    have hlast : [a].filterMap (fun b => b.issue? response.chain s.1) = issues := by
      rw [← hissue]
      cases hfound : a.issue? response.chain s.1 with
      | none => simp [hfound]
      | some issue => simp [hfound]
    show s.2.issues ++ issues = _
    rw [List.filterMap_append, ← List.append_assoc, ← h.issues, hlast]
  creates := h.creates
  observed := h.observed
  owners := h.owners
  ids := h.ids

theorem Built.observe {response : PollResponse Facts} {pairs pairs' : Table Pair.identity}
    {done : List (Association Facts)} {s : Table Pair.identity × ObservationBuildResult Facts}
    (h : Built response pairs done s) {a : Association Facts} {stored : Pair} {address : Text}
    (haddress : a.pair.pairAddress = some address) (hfits : a.isOversized = false)
    (hstored : getOrCreatePair (createdPair response a address) s.1 = .ok (pairs', stored)) :
    Built response pairs (done ++ [a]) (pairs', s.2.observe (a.normalized stored)) := by
  obtain ⟨hkept, hfound, hsame, hrows, hids⟩ := getOrCreatePair_eq_ok hstored
  have htoken : stored.tokenId = a.member.tokenId := hsame
  have howner : a.owner response.chain pairs' = some stored := by
    rw [Association.owner, haddress]
    exact hfound
  have hnormalized : a.normalized? response.chain pairs' = some (a.normalized stored) := by
    simp [Association.normalized?, hfits, howner, htoken]
  have hissue : a.issue? response.chain pairs' = none := by
    simp [Association.issue?, hfits, haddress, howner, htoken]
  have hlast : [a].filterMap (fun b => b.normalized? response.chain pairs') =
      [a.normalized stored] := by simp [hnormalized]
  have hlastIssue : [a].filterMap (fun b => b.issue? response.chain pairs') = [] := by simp [hissue]
  obtain ⟨hold, holdIssues⟩ := h.congr hkept
  refine ⟨h.kept.trans hkept, ?_, ?_, ?_, ?_, ?_, ?_, fun hnodup => hids (h.ids hnodup)⟩
  · refine List.forall_mem_append.mpr ⟨fun b hb => ((h.resolved b hb).kept hkept).1, ?_⟩
    refine List.forall_mem_singleton.mpr (.inr (.inr ?_))
    rw [howner]
    rfl
  · show s.2.normalizedPairs ++ [_] = _
    rw [List.filterMap_append, hold, hlast]
  · show s.2.issues = _
    rw [List.filterMap_append, hlastIssue, List.append_nil, holdIssues]
  · show s.2.creates ++ [_] = (s.2.normalizedPairs ++ [_]).map _
    rw [List.map_append, ← h.creates, List.map_singleton]
  · show insert a.member.tokenId s.2.observedTokenIds = ((s.2.normalizedPairs ++ [_]).map _).toFinset
    rw [List.map_append, List.toFinset_append, ← h.observed, List.map_singleton,
      List.toFinset_cons, List.toFinset_nil, Finset.insert_eq, Finset.union_comm]
    rfl
  · intro row hrow
    cases hrows row hrow with
    | inl hearlier =>
      cases h.owners row hearlier with
      | inl hbefore => exact .inl hbefore
      | inr hown =>
        obtain ⟨normalized, hmem, hid⟩ := hown
        exact .inr ⟨normalized, List.mem_append_left _ hmem, hid⟩
    | inr hnew =>
      exact .inr ⟨a.normalized stored, List.mem_append_right _ (List.mem_singleton.mpr rfl),
        by rw [hnew]; rfl⟩

theorem built_of_observationCreates {response : PollResponse Facts}
    {pairs : Table Pair.identity} {s : Table Pair.identity × ObservationBuildResult Facts}
    (h : observationCreates response pairs = .ok s) :
    Built response pairs (associations response) s := by
  refine foldlM_invariant (Built response pairs) ?_ h ?_
  · intro done a s s' hs hstep
    unfold associate at hstep
    split at hstep
    · next hoversized =>
      cases hstep
      have hover : a.isOversized = true := by
        rw [Association.isOversized, Bool.not_eq_true', List.isEmpty_eq_false_iff]
        exact hoversized
      have hskip := hs.skip (a := a) [] (.inl hover) (by rw [Association.normalized?, if_pos hover])
        (by rw [Association.issue?, if_pos hover]; rfl)
      rw [List.append_nil] at hskip
      exact hskip
    · next hfits =>
      have hover : a.isOversized = false := by
        rw [Association.isOversized, Bool.not_eq_false', List.isEmpty_iff]
        exact not_not.mp hfits
      split at hstep
      · next haddress =>
        cases hstep
        refine hs.skip [_] (.inr (.inl haddress)) ?_ ?_
        · simp only [Association.normalized?, Association.owner, haddress, Option.bind_none,
            Option.filter_none, Option.map_none, ite_self]
        · simp only [Association.issue?, hover, haddress, Bool.false_eq_true, if_false]
          rfl
      · next address haddress =>
        split at hstep
        · next pairs' stored hstored =>
          cases hstep
          exact hs.observe haddress hover hstored
        · next hmismatch =>
          cases hstep
          obtain ⟨stored, hfound, hother⟩ := getOrCreatePair_mismatch hmismatch
          have htoken : stored.tokenId ≠ a.member.tokenId := hother
          have howner : a.owner response.chain s.1 = some stored := by
            rw [Association.owner, haddress]
            exact hfound
          refine hs.skip [_] (.inr (.inr (by rw [howner]; rfl))) ?_ ?_
          · simp [Association.normalized?, hover, howner, htoken]
          · simp [Association.issue?, hover, haddress, howner, htoken]
        · cases hstep
  · exact ⟨fun _ _ h => h, (fun _ h => by cases h), rfl, (List.append_nil _).symm, rfl, rfl,
      fun _ h => .inl h, fun h => h⟩

section Batches
variable {accepts} {response : PollResponse Facts} {store store' : PollStore Facts}
  {batch : PolledBatch Facts}

theorem rows_of_recordMany {request : ReceivedRequest} {receivedAt : Int} {inserted : Nat}
    {observations : List (ObservationCreate (ObservedFacts Facts))}
    {stored stored' : ObservationStore (ObservedFacts Facts)}
    (hreceived : request.receivedAt = some receivedAt)
    (h : recordMany accepts request observations stored = .ok (stored', inserted)) :
    (∀ row ∈ stored.observations.rows, row ∈ stored'.observations.rows) ∧
      (∀ observation ∈ observations, ∃ row ∈ stored'.observations.rows,
        row.key = ⟨receivedAt, request.id, observation.pairId⟩) ∧
      ∀ row ∈ stored'.observations.rows, row ∈ stored.observations.rows ∨
        ∃ observation ∈ observations, row.key = ⟨receivedAt, request.id, observation.pairId⟩ ∧
          row.facts = observation.facts := by
  obtain ⟨values, hvalues, haccepts⟩ := values_of_recordMany hreceived h
  rw [recordMany_eq hreceived hvalues haccepts] at h
  cases h
  dsimp only
  rw [Table.rows_foldl_insertNew]
  refine ⟨fun row hrow => List.mem_append_left _ hrow, ?_, ?_⟩
  · intro observation hobservation
    obtain ⟨value, hvalue, hrow⟩ := exists_related_right hvalues hobservation
    have hkey := (observationRow_eq_ok hrow).2.1
    cases hfound : stored.observations.find? ⟨receivedAt, request.id, observation.pairId⟩ with
    | some earlier =>
      obtain ⟨hmem, hearlier⟩ := Table.find?_eq_some_iff.mp hfound
      exact ⟨earlier, List.mem_append_left _ hmem, hearlier⟩
    | none =>
      have hadded : ⟨receivedAt, request.id, observation.pairId⟩ ∈
          (stored.observations.added values).map Observation.key := by
        refine Table.mem_keys_added.mpr ⟨?_, hfound⟩
        rw [← hkey]
        exact List.mem_map_of_mem hvalue
      obtain ⟨row, hadded, hrowKey⟩ := List.mem_map.mp hadded
      exact ⟨row, List.mem_append_right _ hadded, hrowKey⟩
  · intro row hrow
    refine (List.mem_append.mp hrow).imp id fun hadded => ?_
    obtain ⟨observation, hobservation, hvalue⟩ :=
      exists_related_left hvalues (mem_of_mem_added hadded)
    refine ⟨observation, hobservation, (observationRow_eq_ok hvalue).2.1, ?_⟩
    simp only [observationRow, bind_eq_ok, pure_eq_ok] at hvalue
    obtain ⟨_, _, rfl⟩ := hvalue
    rfl

/-- A committed batch, seen from a store that keeps its pairs and observations. -/
structure PolledBatch.Settled (store : PollStore Facts) (batch : PolledBatch Facts) : Prop where
  resolved : ∀ a ∈ associations batch.response, a.Resolved batch.response.chain store.pairs
  normalized : batch.build.normalizedPairs = (associations batch.response).filterMap fun a =>
    a.normalized? batch.response.chain store.pairs
  issues : batch.build.issues = oversizedRecords batch.response ++
    (associations batch.response).filterMap fun a => a.issue? batch.response.chain store.pairs
  observed : batch.build.observedTokenIds =
    (batch.build.normalizedPairs.map (·.tokenId)).toFinset
  recorded : ∀ normalized ∈ batch.build.normalizedPairs,
    ∃ row ∈ store.observations.observations.rows,
      row.key = ⟨batch.response.receivedAt, batch.response.requestId, normalized.pairId⟩
  outcome : batch.outcome = coverageOutcome batch.response.members.length
    batch.build.observedTokenIds.card (!batch.build.issues.isEmpty)

/-- Everything stored comes from a batch. -/
structure PollSystem.Invariant (s : PollSystem Facts) : Prop where
  settled : ∀ batch ∈ s.polled, batch.Settled s.store
  evidenced : ∀ row ∈ s.store.observations.observations.rows, ∃ batch ∈ s.polled,
    ∃ normalized ∈ batch.build.normalizedPairs,
      row.key = ⟨batch.response.receivedAt, batch.response.requestId, normalized.pairId⟩ ∧
        row.facts = ⟨normalized.sourceIndex, normalized.pair.facts⟩
  owned : ∀ stored ∈ s.store.pairs.rows, ∃ batch ∈ s.polled,
    ∃ normalized ∈ batch.build.normalizedPairs, normalized.pairId = stored.id
  ids : (s.store.pairs.rows.map (·.id)).Nodup

/-- What a transaction that commits does. -/
structure Polls (store store' : PollStore Facts) (batch : PolledBatch Facts) : Prop where
  kept : Kept store.pairs store'.pairs
  rows_kept : ∀ row ∈ store.observations.observations.rows,
    row ∈ store'.observations.observations.rows
  settled : batch.Settled store'
  evidenced : ∀ row ∈ store'.observations.observations.rows,
    row ∈ store.observations.observations.rows ∨ ∃ normalized ∈ batch.build.normalizedPairs,
      row.key = ⟨batch.response.receivedAt, batch.response.requestId, normalized.pairId⟩ ∧
        row.facts = ⟨normalized.sourceIndex, normalized.pair.facts⟩
  owned : ∀ stored ∈ store'.pairs.rows, stored ∈ store.pairs.rows ∨
    ∃ normalized ∈ batch.build.normalizedPairs, normalized.pairId = stored.id
  ids : (store.pairs.rows.map (·.id)).Nodup → (store'.pairs.rows.map (·.id)).Nodup

theorem polls_of_pollBatch (h : pollBatch accepts response store = .ok (store', batch)) :
    Polls store store' batch := by
  simp only [pollBatch, bind_eq_ok, pure_eq_ok, Prod.exists] at h
  obtain ⟨pairs, build, hcreates, observations, inserted, hrecorded, heq⟩ := h
  cases heq
  have hbuilt := built_of_observationCreates hcreates
  obtain ⟨hkept, hrows, hnew⟩ := rows_of_recordMany rfl (mapError_eq_ok.mp hrecorded)
  refine ⟨hbuilt.kept, hkept, ⟨hbuilt.resolved, hbuilt.normalized, hbuilt.issues, hbuilt.observed,
    ?_, rfl⟩, ?_, hbuilt.owners, hbuilt.ids⟩
  · intro normalized hnormalized
    refine hrows normalized.observation ?_
    rw [hbuilt.creates]
    exact List.mem_map_of_mem hnormalized
  · intro row hrow
    refine (hnew row hrow).imp id fun hcreate => ?_
    obtain ⟨observation, hobservation, hkey, hfacts⟩ := hcreate
    rw [hbuilt.creates] at hobservation
    obtain ⟨normalized, hnormalized, rfl⟩ := List.mem_map.mp hobservation
    exact ⟨normalized, hnormalized, hkey, hfacts⟩

theorem PolledBatch.Settled.kept (h : batch.Settled store) (hkept : Kept store.pairs store'.pairs)
    (hrows : ∀ row ∈ store.observations.observations.rows,
      row ∈ store'.observations.observations.rows) : batch.Settled store' where
  resolved a ha := ((h.resolved a ha).kept hkept).1
  normalized := h.normalized.trans
    (List.filterMap_congr fun a ha => ((h.resolved a ha).kept hkept).2.1.symm)
  issues := h.issues.trans (congrArg _
    (List.filterMap_congr fun a ha => ((h.resolved a ha).kept hkept).2.2.symm))
  observed := h.observed
  recorded normalized hnormalized := by
    obtain ⟨row, hrow, hkey⟩ := h.recorded normalized hnormalized
    exact ⟨row, hrows row hrow, hkey⟩
  outcome := h.outcome

/-- A batch keeps the invariant, and the owner of every pair. -/
theorem PollSystem.Invariant.step {s : PollSystem Facts} (h : s.Invariant)
    (response : PollResponse Facts) : (pollStep accepts s response).Invariant ∧
      Kept s.store.pairs (pollStep accepts s response).store.pairs := by
  unfold pollStep
  cases hpolled : pollBatch accepts response s.store with
  | error error => exact ⟨h, fun _ _ h => h⟩
  | ok result =>
    obtain ⟨store', batch⟩ := result
    have hpolls := polls_of_pollBatch hpolled
    refine ⟨⟨?_, ?_, ?_, hpolls.ids h.ids⟩, hpolls.kept⟩
    · refine List.forall_mem_append.mpr ⟨?_, List.forall_mem_singleton.mpr hpolls.settled⟩
      exact fun earlier hearlier => (h.settled earlier hearlier).kept hpolls.kept hpolls.rows_kept
    · intro row hrow
      cases hpolls.evidenced row hrow with
      | inl hold =>
        obtain ⟨earlier, hearlier, hevidence⟩ := h.evidenced row hold
        exact ⟨earlier, List.mem_append_left _ hearlier, hevidence⟩
      | inr hnew => exact ⟨batch, List.mem_append_right _ (List.mem_singleton.mpr rfl), hnew⟩
    · intro stored hstored
      cases hpolls.owned stored hstored with
      | inl hold =>
        obtain ⟨earlier, hearlier, hevidence⟩ := h.owned stored hold
        exact ⟨earlier, List.mem_append_left _ hearlier, hevidence⟩
      | inr hnew => exact ⟨batch, List.mem_append_right _ (List.mem_singleton.mpr rfl), hnew⟩

end Batches

/-! ### Runs -/

/-- A record of a batch that names a member. -/
structure Named (response : PollResponse Facts) (member : BatchMember) (sourceIndex : Nat)
    (record : PolledPair Facts) : Prop where
  member_mem : member ∈ response.members
  record_at : response.pairs[sourceIndex]? = some record
  names : record.names response.chain member.address = true
  fits : oversizedIssues record sourceIndex = []

/-- The observation that a batch has of a pair. -/
def observationKey (response : PollResponse Facts) (stored : Pair) : ObservationKey :=
  ⟨response.receivedAt, response.requestId, stored.id⟩

/-- What the store tells of the batches polled so far. -/
structure PollSystem.Accounted (s : PollSystem Facts) : Prop where
  /-- An observation is a record of its pair, in a batch of the token that owns the pair. -/
  evidence : ∀ row ∈ s.store.observations.observations.rows, ∃ batch ∈ s.polled,
    ∃ member sourceIndex record, Named batch.response member sourceIndex record ∧
      ∃ stored ∈ s.store.pairs.rows, record.pairAddress = some stored.address ∧
        stored.chain = batch.response.chain ∧ stored.tokenId = member.tokenId ∧
        row.key = observationKey batch.response stored ∧ row.facts = ⟨sourceIndex, record.facts⟩
  /-- A record that names a member is observed, or the batch says why it is not. -/
  complete : ∀ batch ∈ s.polled, ∀ member sourceIndex record,
    Named batch.response member sourceIndex record →
      (record.pairAddress = none ∧
        .missingPairAddress member.address sourceIndex ∈ batch.build.issues) ∨
      ∃ address stored, record.pairAddress = some address ∧
        s.store.pairs.find? (batch.response.chain, address) = some stored ∧
        (stored.tokenId = member.tokenId ∧ (∃ row ∈ s.store.observations.observations.rows,
            row.key = observationKey batch.response stored) ∨
          stored.tokenId ≠ member.tokenId ∧
            .pairTokenMismatch member.address address sourceIndex ∈ batch.build.issues)
  /-- A pair has been observed. -/
  owned : ∀ stored ∈ s.store.pairs.rows, ∃ row ∈ s.store.observations.observations.rows,
    row.pairId = stored.id
  /-- A batch succeeded only with an observation for every member. -/
  succeeded : ∀ batch ∈ s.polled, batch.outcome = .succeeded → batch.build.issues = [] ∧
    ∀ member ∈ batch.response.members, ∃ stored ∈ s.store.pairs.rows,
      stored.tokenId = member.tokenId ∧ ∃ row ∈ s.store.observations.observations.rows,
        row.key = observationKey batch.response stored

theorem Association.isOversized_eq_false {a : Association Facts} :
    a.isOversized = false ↔ oversizedIssues a.pair a.sourceIndex = [] := by
  rw [isOversized, Bool.not_eq_false', List.isEmpty_iff]

theorem named_iff {response : PollResponse Facts} {a : Association Facts} :
    Named response a.member a.sourceIndex a.pair ↔
      a ∈ associations response ∧ a.isOversized = false := by
  rw [Association.isOversized_eq_false]
  constructor
  · intro h
    refine ⟨List.mem_flatMap.mpr ⟨a.member, h.member_mem, ?_⟩, h.fits⟩
    exact List.mem_map.mpr ⟨(a.pair, a.sourceIndex), List.mem_filter.mpr
      ⟨List.mem_zipIdx_iff_getElem?.mpr h.record_at, h.names⟩, rfl⟩
  · intro h
    obtain ⟨member, hmember, hmem⟩ := List.mem_flatMap.mp h.1
    obtain ⟨indexed, hindexed, rfl⟩ := List.mem_map.mp hmem
    obtain ⟨hrecord, hnames⟩ := List.mem_filter.mp hindexed
    exact ⟨hmember, List.mem_zipIdx_iff_getElem?.mp hrecord, hnames, h.2⟩

theorem Association.normalized?_eq_some {a : Association Facts} {chain : Text}
    {pairs : Table Pair.identity} {normalized : NormalizedPair Facts} :
    a.normalized? chain pairs = some normalized ↔ a.isOversized = false ∧
      ∃ address stored, a.pair.pairAddress = some address ∧
        pairs.find? (chain, address) = some stored ∧ stored.tokenId = a.member.tokenId ∧
        a.normalized stored = normalized := by
  rw [normalized?]
  cases a.isOversized with
  | true => simp
  | false =>
    simp only [Bool.false_eq_true, if_false, Option.map_eq_some_iff, Option.filter_eq_some_iff,
      owner, Option.bind_eq_some_iff, decide_eq_true_eq, true_and]
    constructor
    · intro h
      obtain ⟨stored, ⟨⟨address, haddress, hfound⟩, htoken⟩, hnormalized⟩ := h
      exact ⟨address, stored, haddress, hfound, htoken, hnormalized⟩
    · intro h
      obtain ⟨address, stored, haddress, hfound, htoken, hnormalized⟩ := h
      exact ⟨stored, ⟨⟨address, haddress, hfound⟩, htoken⟩, hnormalized⟩

section Accounting
variable {s : PollSystem Facts} {batch : PolledBatch Facts}

theorem PolledBatch.Settled.mem_normalized {store : PollStore Facts} (h : batch.Settled store)
    {normalized : NormalizedPair Facts} (hmem : normalized ∈ batch.build.normalizedPairs) :
    ∃ member sourceIndex record, Named batch.response member sourceIndex record ∧
      ∃ stored ∈ store.pairs.rows, record.pairAddress = some stored.address ∧
        stored.chain = batch.response.chain ∧ stored.tokenId = member.tokenId ∧
        normalized = ⟨member.tokenId, member.address, stored.id, record, sourceIndex⟩ := by
  rw [h.normalized] at hmem
  obtain ⟨a, ha, hnormalized⟩ := List.mem_filterMap.mp hmem
  obtain ⟨hfits, address, stored, haddress, hfound, htoken, heq⟩ :=
    Association.normalized?_eq_some.mp hnormalized
  obtain ⟨hstored, hidentity⟩ := Table.find?_eq_some_iff.mp hfound
  obtain ⟨hchain, hsame⟩ := Prod.mk.inj hidentity
  exact ⟨a.member, a.sourceIndex, a.pair, named_iff.mpr ⟨ha, hfits⟩, stored, hstored,
    by rw [haddress, ← hsame], hchain, htoken, heq.symm⟩

theorem PolledBatch.Settled.complete {store : PollStore Facts} (h : batch.Settled store)
    {a : Association Facts} (hnamed : Named batch.response a.member a.sourceIndex a.pair) :
    (a.pair.pairAddress = none ∧
      .missingPairAddress a.member.address a.sourceIndex ∈ batch.build.issues) ∨
    ∃ address stored, a.pair.pairAddress = some address ∧
      store.pairs.find? (batch.response.chain, address) = some stored ∧
      (stored.tokenId = a.member.tokenId ∧ (∃ row ∈ store.observations.observations.rows,
          row.key = observationKey batch.response stored) ∨
        stored.tokenId ≠ a.member.tokenId ∧
          .pairTokenMismatch a.member.address address a.sourceIndex ∈ batch.build.issues) := by
  obtain ⟨hmem, hfits⟩ := named_iff.mp hnamed
  have hissue {issue : NormalizationIssue}
      (hissue : a.issue? batch.response.chain store.pairs = some issue) :
      issue ∈ batch.build.issues := by
    rw [h.issues]
    exact List.mem_append_right _ (List.mem_filterMap.mpr ⟨a, hmem, hissue⟩)
  cases haddress : a.pair.pairAddress with
  | none => exact .inl ⟨rfl, hissue (by simp [Association.issue?, hfits, haddress])⟩
  | some address =>
    right
    cases h.resolved a hmem with
    | inl hoversized =>
      rw [hfits] at hoversized
      cases hoversized
    | inr hrest =>
      have hknown := hrest.resolve_left (by rw [haddress]; exact Option.some_ne_none _)
      obtain ⟨stored, howner⟩ := Option.isSome_iff_exists.mp hknown
      have hfound : store.pairs.find? (batch.response.chain, address) = some stored := by
        rw [Association.owner, haddress] at howner
        exact howner
      refine ⟨address, stored, rfl, hfound, ?_⟩
      by_cases htoken : stored.tokenId = a.member.tokenId
      · refine .inl ⟨htoken, h.recorded (a.normalized stored) ?_⟩
        rw [h.normalized]
        exact List.mem_filterMap.mpr ⟨a, hmem, Association.normalized?_eq_some.mpr
          ⟨hfits, address, stored, haddress, hfound, htoken, rfl⟩⟩
      · exact .inr ⟨htoken, hissue (by simp [Association.issue?, hfits, haddress, howner, htoken])⟩

/-- No member of a batch that succeeded went without an observation. -/
theorem PolledBatch.Settled.succeeded {store : PollStore Facts} (h : batch.Settled store)
    (hsucceeded : batch.outcome = .succeeded) : batch.build.issues = [] ∧
      ∀ member ∈ batch.response.members, member.tokenId ∈ batch.build.observedTokenIds := by
  rw [h.outcome, coverageOutcome] at hsucceeded
  split at hsucceeded
  · cases hsucceeded
  · split at hsucceeded
    · next hcovered =>
      refine ⟨by simpa using hcovered.2, ?_⟩
      have hsubset : batch.build.observedTokenIds ⊆
          (batch.response.members.map (·.tokenId)).toFinset := by
        intro tokenId htoken
        rw [h.observed, List.mem_toFinset] at htoken
        obtain ⟨normalized, hnormalized, rfl⟩ := List.mem_map.mp htoken
        obtain ⟨member, _, _, hnamed, _, _, _, _, _, heq⟩ := h.mem_normalized hnormalized
        rw [List.mem_toFinset, heq]
        exact List.mem_map_of_mem hnamed.member_mem
      have hcard : (batch.response.members.map (·.tokenId)).toFinset.card ≤
          batch.build.observedTokenIds.card := by
        rw [hcovered.1, ← List.length_map (·.tokenId)]
        exact List.toFinset_card_le _
      intro member hmember
      rw [Finset.eq_of_subset_of_card_le hsubset hcard, List.mem_toFinset]
      exact List.mem_map_of_mem hmember
    · cases hsucceeded

theorem PollSystem.Invariant.accounted (h : s.Invariant) : s.Accounted where
  evidence row hrow := by
    obtain ⟨batch, hbatch, normalized, hnormalized, hkey, hfacts⟩ := h.evidenced row hrow
    obtain ⟨member, sourceIndex, record, hnamed, stored, hstored, haddress, hchain, htoken, heq⟩ :=
      (h.settled batch hbatch).mem_normalized hnormalized
    rw [heq] at hkey hfacts
    exact ⟨batch, hbatch, member, sourceIndex, record, hnamed, stored, hstored, haddress, hchain,
      htoken, hkey, hfacts⟩
  complete batch hbatch member sourceIndex record hnamed :=
    (h.settled batch hbatch).complete (a := ⟨member, record, sourceIndex⟩) hnamed
  owned stored hstored := by
    obtain ⟨batch, hbatch, normalized, hnormalized, hid⟩ := h.owned stored hstored
    obtain ⟨row, hrow, hkey⟩ := (h.settled batch hbatch).recorded normalized hnormalized
    exact ⟨row, hrow, (congrArg ObservationKey.pairId hkey).trans hid⟩
  succeeded batch hbatch hsucceeded := by
    have hsettled := h.settled batch hbatch
    obtain ⟨hissues, hobserved⟩ := hsettled.succeeded hsucceeded
    refine ⟨hissues, fun member hmember => ?_⟩
    have htoken := hobserved member hmember
    rw [hsettled.observed, List.mem_toFinset] at htoken
    obtain ⟨normalized, hnormalized, hsame⟩ := List.mem_map.mp htoken
    obtain ⟨_, _, _, _, stored, hstored, _, _, howner, heq⟩ := hsettled.mem_normalized hnormalized
    obtain ⟨row, hrow, hkey⟩ := hsettled.recorded normalized hnormalized
    rw [heq] at hsame hkey
    exact ⟨stored, hstored, howner.trans hsame, row, hrow, hkey⟩

end Accounting

end Responses

end PumpResearch.Collection
