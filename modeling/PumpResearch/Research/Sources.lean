import PumpResearch.Library.Results
import PumpResearch.Research.AsOf

/-! Research sources: the in-memory source, and the hot/cold source that joins two of them
at one cutoff. -/
namespace PumpResearch.Research
open KeyedOrder OrderedDict Results

/-- The keyword arguments of `load_histories`. -/
structure ResearchQuery where
  epochNumber : Int
  tokenAddresses : List String := []
  startAt : Option Timestamp := none
  endAt : Option Timestamp := none
  allowInvalidEpoch : Bool := false

abbrev ResearchSource := ResearchQuery → Except ResearchError (List TokenHistory)

/-- `included` of `_slice_history`: a half-open range, open on a missing bound. -/
def included (startAt endAt : Option Timestamp) (t : Timestamp) : Bool :=
  startAt.all (· ≤ t) && endAt.all (t < ·)

/-- `_slice_history`. -/
def sliceHistory (history : TokenHistory) (startAt endAt : Option Timestamp) : TokenHistory :=
  { history with
    discoveries := history.discoveries.filter fun item => included startAt endAt item.receivedAt
    observations := history.observations.filter fun item => included startAt endAt item.receivedAt
    lifecycle := history.lifecycle.filter fun item => included startAt endAt item.decidedAt
    pairFacts := history.pairFacts.filter fun item => included startAt endAt item.receivedAt
    boosts := history.boosts.filter fun item => included startAt endAt item.receivedAt
    metadata := history.metadata.filter fun item => included startAt endAt item.receivedAt
    security := history.security.filter fun item => included startAt endAt item.receivedAt
    context := history.context.filter fun item => included startAt endAt item.receivedAt
    coverage := history.coverage.filter fun item => included startAt endAt item.decidedAt
    candidates := history.candidates.filter fun item => included startAt endAt item.candidateAt
    candidateTiers := history.candidateTiers.filter fun item =>
      included startAt endAt item.decidedAt
    selectiveSecurity := history.selectiveSecurity.filter fun item =>
      included startAt endAt item.receivedAt }

/-- `_with_descriptor`. -/
def withDescriptor (history : TokenHistory) (descriptor : SourceDescriptor) : TokenHistory :=
  { history with sourceDescriptor := descriptor }

/-- The histories of a query, by address. -/
def selectHistories (histories : List TokenHistory) (query : ResearchQuery) : List TokenHistory :=
  sortOn (·.address) (histories.filter fun history =>
    decide (history.epochNumber = query.epochNumber) &&
      (query.tokenAddresses.isEmpty || decide (history.address ∈ query.tokenAddresses)) &&
      (history.epochDataValid || query.allowInvalidEpoch))

/-- `_history_digest`. -/
def historyDigest (H : Hashing) (history : TokenHistory) : String :=
  H.canonicalDigest (.historyCounts history.epochNumber history.tokenId
    history.observations.length history.lifecycle.length history.boosts.length)

/-- `InMemoryResearchSource.load_histories`. -/
def inMemorySource (H : Hashing) (histories : List TokenHistory) (name : String) :
    ResearchSource := fun query =>
  .ok ((selectHistories histories query).map fun history =>
    withDescriptor (sliceHistory history query.startAt query.endAt)
      (.memory name (historyDigest H history)))

/-- The inner step of `_merge_facts`: a repeated id must repeat the fact. -/
def mergeFactStep {α : Type} [DecidableEq α] (ident : α → String) (byId : Dict String α)
    (fact : α) : Except ResearchError (Dict String α) :=
  match byId.get? (ident fact) with
  | some existing =>
    if existing ≠ fact then
      .error (.value ("hot/cold fact " ++ ident fact ++ " has conflicting content"))
    else .ok (byId.set (ident fact) fact)
  | none => .ok (byId.set (ident fact) fact)

/-- `_merge_facts`. -/
def mergeFacts {α : Type} [DecidableEq α] (ident : α → String) (time : α → Timestamp)
    (parts : List (List α)) : Except ResearchError (List α) := do
  let byId ← parts.flatten.foldlM (mergeFactStep ident) Dict.empty
  return sortOn (timeKey time ident) byId.values

/-- `_merge_histories`; a token's group has at least one part. -/
def mergeHistories (H : Hashing) (parts : List TokenHistory) (cutoff : Timestamp) :
    Except ResearchError TokenHistory :=
  match parts with
  | [] => .error (.value "no histories to merge")
  | first :: rest => do
    if rest.any fun item =>
        (item.epochId, item.epochNumber, item.tokenId, item.chain, item.address) ≠
          (first.epochId, first.epochNumber, first.tokenId, first.chain, first.address) then
      throw (.value "hot/cold histories have conflicting token or epoch identity")
    if ((first :: rest).map (·.epochDataValid)).dedup.length ≠ 1 then
      throw (.value "hot/cold histories disagree about epoch validity")
    let discoveries ← mergeFacts (·.id) (·.receivedAt) (parts.map (·.discoveries))
    let observations ← mergeFacts (·.id) (·.receivedAt) (parts.map (·.observations))
    let lifecycle ← mergeFacts (·.id) (·.decidedAt) (parts.map (·.lifecycle))
    let pairFacts ← mergeFacts (·.id) (·.receivedAt) (parts.map (·.pairFacts))
    let boosts ← mergeFacts (·.id) (·.receivedAt) (parts.map (·.boosts))
    let metadata ← mergeFacts (·.id) (·.receivedAt) (parts.map (·.metadata))
    let security ← mergeFacts (·.id) (·.receivedAt) (parts.map (·.security))
    let context ← mergeFacts (·.id) (·.receivedAt) (parts.map (·.context))
    let coverage ← mergeFacts (·.id) (·.decidedAt) (parts.map (·.coverage))
    let candidates ← mergeFacts (·.id) (·.candidateAt) (parts.map (·.candidates))
    let candidateTiers ← mergeFacts (·.id) (·.decidedAt) (parts.map (·.candidateTiers))
    let selectiveSecurity ← mergeFacts (·.id) (·.receivedAt) (parts.map (·.selectiveSecurity))
    return {
      epochId := first.epochId
      epochNumber := first.epochNumber
      epochDataValid := first.epochDataValid
      tokenId := first.tokenId
      chain := first.chain
      address := first.address
      discoveries, observations, lifecycle, pairFacts, boosts, metadata, security, context,
      coverage, candidates, candidateTiers, selectiveSecurity
      sourceDescriptor := .hotCold cutoff
        (sortOn (fun d => H.canonicalDigest (.descriptor d)) (parts.map (·.sourceDescriptor))) }

/-- `cold_end`: the query's end, but never past the cutoff. -/
def coldEnd (cutoff : Timestamp) (endAt : Option Timestamp) : Timestamp :=
  (endAt.map (min · cutoff)).getD cutoff

/-- `hot_start`: the query's start, but never before the cutoff. -/
def hotStart (cutoff : Timestamp) (startAt : Option Timestamp) : Timestamp :=
  (startAt.map (max · cutoff)).getD cutoff

/-- `HotColdResearchSource.load_histories`. -/
def hotColdSource (H : Hashing) (cold hot : ResearchSource) (hotFrom : Timestamp) :
    ResearchSource := fun query => do
  let coldHistories ← cold { query with endAt := some (coldEnd hotFrom query.endAt) }
  let hotHistories ← hot { query with startAt := some (hotStart hotFrom query.startAt) }
  let coldParts := coldHistories.map fun history =>
    sliceHistory history query.startAt (some (coldEnd hotFrom query.endAt))
  let hotParts := hotHistories.map fun history =>
    sliceHistory history (some (hotStart hotFrom query.startAt)) query.endAt
  let byToken := groupInto (·.tokenId) hotParts (groupInto (·.tokenId) coldParts Dict.empty)
  let merged ← byToken.values.mapM fun parts => mergeHistories H parts hotFrom
  return sortOn (·.address) merged

/-- Cold and hot clips of a time are disjoint and together cover the query's range. -/
theorem included_split (cutoff : Timestamp) (startAt endAt : Option Timestamp) (t : Timestamp) :
    included startAt endAt t =
      (included startAt (some (coldEnd cutoff endAt)) t ||
        included (some (hotStart cutoff startAt)) endAt t) := by
  rw [Bool.eq_iff_iff]
  cases startAt <;> cases endAt <;> simp [included, coldEnd, hotStart] <;> lia

theorem included_disjoint (cutoff : Timestamp) (startAt endAt : Option Timestamp) (t : Timestamp) :
    ¬ (included startAt (some (coldEnd cutoff endAt)) t = true ∧
      included (some (hotStart cutoff startAt)) endAt t = true) := by
  rintro ⟨hc, hh⟩
  simp only [included, Bool.and_eq_true, Option.all_some, decide_eq_true_eq] at hc hh
  have hle : coldEnd cutoff endAt ≤ cutoff := by
    cases endAt <;> simp [coldEnd]
  have hge : cutoff ≤ hotStart cutoff startAt := by
    cases startAt <;> simp [hotStart]
  lia

theorem sliceHistory_idem (history : TokenHistory) (startAt endAt : Option Timestamp) :
    sliceHistory (sliceHistory history startAt endAt) startAt endAt =
      sliceHistory history startAt endAt := by
  simp only [sliceHistory, List.filter_filter, Bool.and_self]

section Merge
variable {α : Type} [DecidableEq α] {ident : α → String}

/-- Distinct ids meet no conflict: the dictionary lists the facts in order. -/
theorem mergeFactLoop_of_nodup (facts : List α) (byId : Dict String α)
    (h : (byId.keys ++ facts.map ident).Nodup) :
    ∃ byId', facts.foldlM (mergeFactStep ident) byId = .ok byId' ∧
      byId'.values = byId.values ++ facts := by
  induction facts generalizing byId with
  | nil => exact ⟨byId, rfl, by simp⟩
  | cons fact facts ih =>
    have hnew : ident fact ∉ byId.keys := by
      intro hm
      exact (List.nodup_append.mp h).2.2 _ hm _ (by simp) rfl
    have hstep : mergeFactStep ident byId fact = .ok (byId.set (ident fact) fact) := by
      rw [mergeFactStep, (byId.get?_eq_none_iff _).mpr hnew]
    have hkeys : (byId.set (ident fact) fact).keys = byId.keys ++ [ident fact] := by
      rw [Dict.keys_set, if_neg hnew]
    obtain ⟨byId', hrun, hvalues⟩ := ih (byId.set (ident fact) fact) (by
      rw [hkeys]
      simpa using h)
    refine ⟨byId', ?_, ?_⟩
    · rw [List.foldlM_cons, hstep]
      exact hrun
    · rw [hvalues, Dict.values_set_of_notMem byId _ _ hnew]
      simp

theorem mergeFacts_of_nodup {time : α → Timestamp} {parts : List (List α)} (h : (parts.flatten.map ident).Nodup) :
    mergeFacts ident time parts = .ok (sortOn (timeKey time ident) parts.flatten) := by
  obtain ⟨byId, hrun, hvalues⟩ := mergeFactLoop_of_nodup parts.flatten Dict.empty
    (by simpa only [Dict.keys_empty, List.nil_append] using h)
  rw [mergeFacts, hrun, bind_eq_ok]
  exact ⟨byId, rfl, by rw [hvalues, Dict.values_empty, List.nil_append]; rfl⟩

/-- One family, cut at a cutoff and merged again: the sorted family of the whole range. -/
theorem mergeFacts_split (time : α → Timestamp) (cutoff : Timestamp) (startAt endAt : Option Timestamp) {xs : List α}
    (hx : (xs.map ident).Nodup) :
    ∃ merged, mergeFacts ident time
        [xs.filter fun a => included startAt (some (coldEnd cutoff endAt)) (time a),
          xs.filter fun a => included (some (hotStart cutoff startAt)) endAt (time a)] =
        .ok merged ∧
      merged.Perm (xs.filter fun a => included startAt endAt (time a)) := by
  have hperm := filter_append_filter_perm
    (p := fun a => included startAt (some (coldEnd cutoff endAt)) (time a))
    (q := fun a => included (some (hotStart cutoff startAt)) endAt (time a))
    (r := fun a => included startAt endAt (time a))
    (fun a => included_split cutoff startAt endAt (time a))
    (fun a => included_disjoint cutoff startAt endAt (time a)) xs
  have hnd := (hperm.map ident).nodup_iff.mpr (hx.sublist (List.filter_sublist.map ident))
  refine ⟨_, mergeFacts_of_nodup (by simpa using hnd), ?_⟩
  exact (sortOn_perm _ _).trans (by simpa using hperm)

end Merge

end PumpResearch.Research
