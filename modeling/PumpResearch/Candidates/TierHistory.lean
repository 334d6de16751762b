import PumpResearch.Candidates.CoverageCap
import PumpResearch.Research.AsOf

/-! The tier of a token as research reads it back. The stored tier events form a chain that ends
in the live tier; the reader takes the latest of them by decision time and then by id. -/
namespace PumpResearch.Candidates
open KeyedOrder KeyedTable Results Runs
open Research (CandidateTierFact FeatureSetContract Hashing TokenHistory TokenStateAsOf
  getTokenStateAsOf latestCandidateTier raiseOnFirst timeKey tokenState validateHistory)

def CandidateTier.value : CandidateTier → String
  | .tier0Universal => "TIER_0_UNIVERSAL"
  | .tier1Interesting => "TIER_1_INTERESTING"
  | .tier2Investigate => "TIER_2_INVESTIGATE"
  | .tier3DeepReview => "TIER_3_DEEP_REVIEW"
  | .tier4Pretrade => "TIER_4_PRETRADE"

def TransitionReason.value : TransitionReason → String
  | .marketActivity => "MARKET_ACTIVITY"
  | .watchState => "WATCH_STATE"
  | .boostActivity => "BOOST_ACTIVITY"
  | .securityChange => "SECURITY_CHANGE"
  | .coverageResurrection => "COVERAGE_RESURRECTION"
  | .evidenceStale => "EVIDENCE_STALE"
  | .activityCooling => "ACTIVITY_COOLING"

/-- `_candidate_tier`: the fact of a stored event, under the text of its id. -/
def candidateTierFact (uuidString : Uuid → String) (event : CandidateTierEvent) :
    CandidateTierFact where
  id := uuidString event.id
  decidedAt := event.decidedAt
  inputWatermark := event.inputWatermark
  previousTier := event.previousTier.value
  newTier := event.newTier.value
  reasonCode := event.reasonCode.value

/-- The tier events of a token in an epoch, in the order of their commits. -/
def tierEventsOf (epoch token : Uuid) (store : CandidateStore) : List CandidateTierEvent :=
  store.tierEvents.rows.filter fun event =>
    event.collectionEpochId = epoch ∧ event.tokenId = token

def currentFor (epoch token : Uuid) (store : CandidateStore) : Option CandidateCurrentState :=
  store.currentStates.find? (epoch, token)

/-- One call, under the policy it is given; a call that raises is rolled back. -/
def evaluationStep (ids : CandidateIdentities) (store : CandidateStore)
    (action : CandidatePolicy × EvaluationCall) : CandidateStore :=
  ((applyEvaluation ids action.1 store action.2).toOption.map (·.1)).getD store

/-! ### What a call writes -/

section Effect
variable {ids : CandidateIdentities} {policy : CandidatePolicy} {store store' : CandidateStore}
  {call : EvaluationCall}

/-- A tier event is found as it should be stored, or stored. -/
theorem persistTierEvent_eq_ok {values row : CandidateTierEvent}
    {table table' : Table CandidateTierEvent.id}
    (h : persistTierEvent values table = .ok (table', row)) :
    (table' = table ∧ values ∈ table.rows) ∨ table'.rows = table.rows ++ [values] := by
  simp only [persistTierEvent] at h
  split at h
  · next stored hstored =>
    split at h
    · next hsame =>
      cases h
      subst hsame
      by_cases hkey : table.rows.any (·.idempotencyKey = row.idempotencyKey)
      · rw [if_pos hkey] at hstored ⊢
        exact .inl ⟨rfl, (Table.find?_eq_some_iff.mp hstored).1⟩
      · rw [if_neg hkey] at hstored ⊢
        cases hf : table.find? row.id with
        | none => exact .inr (Table.rows_insertNew_of_find?_eq_none hf)
        | some other =>
          rw [Table.insertNew_eq_self hf] at hstored ⊢
          exact .inl ⟨rfl, (Table.find?_eq_some_iff.mp hstored).1⟩
    · cases h
  · cases h

/-- The id that a transition of a call would give its tier event. -/
def tierEventId (ids : CandidateIdentities) (policy : CandidatePolicy) (store : CandidateStore)
    (call : EvaluationCall) (target : CandidateTier) : Uuid :=
  (tierEventValues ids call.collectionEpochId none none (previousTier (currentOf store call)) target
    call.evidence call.decision policy call.now).id

/-- The values of the tier event of a transition, up to what no reader of tiers compares. -/
structure Moves (ids : CandidateIdentities) (policy : CandidatePolicy) (store : CandidateStore)
    (call : EvaluationCall) (target : CandidateTier) (values : CandidateTierEvent) : Prop where
  id_eq : values.id = tierEventId ids policy store call target
  epoch : values.collectionEpochId = call.collectionEpochId
  token : values.tokenId = call.evidence.tokenId
  previous : values.previousTier = previousTier (currentOf store call)
  target_eq : values.newTier = target
  decided : values.decidedAt = call.now
  watermark : values.inputWatermark = call.evidence.watermark

/-- What a successful evaluation did to the projection and to the tier events. -/
inductive TierEffect (ids : CandidateIdentities) (policy : CandidatePolicy)
    (store : CandidateStore) (call : EvaluationCall) (store' : CandidateStore) : Prop
  | kept (planned : plannedTransition ids policy store call = none)
      (states : store'.currentStates = store.currentStates)
      (events : store'.tierEvents = store.tierEvents)
  | moved (decision : EvaluationDecision) (target : CandidateTier)
      (values : CandidateTierEvent) (state : CandidateCurrentState)
      (planned : plannedTransition ids policy store call = some (decision, target))
      (moves : Moves ids policy store call target values)
      (key : state.key = (call.collectionEpochId, call.evidence.tokenId))
      (tier : state.tier = target) (watermark : state.inputWatermark = call.evidence.watermark)
      (states : store'.currentStates = (store.currentStates.insertNew state).write [state])
      (events : (store'.tierEvents = store.tierEvents ∧ values ∈ store.tierEvents.rows) ∨
        store'.tierEvents.rows = store.tierEvents.rows ++ [values])

theorem applyEvaluation_tierEffect {result : CandidateTransitionResult}
    (h : applyEvaluation ids policy store call = .ok (store', result)) :
    TierEffect ids policy store call store' := by
  unfold applyEvaluation at h
  split at h
  · next hplan =>
    cases h
    exact .kept hplan rfl rfl
  · next decision target hplan =>
    simp only [writeTransition, bind_eq_ok, pure_eq_ok] at h
    obtain ⟨events, _, tiers, htiers, schedules, _, tasks, _, hresult⟩ := h
    cases hresult
    have hevents := persistTierEvent_eq_ok htiers
    refine .moved decision target _ _ hplan ?_ ?_ ?_ ?_ rfl hevents
    · exact ⟨rfl, rfl, rfl, rfl, rfl, rfl, rfl⟩
    · rfl
    · rfl
    · rfl

theorem targetTier_eq_or (current : Option CandidateCurrentState) (now : Int)
    (decision : EvaluationDecision) : targetTier current now decision = previousTier current ∨
      targetTier current now decision = decision.targetTier := by
  unfold targetTier
  split
  · exact .inl rfl
  · exact .inr rfl

theorem tier3Admitted_targetTier_eq_or (policy : CandidatePolicy) (store : CandidateStore)
    (previous : CandidateTier) (decision : EvaluationDecision) :
    (tier3Admitted policy store previous decision).targetTier = previous ∨
      (tier3Admitted policy store previous decision).targetTier = decision.targetTier := by
  unfold tier3Admitted
  split
  · exact .inl rfl
  · exact .inr rfl

/-- A transition is never older than the projection, and at its watermark never lower. -/
theorem planned_not_older {decision : EvaluationDecision} {target : CandidateTier}
    {state : CandidateCurrentState}
    (h : plannedTransition ids policy store call = some (decision, target))
    (hstate : currentOf store call = some state) :
    state.inputWatermark < call.evidence.watermark ∨
      (state.inputWatermark = call.evidence.watermark ∧ tierRank state.tier ≤ tierRank target) := by
  simp only [plannedTransition, hstate] at h
  split at h
  · cases h
  · next hcurrent =>
    have hcurrent : ¬ (call.evidence.watermark < state.inputWatermark ∨
        (call.evidence.watermark = state.inputWatermark ∧
          tierRank call.decision.targetTier < tierRank state.tier)) :=
      fun hout => hcurrent ⟨state, rfl, hout⟩
    split at h
    · cases h
    · cases h
      have htarget : targetTier (some state) call.now
          (tier3Admitted policy store (previousTier (some state)) call.decision) = state.tier ∨
          targetTier (some state) call.now
            (tier3Admitted policy store (previousTier (some state)) call.decision) =
          call.decision.targetTier := by
        cases targetTier_eq_or (some state) call.now
            (tier3Admitted policy store (previousTier (some state)) call.decision) with
        | inl hprevious => exact .inl hprevious
        | inr hadmitted =>
          rw [hadmitted]
          exact tier3Admitted_targetTier_eq_or policy store (previousTier (some state))
            call.decision
      cases htarget with
      | inl hsame =>
        rw [hsame]
        omega
      | inr hasked =>
        rw [hasked]
        omega

end Effect

/-! ### The chain of tier events -/

/-- Each event starts where the one before it ended, the first at the universal tier. -/
def Chained (events : List CandidateTierEvent) : Prop :=
  (∀ first ∈ events.head?, first.previousTier = .tier0Universal) ∧
    events.IsChain fun a b => b.previousTier = a.newTier

/-- The tier that a chain of events ends in. -/
def finalTier (events : List CandidateTierEvent) : CandidateTier :=
  events.getLast?.elim .tier0Universal (·.newTier)

theorem chained_append {events : List CandidateTierEvent} {event : CandidateTierEvent}
    (h : Chained events) (hprevious : event.previousTier = finalTier events) :
    Chained (events ++ [event]) := by
  constructor
  · cases events with
    | nil =>
      intro first hfirst
      cases hfirst
      exact hprevious
    | cons first rest => exact h.1
  · rw [List.isChain_append]
    refine ⟨h.2, List.isChain_singleton event, ?_⟩
    intro last hlast next hnext
    cases hnext
    rw [hprevious, finalTier, Option.mem_def.mp hlast]
    rfl

/-- The projection is not behind an event: by watermark, and then by rank. -/
def Precedes (event : CandidateTierEvent) (state : CandidateCurrentState) : Prop :=
  event.inputWatermark < state.inputWatermark ∨
    (event.inputWatermark = state.inputWatermark ∧ tierRank event.newTier ≤ tierRank state.tier)

structure TierChain (epoch token : Uuid) (store : CandidateStore) : Prop where
  chained : Chained (tierEventsOf epoch token store)
  last : previousTier (currentFor epoch token store) = finalTier (tierEventsOf epoch token store)
  precedes : ∀ event ∈ tierEventsOf epoch token store, ∃ state,
    currentFor epoch token store = some state ∧ Precedes event state

theorem tierRank_injective : Function.Injective tierRank := by
  intro a b h
  cases a <;> cases b <;> first | rfl | cases h

/-- What a call does to the events and the projection of one token: nothing, a renewal whose
event is already stored, or one more event. -/
inductive TokenMove (ids : CandidateIdentities) (epoch token : Uuid) (store : CandidateStore)
    (action : CandidatePolicy × EvaluationCall) (store' : CandidateStore) : Prop
  | kept
      (silent : action.2.collectionEpochId = epoch → action.2.evidence.tokenId = token →
        (applyEvaluation ids action.1 store action.2).isOk = true →
        plannedTransition ids action.1 store action.2 = none)
      (events : tierEventsOf epoch token store' = tierEventsOf epoch token store)
      (current : currentFor epoch token store' = currentFor epoch token store)
  | moved (decision : EvaluationDecision) (target : CandidateTier) (values : CandidateTierEvent)
      (state : CandidateCurrentState)
      (isEpoch : action.2.collectionEpochId = epoch) (isToken : action.2.evidence.tokenId = token)
      (succeeds : (applyEvaluation ids action.1 store action.2).isOk = true)
      (planned : plannedTransition ids action.1 store action.2 = some (decision, target))
      (moves : Moves ids action.1 store action.2 target values)
      (current : currentFor epoch token store' = some state) (tier : state.tier = target)
      (watermark : state.inputWatermark = action.2.evidence.watermark)
      (events : (tierEventsOf epoch token store' = tierEventsOf epoch token store ∧
          values ∈ tierEventsOf epoch token store) ∨
        tierEventsOf epoch token store' = tierEventsOf epoch token store ++ [values])

theorem evaluationStep_tokenMove (ids : CandidateIdentities) (epoch token : Uuid)
    (store : CandidateStore) (action : CandidatePolicy × EvaluationCall) :
    TokenMove ids epoch token store action (evaluationStep ids store action) := by
  unfold evaluationStep
  cases hrun : applyEvaluation ids action.1 store action.2 with
  | error e => exact .kept (fun _ _ hok => by rw [hrun] at hok; cases hok) rfl rfl
  | ok result =>
    have hok : (applyEvaluation ids action.1 store action.2).isOk = true := by
      rw [hrun]
      rfl
    dsimp only [Except.toOption, Option.map_some, Option.getD_some]
    cases applyEvaluation_tierEffect hrun with
    | kept planned states events =>
      exact .kept (fun _ _ _ => planned) (by rw [tierEventsOf, events, tierEventsOf])
        (by rw [currentFor, states, currentFor])
    | moved decision target values state planned moves key tier watermark states events =>
      by_cases hkey : action.2.collectionEpochId = epoch ∧ action.2.evidence.tokenId = token
      · have hcurrent : currentFor epoch token result.1 = some state := by
          rw [currentFor, states, Table.find?_upsert, key, hkey.1, hkey.2, if_pos rfl]
        refine .moved decision target values state hkey.1 hkey.2 hok planned moves hcurrent tier
          watermark ?_
        have hvalues : values.collectionEpochId = epoch ∧ values.tokenId = token :=
          ⟨moves.epoch.trans hkey.1, moves.token.trans hkey.2⟩
        cases events with
        | inl hsame =>
          refine .inl ⟨by rw [tierEventsOf, hsame.1, tierEventsOf], ?_⟩
          exact List.mem_filter.mpr ⟨hsame.2, decide_eq_true hvalues⟩
        | inr hnew =>
          refine .inr ?_
          rw [tierEventsOf, hnew, List.filter_append, tierEventsOf]
          simp [hvalues]
      · refine .kept (fun hepoch htoken _ => absurd ⟨hepoch, htoken⟩ hkey) ?_ ?_
        · cases events with
          | inl hsame => rw [tierEventsOf, hsame.1, tierEventsOf]
          | inr hnew =>
            have hother : ¬ (values.collectionEpochId = epoch ∧ values.tokenId = token) := by
              rwa [moves.epoch, moves.token]
            rw [tierEventsOf, hnew, List.filter_append, tierEventsOf]
            simp [hother]
        · have hne : ¬ state.key = (epoch, token) := by
            rw [key, Prod.mk.injEq]
            exact hkey
          rw [currentFor, states, Table.find?_upsert, if_neg hne, currentFor]

/-- A repeated event belongs to a renewal: its token is already in the target tier. -/
theorem repeated_is_renewal {ids : CandidateIdentities} {epoch token : Uuid}
    {store : CandidateStore} {action : CandidatePolicy × EvaluationCall}
    {decision : EvaluationDecision} {target : CandidateTier} {values : CandidateTierEvent}
    (hchain : TierChain epoch token store)
    (hepoch : action.2.collectionEpochId = epoch) (htoken : action.2.evidence.tokenId = token)
    (hplanned : plannedTransition ids action.1 store action.2 = some (decision, target))
    (hmoves : Moves ids action.1 store action.2 target values)
    (hstored : values ∈ tierEventsOf epoch token store) :
    ∃ state, currentFor epoch token store = some state ∧ state.tier = target := by
  obtain ⟨state, hstate, hprecedes⟩ := hchain.precedes values hstored
  have hcurrent : currentOf store action.2 = some state := by
    rw [currentOf, hepoch, htoken]
    exact hstate
  have hnot := planned_not_older hplanned hcurrent
  rw [Precedes, hmoves.watermark, hmoves.target_eq] at hprecedes
  have hrank : tierRank state.tier = tierRank target := by omega
  exact ⟨state, hstate, tierRank_injective hrank⟩

theorem evaluationStep_tierChain {ids : CandidateIdentities} {epoch token : Uuid}
    {store : CandidateStore} (action : CandidatePolicy × EvaluationCall)
    (h : TierChain epoch token store) : TierChain epoch token (evaluationStep ids store action) := by
  cases evaluationStep_tokenMove ids epoch token store action with
  | kept silent events current =>
    refine ⟨by rw [events]; exact h.chained, by rw [current, events]; exact h.last, ?_⟩
    rw [events, current]
    exact h.precedes
  | moved decision target values state isEpoch isToken succeeds planned moves current tier
      watermark events =>
    have hcurrentOf : currentOf store action.2 = currentFor epoch token store := by
      rw [currentOf, isEpoch, isToken, currentFor]
    -- The projection only moves forward, so it stays ahead of the events it was ahead of.
    have hforward : ∀ event ∈ tierEventsOf epoch token store, Precedes event state := by
      intro event hevent
      obtain ⟨old, hold, hprecedes⟩ := h.precedes event hevent
      have hnot := planned_not_older planned (hcurrentOf.trans hold)
      unfold Precedes at *
      rw [watermark, tier]
      omega
    cases events with
    | inl hsame =>
      obtain ⟨old, hold, htier⟩ :=
        repeated_is_renewal h isEpoch isToken planned moves hsame.2
      refine ⟨by rw [hsame.1]; exact h.chained, ?_, ?_⟩
      · rw [hsame.1, ← h.last, current, hold]
        exact tier.trans htier.symm
      · rw [hsame.1]
        exact fun event hevent => ⟨state, current, hforward event hevent⟩
    | inr hnew =>
      have hprevious : values.previousTier = finalTier (tierEventsOf epoch token store) := by
        rw [moves.previous, hcurrentOf, h.last]
      refine ⟨by rw [hnew]; exact chained_append h.chained hprevious, ?_, ?_⟩
      · rw [hnew, current, finalTier, List.getLast?_append, List.getLast?_singleton]
        exact tier.trans moves.target_eq.symm
      · rw [hnew]
        intro event hevent
        refine ⟨state, current, ?_⟩
        cases List.mem_append.mp hevent with
        | inl hold => exact hforward event hold
        | inr hlast =>
          rw [List.mem_singleton.mp hlast]
          exact .inr ⟨by rw [moves.watermark, watermark], by rw [moves.target_eq, tier]⟩

/-! ### Reading the tier back -/

section AsOf
variable (H : Hashing) (uuidString : Uuid → String) (epoch token : Uuid)

def tierFactsOf (store : CandidateStore) : List CandidateTierFact :=
  (tierEventsOf epoch token store).map (candidateTierFact uuidString)

/-- The fact that decides the tier once all of them are visible. -/
def latestTierFact (facts : List CandidateTierFact) : Option CandidateTierFact :=
  firstMax (timeKey (·.decidedAt) (·.id)) facts

/-- A history that reads back, were it not for its tier facts. -/
def Readable (history : TokenHistory) (allowInvalidEpoch : Bool) : Prop :=
  (history.epochDataValid = true ∨ allowInvalidEpoch = true) ∧
    validateHistory { history with candidateTiers := [] } = .ok ()

/-- As of the latest decision, a history with the stored tier events of the token, in any order,
reads back as the live tier. -/
def AsOfAgrees (store : CandidateStore) : Prop :=
  ∀ (history : TokenHistory) (contract : FeatureSetContract) (allow : Bool) (t : Int),
    history.candidateTiers.Perm (tierFactsOf uuidString epoch token store) →
    Readable history allow →
    ((tierEventsOf epoch token store).map (·.decidedAt)).max? = some t →
    ∃ state fact current, getTokenStateAsOf H history t contract allow = .ok state ∧
      state.candidateTier = some fact ∧ currentFor epoch token store = some current ∧
      fact.newTier = current.tier.value

/-- No event of the token was decided before its watermark, and the one that decides the tier
has the live tier. -/
structure LatestIsLive (store : CandidateStore) : Prop where
  known : ∀ event ∈ tierEventsOf epoch token store, event.inputWatermark ≤ event.decidedAt
  live : ∀ fact, latestTierFact (tierFactsOf uuidString epoch token store) = some fact →
    ∃ current, currentFor epoch token store = some current ∧ fact.newTier = current.tier.value

end AsOf

section Reading
variable {H : Hashing} {uuidString : Uuid → String} {epoch token : Uuid} {store : CandidateStore}

theorem raiseOnFirst_eq_ok {α : Type} {bad : α → Bool} {error : α → Research.ResearchError}
    {xs : List α} {u : Unit} : raiseOnFirst bad error xs = .ok u ↔ ∀ x ∈ xs, bad x = false := by
  unfold raiseOnFirst
  cases hf : xs.find? bad with
  | none => simpa using List.find?_eq_none.mp hf
  | some a =>
    have hbad := List.find?_some hf
    have hmem := List.mem_of_find?_eq_some hf
    simp only [reduceCtorEq, false_iff, not_forall]
    exact ⟨a, hmem, by simp [hbad]⟩

/-- Tier facts are checked on their own. -/
theorem validateHistory_eq_ok {history : TokenHistory} :
    validateHistory history = .ok () ↔
      validateHistory { history with candidateTiers := [] } = .ok () ∧
        ∀ fact ∈ history.candidateTiers, fact.inputWatermark ≤ fact.decidedAt := by
  simp only [validateHistory, bind_eq_ok, raiseOnFirst_eq_ok, exists_const, decide_eq_false_iff_not,
    not_lt, List.not_mem_nil, false_imp_iff, implies_true, true_and]
  constructor
  · intro h
    obtain ⟨hlifecycle, hcontext, hcandidates, htiers, hsecurity⟩ := h
    exact ⟨⟨hlifecycle, hcontext, hcandidates, hsecurity⟩, htiers⟩
  · intro h
    obtain ⟨⟨hlifecycle, hcontext, hcandidates, hsecurity⟩, htiers⟩ := h
    exact ⟨hlifecycle, hcontext, hcandidates, htiers, hsecurity⟩

theorem getTokenStateAsOf_of_valid {history : TokenHistory} {t : Int}
    {contract : FeatureSetContract} {allow : Bool}
    (hepoch : history.epochDataValid = true ∨ allow = true)
    (hvalid : validateHistory history = .ok ()) :
    getTokenStateAsOf H history t contract allow = .ok (tokenState history t H contract) := by
  have hadmitted : ¬ (!history.epochDataValid && !allow) = true := by
    cases hepoch with
    | inl hvalidEpoch => simp [hvalidEpoch]
    | inr hallowed => simp [hallowed]
  rw [getTokenStateAsOf, guard_eq_ok, hvalid]
  exact ⟨hadmitted, rfl⟩

/-- With all tier facts visible, the reader takes the latest of them. -/
theorem latestCandidateTier_eq {history : TokenHistory} {t : Int}
    (hknown : ∀ fact ∈ history.candidateTiers, fact.inputWatermark ≤ fact.decidedAt)
    (hvisible : ∀ fact ∈ history.candidateTiers, fact.decidedAt ≤ t) :
    latestCandidateTier history t = latestTierFact history.candidateTiers := by
  have hall : history.candidateTiers.filter (fun item =>
      decide (item.decidedAt ≤ t) && decide (item.inputWatermark ≤ t)) =
      history.candidateTiers := by
    rw [List.filter_eq_self]
    intro fact hfact
    have hdecided := hvisible fact hfact
    have hwatermark := (hknown fact hfact).trans hdecided
    simp [hdecided, hwatermark]
  rw [latestCandidateTier, hall, latestTierFact]

/-- Tier facts have their own ids, so their order does not matter. -/
theorem latestTierFact_perm (hinjective : Function.Injective uuidString)
    {facts : List CandidateTierFact} (h : facts.Perm (tierFactsOf uuidString epoch token store)) :
    latestTierFact facts = latestTierFact (tierFactsOf uuidString epoch token store) := by
  have hids : ((tierFactsOf uuidString epoch token store).map (·.id)).Nodup := by
    rw [tierFactsOf, List.map_map]
    have hevents : ((tierEventsOf epoch token store).map (·.id)).Nodup :=
      store.tierEvents.nodup.sublist (List.filter_sublist.map _)
    have hmap := hevents.map hinjective
    rwa [List.map_map] at hmap
  have hsame : SameByKey (·.id) facts (tierFactsOf uuidString epoch token store) :=
    SameByKey.of_nodup ((h.map _).nodup_iff.mpr hids) hids fun _ => h.mem_iff
  exact (hsame.refine (Research.timeKey_refines _ _)).firstMax_eq

/-- Valid tier facts read back as the latest of them. -/
theorem readable_candidateTier (H : Hashing) (contract : FeatureSetContract)
    {history : TokenHistory} {allow : Bool} {t : Int} (hreadable : Readable history allow)
    (hknown : ∀ fact ∈ history.candidateTiers, fact.inputWatermark ≤ fact.decidedAt)
    (hvisible : ∀ fact ∈ history.candidateTiers, fact.decidedAt ≤ t) :
    ∃ state, getTokenStateAsOf H history t contract allow = .ok state ∧
      state.candidateTier = latestTierFact history.candidateTiers := by
  have hvalid := validateHistory_eq_ok.mpr ⟨hreadable.2, hknown⟩
  refine ⟨_, getTokenStateAsOf_of_valid hreadable.1 hvalid, ?_⟩
  simp only [tokenState]
  exact latestCandidateTier_eq hknown hvisible

theorem mem_tierFactsOf {fact : CandidateTierFact} :
    fact ∈ tierFactsOf uuidString epoch token store ↔
      ∃ event ∈ tierEventsOf epoch token store, candidateTierFact uuidString event = fact :=
  List.mem_map

theorem asOfAgrees_iff (hinjective : Function.Injective uuidString) :
    AsOfAgrees H uuidString epoch token store ↔ LatestIsLive uuidString epoch token store := by
  have hvisible {t : Int} (hmax : ((tierEventsOf epoch token store).map (·.decidedAt)).max? = some t)
      (fact : CandidateTierFact) (hfact : fact ∈ tierFactsOf uuidString epoch token store) :
      fact.decidedAt ≤ t := by
    obtain ⟨event, hevent, rfl⟩ := mem_tierFactsOf.mp hfact
    exact (List.max?_eq_some_iff.mp hmax).2 _ (List.mem_map_of_mem hevent)
  constructor
  · intro h
    cases hmax : ((tierEventsOf epoch token store).map (·.decidedAt)).max? with
    | none =>
      have hnone : tierEventsOf epoch token store = [] := by
        simpa [List.max?_eq_none_iff] using hmax
      refine ⟨by simp [hnone], fun fact hfact => ?_⟩
      rw [tierFactsOf, hnone] at hfact
      cases hfact
    | some t =>
      have hreadable : Readable
          { epochId := "", epochNumber := 0, epochDataValid := true, tokenId := "", chain := "",
            address := "", candidateTiers := tierFactsOf uuidString epoch token store } true :=
        ⟨.inl rfl, rfl⟩
      obtain ⟨state, fact, current, hstate, hfact, hcurrent, htier⟩ :=
        h _ { } true t (List.Perm.refl _) hreadable hmax
      obtain ⟨hvalid, _⟩ := Research.getTokenStateAsOf_eq_ok hstate
      have hknown := (validateHistory_eq_ok.mp hvalid).2
      obtain ⟨read, hread, hlatest⟩ :=
        readable_candidateTier H { } hreadable hknown (hvisible hmax)
      cases hstate.symm.trans hread
      rw [hfact] at hlatest
      refine ⟨fun event hevent => hknown _ (List.mem_map_of_mem hevent), fun other hother => ?_⟩
      cases hlatest.trans hother
      exact ⟨current, hcurrent, htier⟩
  · intro h history contract allow t hperm hreadable hmax
    have hknown : ∀ fact ∈ history.candidateTiers, fact.inputWatermark ≤ fact.decidedAt := by
      intro fact hfact
      obtain ⟨event, hevent, rfl⟩ := mem_tierFactsOf.mp (hperm.mem_iff.mp hfact)
      exact h.known event hevent
    obtain ⟨state, hstate, hlatest⟩ := readable_candidateTier H contract hreadable
      hknown fun fact hfact => hvisible hmax fact (hperm.mem_iff.mp hfact)
    rw [latestTierFact_perm hinjective hperm] at hlatest
    cases hfact : latestTierFact (tierFactsOf uuidString epoch token store) with
    | none =>
      have hnone := firstMax_eq_none.mp hfact
      rw [tierFactsOf, List.map_eq_nil_iff] at hnone
      rw [hnone] at hmax
      cases hmax
    | some fact =>
      obtain ⟨current, hcurrent, htier⟩ := h.live fact hfact
      exact ⟨state, fact, current, hstate, hlatest.trans hfact, hcurrent, htier⟩

end Reading

/-! ### Runs -/

/-- A transition of the token is known by its decision time, and its event follows the latest
one by decision time and then by id, unless that one already has its tier. -/
def InOrder (ids : CandidateIdentities) (uuidString : Uuid → String) (epoch token : Uuid)
    (store : CandidateStore) (action : CandidatePolicy × EvaluationCall) : Prop :=
  action.2.collectionEpochId = epoch → action.2.evidence.tokenId = token →
  (applyEvaluation ids action.1 store action.2).isOk = true →
  ∀ planned ∈ plannedTransition ids action.1 store action.2,
    action.2.evidence.watermark ≤ action.2.now ∧
    ∀ latest ∈ latestTierFact (tierFactsOf uuidString epoch token store),
      timeKey (·.decidedAt) (·.id) latest <
        toLex (action.2.now, uuidString (tierEventId ids action.1 store action.2 planned.2)) ∨
      latest.newTier = planned.2.value

instance decidableInOrder (ids : CandidateIdentities) (uuidString : Uuid → String)
    (epoch token : Uuid) (store : CandidateStore) (action : CandidatePolicy × EvaluationCall) :
    Decidable (InOrder ids uuidString epoch token store action) :=
  inferInstanceAs (Decidable (_ → _ → _ → ∀ planned ∈ plannedTransition ids action.1 store action.2,
    _ ∧ ∀ latest ∈ latestTierFact (tierFactsOf uuidString epoch token store), _ ∨ _))

section Runs
variable {ids : CandidateIdentities} {uuidString : Uuid → String} {epoch token : Uuid}
  {store : CandidateStore} {action : CandidatePolicy × EvaluationCall}

theorem latestTierFact_append (facts : List CandidateTierFact) (fact : CandidateTierFact) :
    latestTierFact (facts ++ [fact]) = match latestTierFact facts with
      | none => some fact
      | some latest =>
        if timeKey (·.decidedAt) (·.id) latest < timeKey (·.decidedAt) (·.id) fact then some fact
        else some latest := by
  rw [latestTierFact, firstMax, List.argmax_concat, latestTierFact, firstMax]
  cases List.argmax (timeKey (·.decidedAt) (·.id)) facts with
  | none => rfl
  | some latest => rfl

/-- One more event leaves the live tier latest exactly when it is in order. -/
theorem latestIsLive_append {values : CandidateTierEvent} {state : CandidateCurrentState}
    {target : CandidateTier} {store' : CandidateStore}
    (h : LatestIsLive uuidString epoch token store)
    (hmoves : Moves ids action.1 store action.2 target values)
    (hcurrent : currentFor epoch token store' = some state) (htier : state.tier = target)
    (hevents : tierEventsOf epoch token store' = tierEventsOf epoch token store ++ [values]) :
    LatestIsLive uuidString epoch token store' ↔
      action.2.evidence.watermark ≤ action.2.now ∧
      ∀ latest ∈ latestTierFact (tierFactsOf uuidString epoch token store),
        timeKey (·.decidedAt) (·.id) latest <
          toLex (action.2.now, uuidString (tierEventId ids action.1 store action.2 target)) ∨
        latest.newTier = target.value := by
  have hfacts : tierFactsOf uuidString epoch token store' =
      tierFactsOf uuidString epoch token store ++ [candidateTierFact uuidString values] := by
    rw [tierFactsOf, hevents, List.map_append, tierFactsOf]
    rfl
  have hkey : timeKey (·.decidedAt) (·.id) (candidateTierFact uuidString values) =
      toLex (action.2.now, uuidString (tierEventId ids action.1 store action.2 target)) := by
    rw [← hmoves.id_eq, ← hmoves.decided]
    rfl
  have hlast := latestTierFact_append (tierFactsOf uuidString epoch token store)
    (candidateTierFact uuidString values)
  rw [← hfacts, hkey] at hlast
  have hnew : (candidateTierFact uuidString values).newTier = target.value :=
    congrArg CandidateTier.value hmoves.target_eq
  constructor
  · intro hlive
    have hknown := hlive.known values (by rw [hevents]; simp)
    rw [hmoves.watermark, hmoves.decided] at hknown
    refine ⟨hknown, fun latest hlatest => ?_⟩
    rw [Option.mem_def.mp hlatest] at hlast
    by_cases hlt : timeKey (·.decidedAt) (·.id) latest <
        toLex (action.2.now, uuidString (tierEventId ids action.1 store action.2 target))
    · exact .inl hlt
    · simp only [hlt, if_false] at hlast
      obtain ⟨current, hfound, hsame⟩ := hlive.live latest hlast
      cases hcurrent.symm.trans hfound
      exact .inr (by rw [hsame, htier])
  · intro horder
    obtain ⟨hknown, hlatest⟩ := horder
    constructor
    · intro event hevent
      rw [hevents] at hevent
      cases List.mem_append.mp hevent with
      | inl hold => exact h.known event hold
      | inr hin =>
        rw [List.mem_singleton.mp hin, hmoves.watermark, hmoves.decided]
        exact hknown
    · intro fact hfact
      refine ⟨state, hcurrent, ?_⟩
      rw [htier]
      rw [hlast] at hfact
      cases hl : latestTierFact (tierFactsOf uuidString epoch token store) with
      | none =>
        rw [hl] at hfact
        cases hfact
        exact hnew
      | some latest =>
        rw [hl] at hfact
        dsimp only at hfact
        split at hfact
        · cases hfact
          exact hnew
        · next hge =>
          cases hfact
          exact (hlatest _ hl).resolve_left hge

theorem evaluationStep_live_iff (hchain : TierChain epoch token store)
    (h : LatestIsLive uuidString epoch token store) :
    LatestIsLive uuidString epoch token (evaluationStep ids store action) ↔
      InOrder ids uuidString epoch token store action := by
  cases evaluationStep_tokenMove ids epoch token store action with
  | kept silent events current =>
    refine iff_of_true ⟨by rw [events]; exact h.known, ?_⟩ ?_
    · rw [tierFactsOf, events, current]
      exact h.live
    · intro hepoch htoken hok planned hplanned
      rw [silent hepoch htoken hok] at hplanned
      cases hplanned
  | moved decision target values state isEpoch isToken succeeds planned moves current tier
      watermark events =>
    have hiff : InOrder ids uuidString epoch token store action ↔
        action.2.evidence.watermark ≤ action.2.now ∧
        ∀ latest ∈ latestTierFact (tierFactsOf uuidString epoch token store),
          timeKey (·.decidedAt) (·.id) latest <
            toLex (action.2.now, uuidString (tierEventId ids action.1 store action.2 target)) ∨
          latest.newTier = target.value := by
      rw [InOrder, planned]
      simp [isEpoch, isToken, succeeds]
    rw [hiff]
    cases events with
    | inl hsame =>
      obtain ⟨old, hold, htier⟩ :=
        repeated_is_renewal hchain isEpoch isToken planned moves hsame.2
      have hlatest : ∀ fact, latestTierFact (tierFactsOf uuidString epoch token store) =
          some fact → fact.newTier = target.value := by
        intro fact hfact
        obtain ⟨found, hfound, hnewTier⟩ := h.live fact hfact
        cases hold.symm.trans hfound
        rw [hnewTier, htier]
      have hknown := h.known values hsame.2
      rw [moves.watermark, moves.decided] at hknown
      refine iff_of_true ⟨by rw [hsame.1]; exact h.known, ?_⟩
        ⟨hknown, fun fact hfact => .inr (hlatest fact hfact)⟩
      intro fact hfact
      rw [tierFactsOf, hsame.1] at hfact
      exact ⟨state, current, by rw [tier]; exact hlatest fact hfact⟩
    | inr hnew => exact latestIsLive_append h moves current tier hnew

end Runs

/-- The stored events chain, and the reader's choice among them has the live tier. -/
structure TierReadBack (H : Hashing) (uuidString : Uuid → String) (epoch token : Uuid)
    (store : CandidateStore) : Prop where
  agrees : AsOfAgrees H uuidString epoch token store
  chained : Chained (tierEventsOf epoch token store)

/-- For a token without a projection or tier events: along a run of evaluations its tier is read
back, and its events chain, exactly when its transitions come in the reader's order. -/
theorem tier_read_back_iff (H : Hashing) (ids : CandidateIdentities) (uuidString : Uuid → String)
    (hinjective : Function.Injective uuidString) (epoch token : Uuid) (store : CandidateStore)
    (hcurrent : currentFor epoch token store = none)
    (hevents : tierEventsOf epoch token store = [])
    (actions : List (CandidatePolicy × EvaluationCall)) :
    Always (evaluationStep ids) (TierReadBack H uuidString epoch token) store actions ↔
      Steps (evaluationStep ids) (InOrder ids uuidString epoch token) store actions := by
  have hchain : TierChain epoch token store := by
    refine ⟨by rw [hevents]; exact ⟨by simp, List.isChain_nil⟩, ?_, by rw [hevents]; simp⟩
    rw [hcurrent, hevents]
    rfl
  have hlive : LatestIsLive uuidString epoch token store := by
    refine ⟨by rw [hevents]; simp, fun fact hfact => ?_⟩
    rw [tierFactsOf, hevents] at hfact
    cases hfact
  refine always_iff_steps (I := TierChain epoch token)
    (fun s action h => evaluationStep_tierChain action h) (fun s action hI hP => ?_) hchain
    ⟨(asOfAgrees_iff hinjective).mpr hlive, hchain.chained⟩ actions
  have hiff : AsOfAgrees H uuidString epoch token (evaluationStep ids s action) ↔
      InOrder ids uuidString epoch token s action :=
    (asOfAgrees_iff hinjective).trans
      (evaluationStep_live_iff hI ((asOfAgrees_iff hinjective).mp hP.agrees))
  exact ⟨fun h => hiff.mp h.agrees,
    fun h => ⟨hiff.mpr h, (evaluationStep_tierChain action hI).chained⟩⟩

/-- Texts of ids for evaluating the model, in the order of the ids. -/
def unaryUuid (id : Uuid) : String := String.ofList (List.replicate id 'u')

theorem unaryUuid_injective : Function.Injective unaryUuid := by
  intro a b h
  have hlength := congrArg (fun text => text.toList.length) h
  simpa [unaryUuid] using hlength

/-- Ids of tier events that get smaller towards higher tiers. -/
def fallingIdentities : CandidateIdentities :=
  { secondIdentities with
    tierKey := fun semantic => String.ofList (List.replicate (4 - tierRank semantic.target) 't') }

/-- A token is promoted at 10 s and again at 20 s. -/
theorem tier_read_back_later :
    Always (evaluationStep fallingIdentities)
      (TierReadBack Research.plainHashing unaryUuid 1 1) twoPolled
      [(oneOverride, activeCall 1 10 .tier0Universal),
        (oneOverride, activeCall 1 20 .tier1Interesting)] :=
  (tier_read_back_iff Research.plainHashing fallingIdentities unaryUuid unaryUuid_injective 1 1
    twoPolled rfl rfl _).mpr (by decide +kernel)

/-- Two promotions at 10 s on one evidence: the second event has the smaller id, and the reader
still takes the first. -/
theorem promotions_at_one_watermark_read_back_first :
    ¬ ∀ (H : Hashing) (ids : CandidateIdentities) (uuidString : Uuid → String),
      Function.Injective uuidString → ∀ (epoch token : Uuid) (store : CandidateStore),
      currentFor epoch token store = none → tierEventsOf epoch token store = [] →
      ∀ actions : List (CandidatePolicy × EvaluationCall),
      Always (evaluationStep ids) (TierReadBack H uuidString epoch token) store actions := by
  intro h
  have hagrees := (h Research.plainHashing fallingIdentities unaryUuid unaryUuid_injective 1 1
    twoPolled rfl rfl [(oneOverride, activeCall 1 10 .tier0Universal),
      (oneOverride, activeCall 1 10 .tier1Interesting)]).final.agrees
  have hlive := ((asOfAgrees_iff unaryUuid_injective).mp hagrees).live
  have hread : ∃ fact ∈ latestTierFact (tierFactsOf unaryUuid 1 1 (run
      (evaluationStep fallingIdentities) twoPolled [(oneOverride, activeCall 1 10 .tier0Universal),
        (oneOverride, activeCall 1 10 .tier1Interesting)])),
      fact.newTier = "TIER_1_INTERESTING" := by decide +kernel
  have hcurrent : ∀ current ∈ currentFor 1 1 (run (evaluationStep fallingIdentities) twoPolled
      [(oneOverride, activeCall 1 10 .tier0Universal),
        (oneOverride, activeCall 1 10 .tier1Interesting)]),
      current.tier.value ≠ "TIER_1_INTERESTING" := by decide +kernel
  obtain ⟨fact, hfact, htier⟩ := hread
  obtain ⟨current, hfound, hsame⟩ := hlive fact hfact
  exact hcurrent current hfound (hsame.symm.trans htier)

end PumpResearch.Candidates
