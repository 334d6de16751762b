import PumpResearch.Candidates.CoverageCap
import PumpResearch.Candidates.EpochSimulation
import PumpResearch.Library.CountableTexts

/-! The live orchestrator on market observations alone. Its projection follows the machine of the
simulation, and its stored events are what the simulation counts. -/
namespace PumpResearch.Candidates
open CountableTexts KeyedMachines KeyedTable OrderedDict Results Runs Scheduling

/-- Digests and derived UUIDs that tell their documents apart. -/
structure SeparatingIdentities (ids : CandidateIdentities) : Prop where
  evidence : Function.Injective ids.evidenceSha256
  candidate : Function.Injective ids.candidateKey
  tier : Function.Injective ids.tierKey
  uuid5 : Function.Injective ids.uuid5

/-- A market observation with what its evaluation reads besides. -/
structure MarketObservation extends EvidenceRow where
  collectorRunId : Option Uuid
  observationId : String
  lifecycleState : String
  coverageClass : String
  admittedAt : Int

/-- The evidence of an observation, evaluated as it is received. -/
def MarketObservation.evidence (observation : MarketObservation) : CandidateEvidence where
  tokenId := observation.tokenId
  evaluatedAt := observation.receivedAt
  watermark := observation.receivedAt
  lifecycleState := observation.lifecycleState
  coverageClass := observation.coverageClass
  admittedAt := observation.admittedAt
  observationId := some observation.observationId
  observationReceivedAt := some observation.receivedAt
  liquidityUsd := observation.liquidityUsd
  volumeM5Usd := observation.volumeM5Usd
  buysM5 := observation.buysM5
  sellsM5 := observation.sellsM5
  watermark_le := le_rfl
  received_le := by simp [EvidenceFields.receiptTimes]

/-! ### The decision -/

section Decision
variable {divide : ℚ → ℚ → ℚ} {sha256 : CandidateEvidence → String} {policy : CandidatePolicy}

/-- Without other evidence a token in the two lower tiers is judged by its market alone. -/
theorem evaluate_market (observation : MarketObservation) {tier : CandidateTier}
    (htier : tier = .tier0Universal ∨ tier = .tier1Interesting) :
    let decision := policy.evaluate divide sha256 observation.evidence tier
    let eligible := marketEligible divide policy observation.toEvidenceRow
    decision.eligible = eligible ∧
      decision.targetTier = (if eligible then .tier1Interesting else .tier0Universal) ∧
      decision.coverageUntil =
        (if eligible then some (observation.receivedAt + policy.tier1Ttl) else none) := by
  have hlow : (tier = .tier2Investigate || tier = .tier3DeepReview) = false := by
    cases htier with
    | inl h => rw [h]; rfl
    | inr h => rw [h]; rfl
  have hmarket : marketAtLeast observation.evidence
      (observation.evidence.volumeLiquidityRatio divide) policy.minimumLiquidityUsd
      policy.minimumTransactionsM5 policy.minimumVolumeLiquidityRatio =
      marketEligible divide policy observation.toEvidenceRow := rfl
  have hfresh : presentAnd observation.evidence.securityReceivedAt (fun received =>
      decide (observation.evidence.evaluatedAt - received ≤ policy.securityFreshness)) = false := rfl
  have hreason : CandidatePolicy.nominationReason observation.evidence
      (marketEligible divide policy observation.toEvidenceRow) =
      if marketEligible divide policy observation.toEvidenceRow then
        some (if observation.lifecycleState = "WATCH" then .watchState else .marketActivity)
      else none := by
    cases marketEligible divide policy observation.toEvidenceRow with
    | true =>
      by_cases hwatch : observation.lifecycleState = "WATCH"
      · simp [CandidatePolicy.nominationReason, MarketObservation.evidence, hwatch]
      · simp [CandidatePolicy.nominationReason, MarketObservation.evidence, hwatch]
    | false => simp [CandidatePolicy.nominationReason, MarketObservation.evidence]
  simp only [CandidatePolicy.evaluate, hlow, Bool.false_and, hmarket, hfresh, Bool.and_false,
    hreason]
  cases marketEligible divide policy observation.toEvidenceRow with
  | true => exact ⟨rfl, rfl, rfl⟩
  | false => exact ⟨rfl, rfl, rfl⟩

end Decision

/-! ### Storing what is new -/

/-- A candidate event under its own names. -/
def CandidateEvent.Named (ids : CandidateIdentities) (event : CandidateEvent) : Prop :=
  event.idempotencyKey = ids.candidateKey ⟨event.collectionEpochId, event.tokenId,
    event.inputWatermark, event.evidenceSha256, event.policySha256, event.triggerType⟩ ∧
  event.id = ids.uuid5 ("pump-research:candidate:" ++ event.idempotencyKey)

def CandidateTierEvent.Named (ids : CandidateIdentities) (event : CandidateTierEvent) : Prop :=
  event.idempotencyKey = ids.tierKey ⟨event.collectionEpochId, event.tokenId, event.previousTier,
    event.newTier, event.inputWatermark, event.evidenceSha256, event.policySha256⟩ ∧
  event.id = ids.uuid5 ("pump-research:candidate-tier:" ++ event.idempotencyKey)

section Storing
variable {ids : CandidateIdentities} (hids : SeparatingIdentities ids)

include hids

/-- A row under a new name is found as it was inserted. -/
theorem insert_unused {α : Type} {id : α → Uuid} {name : α → String} (start : String)
    {table : Table id} {values : α}
    (hnamed : ∀ row ∈ table.rows, id row = ids.uuid5 (start ++ name row))
    (hvalues : id values = ids.uuid5 (start ++ name values))
    (hunused : ∀ row ∈ table.rows, name row ≠ name values) :
    table.rows.any (name · = name values) = false ∧
      (table.insertNew values).rows = table.rows ++ [values] ∧
      (table.insertNew values).find? (id values) = some values := by
  have hfree : table.find? (id values) = none := by
    rw [Table.find?_eq_none_iff]
    intro row hrow hsame
    rw [hnamed row hrow, hvalues] at hsame
    exact hunused row hrow ((String.append_right_inj start).mp (hids.uuid5 hsame))
  refine ⟨by simpa [List.any_eq_false] using hunused,
    Table.rows_insertNew_of_find?_eq_none hfree, ?_⟩
  rw [Table.find?_insertNew, hfree]
  simp

theorem persistCandidate_later {table : Table CandidateEvent.id} {values : CandidateEvent}
    (hnamed : ∀ row ∈ table.rows, row.Named ids) (hvalues : values.Named ids)
    (hlater : ∀ row ∈ table.rows, row.collectionEpochId = values.collectionEpochId →
      row.tokenId = values.tokenId → row.inputWatermark < values.inputWatermark) :
    persistCandidate values table = .ok (table.insertNew values, values) ∧
      (table.insertNew values).rows = table.rows ++ [values] := by
  have hunused : ∀ row ∈ table.rows, row.idempotencyKey ≠ values.idempotencyKey := by
    intro row hrow hsame
    rw [(hnamed row hrow).1, hvalues.1] at hsame
    have hsemantic := hids.candidate hsame
    injection hsemantic with hepoch htoken hwatermark
    have hlt := hlater row hrow hepoch htoken
    omega
  obtain ⟨hany, hrows, hfound⟩ := insert_unused hids "pump-research:candidate:"
    (fun row hrow => (hnamed row hrow).2) hvalues.2 hunused
  exact ⟨by simp [persistCandidate, hany, hfound, candidateEqual], hrows⟩

theorem persistTierEvent_later {table : Table CandidateTierEvent.id} {values : CandidateTierEvent}
    (hnamed : ∀ row ∈ table.rows, row.Named ids) (hvalues : values.Named ids)
    (hlater : ∀ row ∈ table.rows, row.collectionEpochId = values.collectionEpochId →
      row.tokenId = values.tokenId → row.inputWatermark < values.inputWatermark) :
    persistTierEvent values table = .ok (table.insertNew values, values) ∧
      (table.insertNew values).rows = table.rows ++ [values] := by
  have hunused : ∀ row ∈ table.rows, row.idempotencyKey ≠ values.idempotencyKey := by
    intro row hrow hsame
    rw [(hnamed row hrow).1, hvalues.1] at hsame
    have hsemantic := hids.tier hsame
    injection hsemantic with hepoch htoken _ _ hwatermark
    have hlt := hlater row hrow hepoch htoken
    omega
  obtain ⟨hany, hrows, hfound⟩ := insert_unused hids "pump-research:candidate-tier:"
    (fun row hrow => (hnamed row hrow).2) hvalues.2 hunused
  exact ⟨by simp [persistTierEvent, hany, hfound], hrows⟩

end Storing

section Writing
variable {ids : CandidateIdentities} {policy : CandidatePolicy} {store : CandidateStore}
  {call : EvaluationCall} {target : CandidateTier}

theorem createTasks_total (hattempts : 0 < call.taskMaxAttempts)
    (candidate : Option CandidateEvent) (table : TaskTable) :
    ∃ table', createTasks ids call candidate target table = .ok table' := by
  cases candidate with
  | none => exact ⟨table, rfl⟩
  | some candidate =>
    have hcreated : ∀ table analysisType, ∃ table', createTask ids.task candidate.taskSource target
        analysisType call.taskMaxAttempts call.now table = .ok table' ∧ True := by
      intro table analysisType
      simp only [createTask, hattempts, dif_pos]
      split
      · exact ⟨_, rfl, trivial⟩
      · exact ⟨_, rfl, trivial⟩
    obtain ⟨table', htasks, _⟩ := foldlM_total
      (fun table analysisType => createTask ids.task candidate.taskSource target analysisType
        call.taskMaxAttempts call.now table) (fun _ => True) (taskTypesFor target) table
      (fun table analysisType _ _ => hcreated table analysisType) trivial
    exact ⟨table', htasks⟩

/-- A token that has a schedule keeps one, and so do the others. -/
theorem rescheduleToken_total (hinterval : 0 < (policy.coverageInterval / 1000000).toNat)
    (expires : Option Int) (tierEventId : Uuid) (table : ScheduleTable) :
    ∃ table', rescheduleToken policy call target expires tierEventId table = .ok table' ∧
      ∀ token, (table'.find? token).isSome = (table.find? token).isSome := by
  unfold rescheduleToken
  cases hfound : table.find? call.evidence.tokenId with
  | none => exact ⟨table, rfl, fun _ => rfl⟩
  | some schedule =>
    have hwritten : ∃ schedule',
        rescheduled policy call.now target expires tierEventId schedule = .ok schedule' := by
      unfold rescheduled newOverlay
      by_cases htarget : target = .tier0Universal
      · exact ⟨_, if_pos htarget⟩
      · rw [if_neg htarget]
        cases expires with
        | none =>
          dsimp only
          split
          · exact ⟨_, rfl⟩
          · exact ⟨_, rfl⟩
        | some expiresAt =>
          simp only [hinterval, dif_pos]
          exact ⟨_, rfl⟩
    obtain ⟨schedule', hschedule⟩ := hwritten
    refine ⟨table.write [schedule'], by simp only [hschedule, ok_bind]; rfl, fun token => ?_⟩
    rw [Table.find?_write, Option.isSome_map]

/-- What a transition that is written does to the store. -/
structure Written (ids : CandidateIdentities) (policy : CandidatePolicy) (store : CandidateStore)
    (call : EvaluationCall) (decision : EvaluationDecision) (target : CandidateTier)
    (store' : CandidateStore) (state : CandidateCurrentState) (added : List CandidateEvent)
    (event : CandidateTierEvent) : Prop where
  states : store'.currentStates = (store.currentStates.insertNew state).write [state]
  key : state.key = (call.collectionEpochId, call.evidence.tokenId)
  tier : state.tier = target
  coverage : state.coverageExpiresAt = renewedUntil policy store call decision target
  evaluation : state.nextEvaluationAt =
    (renewedUntil policy store call decision target).getD (call.now + seconds 60)
  watermark : state.inputWatermark = call.evidence.watermark
  digest : state.evidenceSha256 = ids.evidenceSha256 call.evidence
  candidates : store'.candidateEvents.rows = store.candidateEvents.rows ++ added
  nominations : added.length = if target = .tier0Universal then 0 else 1
  nomination : ∀ candidate ∈ added, candidate.Named ids ∧
    candidate.collectionEpochId = call.collectionEpochId ∧
    candidate.tokenId = call.evidence.tokenId ∧
    candidate.inputWatermark = call.evidence.watermark
  tierEvents : store'.tierEvents.rows = store.tierEvents.rows ++ [event]
  eventNamed : event.Named ids
  eventEpoch : event.collectionEpochId = call.collectionEpochId
  eventToken : event.tokenId = call.evidence.tokenId
  eventWatermark : event.inputWatermark = call.evidence.watermark
  previous : event.previousTier = previousTier (currentOf store call)
  new : event.newTier = target
  schedules : ∀ token,
    (store'.schedules.find? token).isSome = (store.schedules.find? token).isSome

/-- The stored events lie before the watermark of a call, under their own names. -/
structure Earlier (ids : CandidateIdentities) (store : CandidateStore) (call : EvaluationCall) :
    Prop where
  candidates : ∀ row ∈ store.candidateEvents.rows, row.Named ids
  tiers : ∀ row ∈ store.tierEvents.rows, row.Named ids
  candidatesBefore : ∀ row ∈ store.candidateEvents.rows,
    row.collectionEpochId = call.collectionEpochId → row.tokenId = call.evidence.tokenId →
      row.inputWatermark < call.evidence.watermark
  tiersBefore : ∀ row ∈ store.tierEvents.rows,
    row.collectionEpochId = call.collectionEpochId → row.tokenId = call.evidence.tokenId →
      row.inputWatermark < call.evidence.watermark

theorem persistNomination_later (hids : SeparatingIdentities ids) (h : Earlier ids store call)
    (decision : EvaluationDecision) :
    ∃ table candidate added,
      persistNomination ids policy call decision target store.candidateEvents =
        .ok (table, candidate) ∧
      table.rows = store.candidateEvents.rows ++ added ∧
      added.length = (if target = .tier0Universal then 0 else 1) ∧
      ∀ candidate ∈ added, candidate.Named ids ∧
        candidate.collectionEpochId = call.collectionEpochId ∧
        candidate.tokenId = call.evidence.tokenId ∧
        candidate.inputWatermark = call.evidence.watermark := by
  unfold persistNomination
  by_cases htarget : target = .tier0Universal
  · refine ⟨_, _, [], if_pos htarget, (List.append_nil _).symm, (if_pos htarget).symm, ?_⟩
    intro candidate hcandidate
    cases hcandidate
  · let values := candidateValues ids call.collectionEpochId call.collectorRunId call.evidence
      decision policy
    obtain ⟨hstored, hrows⟩ := @persistCandidate_later ids hids store.candidateEvents values h.candidates
      ⟨rfl, rfl⟩ h.candidatesBefore
    refine ⟨_, some values, [values], ?_, hrows, (if_neg htarget).symm, ?_⟩
    · rw [if_neg htarget, hstored]
      rfl
    · intro candidate hcandidate
      rw [List.mem_singleton.mp hcandidate]
      exact ⟨⟨rfl, rfl⟩, rfl, rfl, rfl⟩

/-- A transition to a new watermark is written with all its events. -/
theorem writeTransition_later (hids : SeparatingIdentities ids) (h : Earlier ids store call)
    (hinterval : 0 < (policy.coverageInterval / 1000000).toNat)
    (hattempts : 0 < call.taskMaxAttempts) (decision : EvaluationDecision) :
    ∃ store' result state added event,
      writeTransition ids policy store call decision target = .ok (store', result) ∧
        Written ids policy store call decision target store' state added event := by
  let admitted := coverageAdmitted policy store call target
  let audited := auditedDecision policy decision admitted
  obtain ⟨candidates, candidate, added, hnominated, hcandidates, hlength, hadded⟩ :=
    @persistNomination_later ids policy store call target hids h audited
  let event := tierEventValues ids call.collectionEpochId call.collectorRunId
    (candidate.map (·.id)) (previousTier (currentOf store call)) target call.evidence audited
    policy call.now
  obtain ⟨hevent, htiers⟩ := @persistTierEvent_later ids hids store.tierEvents event h.tiers
    ⟨rfl, rfl⟩ h.tiersBefore
  obtain ⟨schedules, hscheduled, hkept⟩ := @rescheduleToken_total policy call target hinterval
    (renewedUntil policy store call decision target) event.id store.schedules
  obtain ⟨tasks, htasks⟩ := @createTasks_total ids call target hattempts candidate store.tasks
  let state := nextCurrentState ids policy call (currentOf store call) candidate event target
    (renewedUntil policy store call decision target)
  have hrun : ∃ result, writeTransition ids policy store call decision target =
      .ok ({ store with
        currentStates := (store.currentStates.insertNew state).write [state]
        schedules := schedules
        candidateEvents := candidates
        tierEvents := store.tierEvents.insertNew event
        tasks := tasks }, result) := by
    simp only [writeTransition, bind_eq_ok, pure_eq_ok]
    exact ⟨_, _, hnominated, _, hevent, _, hscheduled, _, htasks, rfl⟩
  obtain ⟨result, hrun⟩ := hrun
  exact ⟨_, result, state, added, event, hrun, {
    states := rfl
    key := rfl
    tier := rfl
    coverage := rfl
    evaluation := rfl
    watermark := rfl
    digest := rfl
    candidates := hcandidates
    nominations := hlength
    nomination := hadded
    tierEvents := htiers
    eventNamed := ⟨rfl, rfl⟩
    eventEpoch := rfl
    eventToken := rfl
    eventWatermark := rfl
    previous := rfl
    new := rfl
    schedules := hkept }⟩

end Writing

/-! ### The live orchestrator -/

section Live
variable (ids : CandidateIdentities) (divide : ℚ → ℚ → ℚ) (policy : CandidatePolicy)
  (collectionEpochId : Uuid) (taskMaxAttempts : Nat)

/-- The evaluation of an observation against the tier that its token is in. -/
def observationCall (store : CandidateStore) (observation : MarketObservation) :
    EvaluationCall where
  collectionEpochId := collectionEpochId
  collectorRunId := observation.collectorRunId
  evidence := observation.evidence
  decision := policy.evaluate divide ids.evidenceSha256 observation.evidence
    (previousTier (store.currentStates.find? (collectionEpochId, observation.tokenId)))
  now := observation.receivedAt
  taskMaxAttempts := taskMaxAttempts

/-- One observation; a call that raises is rolled back. -/
def observe (store : CandidateStore) (observation : MarketObservation) : CandidateStore :=
  ((applyEvaluation ids policy store (observationCall ids divide policy collectionEpochId
    taskMaxAttempts store observation)).toOption.map (·.1)).getD store

/-- Stored tier events of an epoch from one tier to another. -/
def tierMoves (previous new : CandidateTier) (store : CandidateStore) : Nat :=
  store.tierEvents.rows.countP fun event =>
    event.collectionEpochId = collectionEpochId ∧ event.previousTier = previous ∧
      event.newTier = new

/-- Stored candidate events of an epoch. -/
def nominations (store : CandidateStore) : Nat :=
  store.candidateEvents.rows.countP (·.collectionEpochId = collectionEpochId)

end Live

/-- The projection of a token and the expiry that the simulation keeps for it. -/
inductive StateAgrees (ids : CandidateIdentities) :
    Option CandidateCurrentState → Option Int → Prop
  | universal {current : Option CandidateCurrentState}
      (tier : previousTier current = .tier0Universal) : StateAgrees ids current none
  | interesting {state : CandidateCurrentState} {expires : Int} (evidence : CandidateEvidence)
      (tier : state.tier = .tier1Interesting) (coverage : state.coverageExpiresAt = some expires)
      (evaluation : state.nextEvaluationAt = expires)
      (digest : state.evidenceSha256 = ids.evidenceSha256 evidence)
      (watermark : evidence.watermark = state.inputWatermark) :
      StateAgrees ids (some state) (some expires)

theorem StateAgrees.tier {ids : CandidateIdentities} {current : Option CandidateCurrentState}
    {expires : Option Int} (h : StateAgrees ids current expires) :
    previousTier current = .tier0Universal ∨ previousTier current = .tier1Interesting := by
  cases h with
  | universal tier => exact .inl tier
  | interesting _ tier => exact .inr tier

theorem StateAgrees.universal_iff {ids : CandidateIdentities}
    {current : Option CandidateCurrentState} {expires : Option Int}
    (h : StateAgrees ids current expires) :
    previousTier current = .tier0Universal ↔ expires = none := by
  cases h with
  | universal tier => simp [tier]
  | interesting _ tier => simp [previousTier, tier]

theorem StateAgrees.interesting_of {ids : CandidateIdentities}
    {current : Option CandidateCurrentState} {expires : Option Int}
    (h : StateAgrees ids current expires) (hexpires : expires ≠ none) :
    previousTier current = .tier1Interesting :=
  h.tier.resolve_left fun huniversal => hexpires (h.universal_iff.mp huniversal)

/-- When a decision on the market alone moves or renews a token. -/
theorem transition_eq {ids : CandidateIdentities} (hids : SeparatingIdentities ids)
    {current : Option CandidateCurrentState} {expires : Option Int} {eligible : Bool}
    {decision : EvaluationDecision} {evidence : CandidateEvidence} (now : Int)
    (hagrees : StateAgrees ids current expires)
    (hlater : ∀ state ∈ current, state.inputWatermark < evidence.watermark)
    (heligible : decision.eligible = eligible)
    (htarget : decision.targetTier = if eligible then .tier1Interesting else .tier0Universal) :
    (if targetTier current now decision = previousTier current ∧
        ¬ refreshes current now (ids.evidenceSha256 evidence) decision
          (targetTier current now decision) then none
      else some (decision, targetTier current now decision)) =
      if eligible then
        if ∀ e ∈ expires, e ≤ now then some (decision, .tier1Interesting) else none
      else if ∃ e ∈ expires, e ≤ now then some (decision, .tier0Universal) else none := by
  cases hagrees with
  | universal tier =>
    cases eligible with
    | true =>
      have hmove : targetTier current now decision = .tier1Interesting := by
        simp [targetTier, heligible, htarget]
      simp [hmove, tier]
    | false =>
      have hstay : targetTier current now decision = .tier0Universal := by
        simp [targetTier, tier, htarget]
      simp [hstay, tier, refreshes]
  | @interesting state expires old tier coverage evaluation digest watermark =>
    have hprevious : previousTier (some state) = .tier1Interesting := tier
    cases eligible with
    | true =>
      have hstay : targetTier (some state) now decision = .tier1Interesting := by
        simp [targetTier, heligible, htarget]
      have hnew : state.evidenceSha256 ≠ ids.evidenceSha256 evidence := by
        intro hsame
        rw [digest] at hsame
        have hlt := hlater state rfl
        rw [← watermark, hids.evidence hsame] at hlt
        exact lt_irrefl _ hlt
      by_cases hover : expires ≤ now
      · have hrefreshes : refreshes (some state) now (ids.evidenceSha256 evidence) decision
            .tier1Interesting := by
          refine ⟨hprevious.symm, CandidateTier.noConfusion, heligible, state, rfl, ?_, ?_, hnew⟩
          · simpa [coverage] using hover
          · rwa [evaluation]
        simp [hstay, hrefreshes, hover]
      · have hrefreshes : ¬ refreshes (some state) now (ids.evidenceSha256 evidence) decision
            .tier1Interesting := by
          intro h
          obtain ⟨_, _, _, found, hfound, hends, _⟩ := h
          cases hfound
          exact hover (hends expires coverage)
        simp [hstay, hprevious, hrefreshes, hover]
    | false =>
      by_cases hover : expires ≤ now
      · have hmove : targetTier (some state) now decision = .tier0Universal := by
          have hnot : ¬ now < expires := not_lt.mpr hover
          simp [targetTier, htarget, coverage, hnot]
        simp [hmove, hprevious, hover]
      · have hstay : targetTier (some state) now decision = .tier1Interesting := by
          simp [targetTier, heligible, hprevious, coverage, not_le.mp hover]
        simp [hstay, hprevious, refreshes, heligible, hover]

section Step
variable {ids : CandidateIdentities} {divide : ℚ → ℚ → ℚ} {policy : CandidatePolicy}
  {collectionEpochId : Uuid} {taskMaxAttempts : Nat}
  {store : CandidateStore} {observation : MarketObservation} {expires : Option Int}

/-- A call writes a transition when the machine nominates or demotes, and not otherwise. -/
theorem plannedTransition_eq (hids : SeparatingIdentities ids)
    (hagrees : StateAgrees ids
      (store.currentStates.find? (collectionEpochId, observation.tokenId)) expires)
    (hlater : ∀ state ∈ store.currentStates.find? (collectionEpochId, observation.tokenId),
      state.inputWatermark < observation.receivedAt) :
    let call := observationCall ids divide policy collectionEpochId taskMaxAttempts
      store observation
    plannedTransition ids policy store call =
      if marketEligible divide policy observation.toEvidenceRow then
        if ∀ e ∈ expires, e ≤ observation.receivedAt then some (call.decision, .tier1Interesting)
        else none
      else if ∃ e ∈ expires, e ≤ observation.receivedAt then some (call.decision, .tier0Universal)
      else none := by
  intro call
  obtain ⟨heligible, htarget, _⟩ :=
    @evaluate_market divide ids.evidenceSha256 policy observation _ hagrees.tier
  have hdecision : call.decision = policy.evaluate divide ids.evidenceSha256 observation.evidence
      (previousTier (store.currentStates.find? (collectionEpochId, observation.tokenId))) := rfl
  rw [← hdecision] at heligible htarget
  have hfresh : ¬ outdated (currentOf store call) call := by
    intro hout
    obtain ⟨state, hstate, hbehind⟩ := hout
    have hlt := hlater state hstate
    have hwatermark : call.evidence.watermark = observation.receivedAt := rfl
    omega
  have hadmitted : tier3Admitted policy store (previousTier (currentOf store call))
      call.decision = call.decision := by
    have hnot : call.decision.targetTier ≠ .tier3DeepReview := by
      rw [htarget]
      split
      · exact CandidateTier.noConfusion
      · exact CandidateTier.noConfusion
    unfold tier3Admitted
    rw [if_neg fun h => hnot h.1]
  have htransition := @transition_eq ids hids _ expires _ call.decision observation.evidence
    call.now hagrees hlater heligible htarget
  simp only [plannedTransition, if_neg hfresh, hadmitted]
  exact htransition

end Step

/-- The store of an epoch follows the machines of its tokens. -/
structure Follows (ids : CandidateIdentities) (epoch : Uuid) (store : CandidateStore)
    (expires : Uuid → Option Int) : Prop where
  states : ∀ token, StateAgrees ids (store.currentStates.find? (epoch, token)) (expires token)
  candidates : ∀ row ∈ store.candidateEvents.rows, row.Named ids
  tiers : ∀ row ∈ store.tierEvents.rows, row.Named ids
  candidatesBehind : ∀ row ∈ store.candidateEvents.rows, row.collectionEpochId = epoch →
    ∃ state ∈ store.currentStates.find? (epoch, row.tokenId),
      row.inputWatermark ≤ state.inputWatermark
  tiersBehind : ∀ row ∈ store.tierEvents.rows, row.collectionEpochId = epoch →
    ∃ state ∈ store.currentStates.find? (epoch, row.tokenId),
      row.inputWatermark ≤ state.inputWatermark

/-- What an observation does: the machine of its token moves, and the store counts what the
machine puts out. -/
structure Observed (ids : CandidateIdentities) (divide : ℚ → ℚ → ℚ) (policy : CandidatePolicy)
    (epoch : Uuid) (store : CandidateStore) (expires : Uuid → Option Int)
    (observation : MarketObservation) (store' : CandidateStore) : Prop where
  follows : Follows ids epoch store' (Function.update expires observation.tokenId
    (marketNext divide policy (expires observation.tokenId) observation.toEvidenceRow))
  promotions : tierMoves epoch .tier0Universal .tier1Interesting store' =
    tierMoves epoch .tier0Universal .tier1Interesting store +
      promoted divide policy (expires observation.tokenId) observation.toEvidenceRow
  demotions : tierMoves epoch .tier1Interesting .tier0Universal store' =
    tierMoves epoch .tier1Interesting .tier0Universal store +
      demoted divide policy (expires observation.tokenId) observation.toEvidenceRow
  nominations : nominations epoch store' = nominations epoch store +
    nominated divide policy (expires observation.tokenId) observation.toEvidenceRow
  schedules : ∀ token, (store'.schedules.find? token).isSome = (store.schedules.find? token).isSome
  watermarks : ∀ token, ∀ state ∈ store'.currentStates.find? (epoch, token),
    state ∈ store.currentStates.find? (epoch, token) ∨
      (token = observation.tokenId ∧ state.inputWatermark = observation.receivedAt)

section Refinement
variable {ids : CandidateIdentities} {divide : ℚ → ℚ → ℚ} {policy : CandidatePolicy}
  {epoch : Uuid} {store store' : CandidateStore} {expires : Uuid → Option Int}
  {observation : MarketObservation}

/-- An observation that writes no transition. -/
theorem observed_kept (h : Follows ids epoch store expires)
    (hnext : marketNext divide policy (expires observation.tokenId) observation.toEvidenceRow =
      expires observation.tokenId)
    (hpromoted : promoted divide policy (expires observation.tokenId)
      observation.toEvidenceRow = 0)
    (hdemoted : demoted divide policy (expires observation.tokenId) observation.toEvidenceRow = 0)
    (hnominated : nominated divide policy (expires observation.tokenId)
      observation.toEvidenceRow = 0) :
    Observed ids divide policy epoch store expires observation (persistPolicy ids policy store) where
  follows := by
    rw [hnext, Function.update_eq_self]
    exact ⟨h.states, h.candidates, h.tiers, h.candidatesBehind, h.tiersBehind⟩
  promotions := by
    rw [hpromoted]
    rfl
  demotions := by
    rw [hdemoted]
    rfl
  nominations := by
    rw [hnominated]
    rfl
  schedules _ := rfl
  watermarks _ _ hstate := .inl hstate

theorem countP_added {α : Type} {p : α → Bool} {rows rows' added : List α}
    (h : rows' = rows ++ added) (hall : ∀ row ∈ added, p row = true) :
    rows'.countP p = rows.countP p + added.length := by
  rw [h, List.countP_append, List.countP_eq_length.mpr hall]

/-- An observation that writes a transition to a tier. -/
theorem observed_written {call : EvaluationCall} {decision : EvaluationDecision}
    {target : CandidateTier} {state : CandidateCurrentState} {added : List CandidateEvent}
    {event : CandidateTierEvent} (h : Follows ids epoch store expires)
    (hepoch : call.collectionEpochId = epoch) (hevidence : call.evidence = observation.evidence)
    (hlater : ∀ state ∈ store.currentStates.find? (epoch, observation.tokenId),
      state.inputWatermark < observation.receivedAt)
    (hwritten : Written ids policy (persistPolicy ids policy store) call decision target store'
      state added event)
    (hagrees : StateAgrees ids (some state)
      (marketNext divide policy (expires observation.tokenId) observation.toEvidenceRow))
    (hpromoted : promoted divide policy (expires observation.tokenId) observation.toEvidenceRow =
      if event.previousTier = .tier0Universal ∧ event.newTier = .tier1Interesting then 1 else 0)
    (hdemoted : demoted divide policy (expires observation.tokenId) observation.toEvidenceRow =
      if event.previousTier = .tier1Interesting ∧ event.newTier = .tier0Universal then 1 else 0)
    (hnominated : nominated divide policy (expires observation.tokenId)
      observation.toEvidenceRow = if target = .tier0Universal then 0 else 1) :
    Observed ids divide policy epoch store expires observation store' := by
  have htoken : call.evidence.tokenId = observation.tokenId := congrArg (·.tokenId) hevidence
  have hreceived : call.evidence.watermark = observation.receivedAt :=
    congrArg (·.watermark) hevidence
  have hfind : ∀ token, store'.currentStates.find? (epoch, token) =
      if token = observation.tokenId then some state
      else store.currentStates.find? (epoch, token) := by
    intro token
    rw [hwritten.states, Table.find?_upsert, hwritten.key, hepoch, htoken]
    by_cases hsame : token = observation.tokenId
    · simp [hsame]
    · simp [hsame, Ne.symm hsame, persistPolicy]
  have hself : store'.currentStates.find? (epoch, observation.tokenId) = some state := by
    rw [hfind, if_pos rfl]
  have hwatermark : state.inputWatermark = observation.receivedAt :=
    hwritten.watermark.trans hreceived
  -- A row behind the projection of its token stays behind it.
  have hbehind : ∀ token watermark, (∃ old ∈ store.currentStates.find? (epoch, token),
      watermark ≤ old.inputWatermark) → ∃ new ∈ store'.currentStates.find? (epoch, token),
      watermark ≤ new.inputWatermark := by
    intro token watermark hold
    obtain ⟨old, hfound, hle⟩ := hold
    by_cases hsame : token = observation.tokenId
    · rw [hsame] at hfound ⊢
      have hlt := hlater old hfound
      exact ⟨state, hself, by omega⟩
    · exact ⟨old, by rw [hfind, if_neg hsame]; exact hfound, hle⟩
  constructor
  · constructor
    · intro token
      by_cases hsame : token = observation.tokenId
      · rw [hsame, hself, Function.update_self]
        exact hagrees
      · rw [hfind, if_neg hsame, Function.update_of_ne hsame]
        exact h.states token
    · intro row hrow
      rw [hwritten.candidates, List.mem_append] at hrow
      cases hrow with
      | inl hold => exact h.candidates row hold
      | inr hnew => exact (hwritten.nomination row hnew).1
    · intro row hrow
      rw [hwritten.tierEvents, List.mem_append] at hrow
      cases hrow with
      | inl hold => exact h.tiers row hold
      | inr hnew =>
        rw [List.mem_singleton.mp hnew]
        exact hwritten.eventNamed
    · intro row hrow hrowEpoch
      rw [hwritten.candidates, List.mem_append] at hrow
      cases hrow with
      | inl hold => exact hbehind _ _ (h.candidatesBehind row hold hrowEpoch)
      | inr hnew =>
        obtain ⟨_, _, hrowToken, hrowWatermark⟩ := hwritten.nomination row hnew
        rw [hrowToken, htoken]
        exact ⟨state, hself, by rw [hrowWatermark, hwritten.watermark]⟩
    · intro row hrow hrowEpoch
      rw [hwritten.tierEvents, List.mem_append] at hrow
      cases hrow with
      | inl hold => exact hbehind _ _ (h.tiersBehind row hold hrowEpoch)
      | inr hnew =>
        rw [List.mem_singleton.mp hnew, hwritten.eventToken, htoken]
        exact ⟨state, hself, by rw [hwritten.eventWatermark, hwritten.watermark]⟩
  · rw [hpromoted, tierMoves, hwritten.tierEvents, List.countP_append]
    simp [tierMoves, persistPolicy, List.countP_cons, hwritten.eventEpoch, hepoch]
  · rw [hdemoted, tierMoves, hwritten.tierEvents, List.countP_append]
    simp [tierMoves, persistPolicy, List.countP_cons, hwritten.eventEpoch, hepoch]
  · rw [hnominated, ← hwritten.nominations]
    refine countP_added hwritten.candidates fun row hrow => ?_
    obtain ⟨_, hrowEpoch, _⟩ := hwritten.nomination row hrow
    simp [hrowEpoch, hepoch]
  · exact hwritten.schedules
  · intro token found hfound
    by_cases hsame : token = observation.tokenId
    · rw [hsame, hself] at hfound
      cases hfound
      exact .inr ⟨hsame, hwatermark⟩
    · rw [hfind, if_neg hsame] at hfound
      exact .inl hfound

/-- Where a live call may fail or its cap may be full. -/
structure Admitting (policy : CandidatePolicy) (store : CandidateStore)
    (observation : MarketObservation) : Prop where
  scheduled : (store.schedules.find? observation.tokenId).isSome
  cap : activeCoverage observation.receivedAt store.schedules < policy.maxActiveCoverage

section Call
variable {taskMaxAttempts : Nat}

theorem observe_of_none
    (hplan : plannedTransition ids policy store (observationCall ids divide policy epoch
      taskMaxAttempts store observation) = none) :
    observe ids divide policy epoch taskMaxAttempts store observation =
      persistPolicy ids policy store := by
  unfold observe applyEvaluation
  rw [hplan]
  rfl

theorem Follows.earlier (h : Follows ids epoch store expires)
    (hlater : ∀ state ∈ store.currentStates.find? (epoch, observation.tokenId),
      state.inputWatermark < observation.receivedAt) :
    Earlier ids (persistPolicy ids policy store) (observationCall ids divide policy epoch
      taskMaxAttempts store observation) where
  candidates := h.candidates
  tiers := h.tiers
  candidatesBefore := by
    intro row hrow hepoch htoken
    obtain ⟨state, hstate, hle⟩ := h.candidatesBehind row hrow hepoch
    rw [htoken] at hstate
    exact lt_of_le_of_lt hle (hlater state hstate)
  tiersBefore := by
    intro row hrow hepoch htoken
    obtain ⟨state, hstate, hle⟩ := h.tiersBehind row hrow hepoch
    rw [htoken] at hstate
    exact lt_of_le_of_lt hle (hlater state hstate)

theorem observe_of_some {decision : EvaluationDecision} {target : CandidateTier}
    (hids : SeparatingIdentities ids)
    (hinterval : 0 < (policy.coverageInterval / 1000000).toNat) (hattempts : 0 < taskMaxAttempts)
    (h : Follows ids epoch store expires)
    (hlater : ∀ state ∈ store.currentStates.find? (epoch, observation.tokenId),
      state.inputWatermark < observation.receivedAt)
    (hplan : plannedTransition ids policy store (observationCall ids divide policy epoch
      taskMaxAttempts store observation) = some (decision, target)) :
    ∃ state added event, Written ids policy (persistPolicy ids policy store)
      (observationCall ids divide policy epoch taskMaxAttempts store observation)
      decision target
      (observe ids divide policy epoch taskMaxAttempts store observation) state
      added event := by
  obtain ⟨store', result, state, added, event, hrun, hwritten⟩ :=
    @writeTransition_later ids policy _ (observationCall ids divide policy epoch
      taskMaxAttempts store observation) target hids (h.earlier hlater) hinterval hattempts decision
  have hobserve : observe ids divide policy epoch taskMaxAttempts store
      observation = store' := by
    unfold observe applyEvaluation
    rw [hplan]
    dsimp only
    rw [hrun]
    rfl
  rw [hobserve]
  exact ⟨state, added, event, hwritten⟩

theorem Admitting.renewed (h : Admitting policy store observation) {target : CandidateTier}
    (decision : EvaluationDecision) (htarget : target ≠ .tier0Universal) :
    renewedUntil policy (persistPolicy ids policy store) (observationCall ids divide policy epoch
      taskMaxAttempts store observation) decision target =
      decision.coverageUntil := by
  obtain ⟨schedule, hschedule⟩ := Option.isSome_iff_exists.mp h.scheduled
  have hfound : (persistPolicy ids policy store).schedules.find? (observationCall ids divide policy
      epoch taskMaxAttempts store observation).evidence.tokenId = some schedule :=
    hschedule
  have hcap : activeCoverage (observationCall ids divide policy epoch
      taskMaxAttempts store observation).now (persistPolicy ids policy store).schedules <
      policy.maxActiveCoverage := h.cap
  simp [renewedUntil, coverageAdmitted, hfound, htarget, hcap]

/-- Every observation does to the store what it does to the machine of its token. -/
theorem observe_observed
    (hids : SeparatingIdentities ids)
    (hinterval : 0 < (policy.coverageInterval / 1000000).toNat) (hattempts : 0 < taskMaxAttempts)
    (h : Follows ids epoch store expires) (hadmitting : Admitting policy store observation)
    (hlater : ∀ state ∈ store.currentStates.find? (epoch, observation.tokenId),
      state.inputWatermark < observation.receivedAt) :
    Observed ids divide policy epoch store expires observation
      (observe ids divide policy epoch taskMaxAttempts store observation) := by
  have hagrees := h.states observation.tokenId
  obtain ⟨_, _, huntil⟩ :=
    @evaluate_market divide ids.evidenceSha256 policy observation _ hagrees.tier
  have hplan := @plannedTransition_eq ids divide policy epoch taskMaxAttempts store
    observation _ hids hagrees hlater
  simp only at hplan
  cases heligible : marketEligible divide policy observation.toEvidenceRow with
  | true =>
    simp only [heligible, if_true] at hplan huntil
    by_cases hover : ∀ e ∈ expires observation.tokenId, e ≤ observation.receivedAt
    · rw [if_pos hover] at hplan
      obtain ⟨state, added, event, hwritten⟩ :=
        observe_of_some hids hinterval hattempts h hlater hplan
      have hrenewed := hwritten.coverage.trans
        ((hadmitting.renewed _ CandidateTier.noConfusion).trans huntil)
      have hprevious : event.previousTier = .tier0Universal ↔ expires observation.tokenId = none :=
        by
          rw [hwritten.previous]
          exact hagrees.universal_iff
      refine observed_written h rfl rfl hlater hwritten ?_ ?_ ?_ ?_
      · rw [marketNext, if_pos heligible, if_pos hover]
        refine .interesting observation.evidence hwritten.tier hrenewed ?_ hwritten.digest
          hwritten.watermark.symm
        rw [hwritten.evaluation, ← hwritten.coverage, hrenewed]
        rfl
      · simp [promoted, heligible, hprevious, hwritten.new]
      · simp [demoted, heligible, hwritten.new]
      · rw [nominated, if_pos ⟨heligible, hover⟩, if_neg CandidateTier.noConfusion]
    · rw [if_neg hover] at hplan
      have hsome : expires observation.tokenId ≠ none := by
        intro hnone
        exact hover (by simp [hnone])
      rw [observe_of_none hplan]
      apply observed_kept h
      · rw [marketNext, if_pos heligible, if_neg hover]
      · simp [promoted, hsome]
      · simp [demoted, heligible]
      · exact if_neg fun hboth => hover hboth.2
  | false =>
    simp only [heligible, Bool.false_eq_true, if_false] at hplan
    by_cases hover : ∃ e ∈ expires observation.tokenId, e ≤ observation.receivedAt
    · rw [if_pos hover] at hplan
      obtain ⟨state, added, event, hwritten⟩ :=
        observe_of_some hids hinterval hattempts h hlater hplan
      have hprevious : event.previousTier = .tier1Interesting := by
        rw [hwritten.previous]
        exact hagrees.interesting_of (by obtain ⟨e, he, _⟩ := hover; simp [Option.mem_def.mp he])
      refine observed_written h rfl rfl hlater hwritten ?_ ?_ ?_ ?_
      · rw [marketNext, if_neg (by simp [heligible]), if_pos hover]
        exact .universal hwritten.tier
      · simp [promoted, heligible, hprevious]
      · rw [demoted, if_pos ⟨heligible, hover⟩, if_pos ⟨hprevious, hwritten.new⟩]
      · simp [nominated, heligible]
    · rw [if_neg hover] at hplan
      rw [observe_of_none hplan]
      apply observed_kept h
      · rw [marketNext, if_neg (by simp [heligible]), if_neg hover]
      · simp [promoted, heligible]
      · exact if_neg fun hboth => hover hboth.2
      · simp [nominated, heligible]

end Call

end Refinement

/-! ### Runs -/

section Run
variable {ids : CandidateIdentities} {divide : ℚ → ℚ → ℚ} {policy : CandidatePolicy}
  {epoch : Uuid} {taskMaxAttempts : Nat}

/-- The observations of each token come one after another. -/
def ReceivedInOrder (observations : List MarketObservation) : Prop :=
  observations.Pairwise fun a b => a.tokenId = b.tokenId → a.receivedAt < b.receivedAt

/-- Before every observation the coverage cap leaves a place. -/
def CapNeverReached (ids : CandidateIdentities) (divide : ℚ → ℚ → ℚ) (policy : CandidatePolicy)
    (epoch : Uuid) (taskMaxAttempts : Nat) : CandidateStore → List MarketObservation → Prop :=
  Steps (observe ids divide policy epoch taskMaxAttempts) fun store observation =>
    activeCoverage observation.receivedAt store.schedules < policy.maxActiveCoverage

/-- A run stores what the machines of its tokens put out. -/
theorem run_counts (hids : SeparatingIdentities ids)
    (hinterval : 0 < (policy.coverageInterval / 1000000).toNat) (hattempts : 0 < taskMaxAttempts)
    {store : CandidateStore} {expires : Uuid → Option Int} {observations : List MarketObservation}
    (h : Follows ids epoch store expires)
    (hscheduled : ∀ observation ∈ observations,
      (store.schedules.find? observation.tokenId).isSome)
    (hcap : CapNeverReached ids divide policy epoch taskMaxAttempts store observations)
    (hordered : ReceivedInOrder observations)
    (hlater : ∀ observation ∈ observations,
      ∀ state ∈ store.currentStates.find? (epoch, observation.tokenId),
        state.inputWatermark < observation.receivedAt) :
    let final := run (observe ids divide policy epoch taskMaxAttempts) store observations
    let rows := observations.map (·.toEvidenceRow)
    tierMoves epoch .tier0Universal .tier1Interesting final =
        tierMoves epoch .tier0Universal .tier1Interesting store +
          keyedOutputs EvidenceRow.tokenId (marketNext divide policy) (promoted divide policy)
            expires rows ∧
      tierMoves epoch .tier1Interesting .tier0Universal final =
        tierMoves epoch .tier1Interesting .tier0Universal store +
          keyedOutputs EvidenceRow.tokenId (marketNext divide policy) (demoted divide policy)
            expires rows ∧
      nominations epoch final = nominations epoch store +
        keyedOutputs EvidenceRow.tokenId (marketNext divide policy) (nominated divide policy)
          expires rows := by
  induction observations generalizing store expires with
  | nil => exact ⟨rfl, rfl, rfl⟩
  | cons observation rest ih =>
    obtain ⟨hfirst, hrest⟩ := List.pairwise_cons.mp hordered
    have hadmitting : Admitting policy store observation :=
      ⟨hscheduled observation List.mem_cons_self, hcap.1⟩
    have hstep := @observe_observed ids divide policy epoch store expires observation
      taskMaxAttempts hids hinterval hattempts h hadmitting (hlater observation List.mem_cons_self)
    have hscheduledRest : ∀ later ∈ rest,
        ((observe ids divide policy epoch taskMaxAttempts store observation).schedules.find?
          later.tokenId).isSome := by
      intro later hlaterMem
      rw [hstep.schedules]
      exact hscheduled later (List.mem_cons_of_mem _ hlaterMem)
    -- A projection written by this observation lies before the later ones of its token.
    have hlaterRest : ∀ later ∈ rest, ∀ state ∈
        (observe ids divide policy epoch taskMaxAttempts store observation).currentStates.find?
          (epoch, later.tokenId), state.inputWatermark < later.receivedAt := by
      intro later hmem state hstate
      cases hstep.watermarks later.tokenId state hstate with
      | inl hold => exact hlater later (List.mem_cons_of_mem _ hmem) state hold
      | inr hnew =>
        rw [hnew.2]
        exact hfirst later hmem hnew.1.symm
    obtain ⟨hpromotions, hdemotions, hnominations⟩ :=
      ih hstep.follows hscheduledRest hcap.2 hrest hlaterRest
    refine ⟨hpromotions.trans ?_, hdemotions.trans ?_, hnominations.trans ?_⟩
    · rw [hstep.promotions, Nat.add_assoc]
      rfl
    · rw [hstep.demotions, Nat.add_assoc]
      rfl
    · rw [hstep.nominations, Nat.add_assoc]
      rfl

end Run

/-! ### The simulation -/

/-- A store that has nothing of an epoch yet. -/
structure FreshFor (ids : CandidateIdentities) (epoch : Uuid) (store : CandidateStore) : Prop where
  states : ∀ state ∈ store.currentStates.rows, state.collectionEpochId ≠ epoch
  candidates : ∀ row ∈ store.candidateEvents.rows, row.Named ids ∧ row.collectionEpochId ≠ epoch
  tiers : ∀ row ∈ store.tierEvents.rows, row.Named ids ∧ row.collectionEpochId ≠ epoch

section Fresh
variable {ids : CandidateIdentities} {epoch : Uuid} {store : CandidateStore}

theorem FreshFor.find? (h : FreshFor ids epoch store) (token : Uuid) :
    store.currentStates.find? (epoch, token) = none := by
  rw [Table.find?_eq_none_iff]
  intro state hstate hkey
  exact h.states state hstate (congrArg Prod.fst hkey)

theorem FreshFor.follows (h : FreshFor ids epoch store) :
    Follows ids epoch store fun _ => none where
  states token := by
    rw [h.find? token]
    exact .universal rfl
  candidates row hrow := (h.candidates row hrow).1
  tiers row hrow := (h.tiers row hrow).1
  candidatesBehind row hrow hepoch := absurd hepoch (h.candidates row hrow).2
  tiersBehind row hrow hepoch := absurd hepoch (h.tiers row hrow).2

theorem FreshFor.counts (h : FreshFor ids epoch store) (previous new : CandidateTier) :
    tierMoves epoch previous new store = 0 ∧ nominations epoch store = 0 := by
  constructor
  · refine List.countP_eq_zero.mpr fun row hrow => ?_
    simp [(h.tiers row hrow).2]
  · refine List.countP_eq_zero.mpr fun row hrow => ?_
    simp [(h.candidates row hrow).2]

end Fresh

/-- The order of the simulated stream: by token, and by receipt within a token. -/
def StreamOrdered (rows : List EvidenceRow) : Prop :=
  rows.Pairwise fun a b => a.tokenId < b.tokenId ∨
    (a.tokenId = b.tokenId ∧ a.receivedAt ≤ b.receivedAt)

/-- Token by token the stream is the live sequence. -/
theorem filter_stream {observations : List MarketObservation} {rows : List EvidenceRow}
    (hordered : ReceivedInOrder observations)
    (hrows : rows.Perm (observations.map (·.toEvidenceRow))) (hstream : StreamOrdered rows)
    (token : Uuid) :
    (observations.map (·.toEvidenceRow)).filter (fun row => row.tokenId = token) =
      rows.filter fun row => row.tokenId = token := by
  let own := (observations.map (·.toEvidenceRow)).filter fun row => row.tokenId = token
  have hstrict : own.Pairwise fun a b => a.receivedAt < b.receivedAt := by
    have hall : (observations.map (·.toEvidenceRow)).Pairwise fun a b =>
        a.tokenId = b.tokenId → a.receivedAt < b.receivedAt := List.pairwise_map.mpr hordered
    refine List.Pairwise.imp_of_mem ?_ (hall.filter _)
    intro a b ha hb h
    have hsame : a.tokenId = b.tokenId :=
      (of_decide_eq_true (List.mem_filter.mp ha).2).trans
        (of_decide_eq_true (List.mem_filter.mp hb).2).symm
    exact h hsame
  have hstreamed : (rows.filter fun row => row.tokenId = token).Pairwise fun a b =>
      a.receivedAt ≤ b.receivedAt := by
    refine List.Pairwise.imp_of_mem ?_ (hstream.filter _)
    intro a b ha hb h
    have hsame : a.tokenId = b.tokenId :=
      (of_decide_eq_true (List.mem_filter.mp ha).2).trans
        (of_decide_eq_true (List.mem_filter.mp hb).2).symm
    cases h with
    | inl hlt => exact absurd hsame hlt.ne
    | inr hle => exact hle.2
  refine List.Perm.eq_of_pairwise ?_ (hstrict.imp fun h => h.le) hstreamed
    (hrows.symm.filter fun row => row.tokenId = token)
  intro a b ha hb hab hba
  have hown : b ∈ own := (hrows.filter fun row => row.tokenId = token).mem_iff.mp hb
  by_contra hne
  have hdistinct : own.Pairwise fun a b => a.receivedAt ≠ b.receivedAt := hstrict.imp fun h => h.ne
  have hsymm : Std.Symm fun a b : EvidenceRow => a.receivedAt ≠ b.receivedAt :=
    ⟨fun _ _ => Ne.symm⟩
  exact hdistinct.forall ha hown hne (le_antisymm hab hba)

/-- The simulation counts the events that the live orchestrator stores. -/
theorem simulation_counts_live_events (ids : CandidateIdentities) (divide : ℚ → ℚ → ℚ)
    (policy : CandidatePolicy) (epoch : Uuid) (epochNumber : Int) (taskMaxAttempts : Nat)
    (store : CandidateStore) (observations : List MarketObservation) (rows : List EvidenceRow)
    (hids : SeparatingIdentities ids) (hinterval : seconds 1 ≤ policy.coverageInterval)
    (hattempts : 0 < taskMaxAttempts) (hfresh : FreshFor ids epoch store)
    (hscheduled : ∀ observation ∈ observations,
      (store.schedules.find? observation.tokenId).isSome)
    (hcap : CapNeverReached ids divide policy epoch taskMaxAttempts store observations)
    (hordered : ReceivedInOrder observations)
    (hrows : rows.Perm (observations.map (·.toEvidenceRow))) (hstream : StreamOrdered rows) :
    let simulated := simulateRows divide policy epochNumber rows
    let final := run (observe ids divide policy epoch taskMaxAttempts) store observations
    simulated.promotionsToTier1 = tierMoves epoch .tier0Universal .tier1Interesting final ∧
      simulated.demotionsToTier0 = tierMoves epoch .tier1Interesting .tier0Universal final ∧
      simulated.candidateEvents = nominations epoch final := by
  have hseconds : 0 < (policy.coverageInterval / 1000000).toNat := by
    have hsecond : (1 : Int) * 1000000 ≤ policy.coverageInterval := hinterval
    omega
  obtain ⟨hpromotions, hdemotions, hnominations⟩ := run_counts hids hseconds hattempts
    hfresh.follows hscheduled hcap hordered fun observation _ state hstate => by
      rw [hfresh.find?] at hstate
      cases hstate
  obtain ⟨hsimulatedP, hsimulatedD, hsimulatedC⟩ := simulateRows_counts divide policy epochNumber
    (hstream.imp fun h => h.elim (fun hlt => hlt.le) fun hle => hle.1.le)
  have hsame := filter_stream hordered hrows hstream
  refine ⟨?_, ?_, ?_⟩
  · rw [hsimulatedP, hpromotions, (hfresh.counts _ _).1, Nat.zero_add]
    exact (keyedOutputs_congr _ hsame).symm
  · rw [hsimulatedD, hdemotions, (hfresh.counts _ _).1, Nat.zero_add]
    exact (keyedOutputs_congr _ hsame).symm
  · rw [hsimulatedC, hnominations, (hfresh.counts .tier0Universal .tier0Universal).2, Nat.zero_add]
    exact (keyedOutputs_congr _ hsame).symm

/-! ### A promotion and a demotion -/

/-- The fields of evidence in groups. -/
def EvidenceFields.groups (e : EvidenceFields) :=
  ((e.tokenId, e.evaluatedAt, e.watermark, e.lifecycleState, e.coverageClass, e.admittedAt),
    (e.observationId, e.observationReceivedAt, e.liquidityUsd, e.volumeM5Usd, e.buysM5,
      e.sellsM5),
    (e.boostEventId, e.boostReceivedAt, e.securitySnapshotId, e.securityReceivedAt,
      e.coverageResurrection),
    (e.holderSnapshotId, e.holderReceivedAt, e.holderTop10Pct, e.traderSnapshotId,
      e.traderReceivedAt, e.uniqueTraders),
    (e.totalTrades, e.walletEvidenceReceivedAt, e.commonFunderSharePct,
      e.liquidityEvidenceReceivedAt, e.liquidityRemovalPct))

theorem CandidateEvidence.groups_injective :
    Function.Injective fun e : CandidateEvidence => e.toEvidenceFields.groups := by
  intro a b h
  obtain ⟨⟨⟩, _, _⟩ := a
  obtain ⟨⟨⟩, _, _⟩ := b
  simp only [EvidenceFields.groups, Prod.mk.injEq] at h
  simpa only [CandidateEvidence.mk.injEq, EvidenceFields.mk.injEq, and_assoc] using h

instance countableCandidateEvidence : Countable CandidateEvidence :=
  CandidateEvidence.groups_injective.countable

deriving instance Countable for TransitionReason, CandidateTier, CandidateSemantic, TierSemantic

/-- A text of its own for every value. -/
noncomputable def ownText {α : Type} [Countable α] (value : α) : String :=
  unaryText (@Encodable.encode α (Encodable.ofCountable α) value)

theorem ownText_injective {α : Type} [Countable α] : Function.Injective (@ownText α _) := by
  intro a b h
  exact @Encodable.encode_injective α (Encodable.ofCountable α) _ _ (unaryText_injective h)

noncomputable def separatingIdentities : CandidateIdentities where
  evidenceSha256 := ownText
  policySha256 _ := "policy"
  candidateKey := ownText
  tierKey := ownText
  taskKey semantic := semantic.analysisType
  uuid5 := Encodable.encode

theorem separatingIdentities_separating : SeparatingIdentities separatingIdentities where
  evidence := ownText_injective
  candidate := ownText_injective
  tier := ownText_injective
  uuid5 := Encodable.encode_injective

theorem ScheduleEffect.length {ids : CandidateIdentities} {policy : CandidatePolicy}
    {store : CandidateStore} {call : EvaluationCall} {schedules : ScheduleTable}
    (h : ScheduleEffect ids policy store call schedules) :
    schedules.rows.length = store.schedules.rows.length := by
  cases h with
  | kept => rfl
  | rescheduled => exact List.length_map _

theorem observe_schedules_length (ids : CandidateIdentities) (divide : ℚ → ℚ → ℚ)
    (policy : CandidatePolicy) (epoch : Uuid) (taskMaxAttempts : Nat) (store : CandidateStore)
    (observation : MarketObservation) :
    (observe ids divide policy epoch taskMaxAttempts store observation).schedules.rows.length =
      store.schedules.rows.length := by
  unfold observe
  cases happly : applyEvaluation ids policy store
      (observationCall ids divide policy epoch taskMaxAttempts store observation) with
  | error _ => rfl
  | ok result =>
    have heffect : ScheduleEffect ids policy store _ result.1.schedules :=
      applyEvaluation_effect happly
    exact heffect.length

/-- A cap above the number of schedules is never reached. -/
theorem cap_never_reached (ids : CandidateIdentities) (divide : ℚ → ℚ → ℚ)
    (policy : CandidatePolicy) (epoch : Uuid) (taskMaxAttempts : Nat) {store : CandidateStore}
    (h : store.schedules.rows.length < policy.maxActiveCoverage)
    (observations : List MarketObservation) :
    CapNeverReached ids divide policy epoch taskMaxAttempts store observations := by
  induction observations generalizing store with
  | nil => trivial
  | cons observation rest ih =>
    refine ⟨lt_of_le_of_lt List.countP_le_length h, ih ?_⟩
    rw [observe_schedules_length]
    exact h

/-- A market of token 1 with or without enough liquidity. -/
def marketAt (second : Nat) (liquidityUsd : ℚ) : MarketObservation where
  tokenId := 1
  receivedAt := seconds second
  liquidityUsd := some liquidityUsd
  volumeM5Usd := some 20000
  buysM5 := some 50
  sellsM5 := some 50
  collectorRunId := none
  observationId := "observation"
  lifecycleState := "ACTIVE"
  coverageClass := "PROTECTED_ACTIVE"
  admittedAt := 0

/-- The default policy without a bound that two schedules reach. -/
def threeOverrides : CandidatePolicy := { oneOverride with maxActiveCoverage := 3 }

/-- Token 1 is promoted at 10 s, kept at 50 s and demoted at 80 s. -/
def oneTokenMarkets : List MarketObservation :=
  [marketAt 10 100000, marketAt 50 100, marketAt 80 100]

theorem simulation_counts_live_events_of_one_token :
    let simulated := simulateRows (· / ·) threeOverrides 2 (oneTokenMarkets.map (·.toEvidenceRow))
    let final := run (observe separatingIdentities (· / ·) threeOverrides 1 4) twoPolled
      oneTokenMarkets
    (simulated.promotionsToTier1 = 1 ∧ simulated.demotionsToTier0 = 1) ∧
      simulated.promotionsToTier1 = tierMoves 1 .tier0Universal .tier1Interesting final ∧
      simulated.demotionsToTier0 = tierMoves 1 .tier1Interesting .tier0Universal final ∧
      simulated.candidateEvents = nominations 1 final := by
  have hordered : ReceivedInOrder oneTokenMarkets := by
    simp [ReceivedInOrder, oneTokenMarkets, marketAt, seconds]
  have hstream : StreamOrdered (oneTokenMarkets.map (·.toEvidenceRow)) := by
    simp [StreamOrdered, oneTokenMarkets, marketAt, seconds]
  have hfresh : FreshFor separatingIdentities 1 twoPolled := by
    constructor
    · simp [twoPolled, Table.empty]
    · simp [twoPolled, Table.empty]
    · simp [twoPolled, Table.empty]
  have hscheduled : ∀ observation ∈ oneTokenMarkets,
      (twoPolled.schedules.find? observation.tokenId).isSome := by
    decide
  have hcap : CapNeverReached separatingIdentities (· / ·) threeOverrides 1 4 twoPolled
      oneTokenMarkets := cap_never_reached _ _ _ _ _ (by decide) _
  have hinterval : seconds 1 ≤ threeOverrides.coverageInterval := by decide
  have hagrees := simulation_counts_live_events separatingIdentities (· / ·)
    threeOverrides 1 2 4 twoPolled oneTokenMarkets _ separatingIdentities_separating hinterval
    (by decide) hfresh hscheduled hcap hordered (List.Perm.refl _) hstream
  exact ⟨by decide +kernel, hagrees⟩

end PumpResearch.Candidates
