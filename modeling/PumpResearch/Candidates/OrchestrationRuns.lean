import PumpResearch.Candidates.Orchestration

/-! Runs of the orchestration service: evaluations between commits of facts, scheduler work and
boost wake-ups. -/
namespace PumpResearch.Candidates
open KeyedOrder KeyedTable Results Runs Scheduling

/-- Committed rows stay as they are. -/
def CandidateFacts.Kept (facts facts' : CandidateFacts) : Prop :=
  facts.pairs ⊆ facts'.pairs ∧ facts.observations ⊆ facts'.observations ∧
    facts.boostObservations ⊆ facts'.boostObservations ∧ facts.boostEvents ⊆ facts'.boostEvents ∧
    facts.securitySnapshots ⊆ facts'.securitySnapshots ∧
    facts.holderSnapshots ⊆ facts'.holderSnapshots ∧
    facts.traderSnapshots ⊆ facts'.traderSnapshots ∧
    facts.featureSnapshots ⊆ facts'.featureSnapshots

instance decidableKept (facts facts' : CandidateFacts) : Decidable (facts.Kept facts') :=
  inferInstanceAs (Decidable (_ ∧ _ ∧ _ ∧ _ ∧ _ ∧ _ ∧ _ ∧ _))

/-- The facts and the candidate tables, with the events that wake-ups have appended. -/
structure OrchestrationSystem where
  facts : CandidateFacts
  store : CandidateStore
  woken : List CandidateEvent

inductive OrchestrationAction where
  /-- Other transactions commit facts. -/
  | commit (facts : CandidateFacts)
  /-- The scheduler and the task queue move on. -/
  | otherWork (schedules : ScheduleTable) (tasks : TaskTable)
  /-- A boost observation is recorded with its events, and wakes its token in one transaction. -/
  | boost (facts : CandidateFacts) (boostObservationId collectorRunId : Uuid)
  | request (apiRequestLogId collectorRunId : Uuid)
  | security (collectionEpochId : Uuid) (collectorRunId : Option Uuid) (tokenId : Uuid)
      (evaluatedAt : Int)
  /-- A call of `apply_evaluation` with evidence and a decision of its own. -/
  | direct (call : EvaluationCall)

section Steps
variable (service : OrchestrationService)

/-- One transaction; one that raises leaves everything as it was. -/
def orchestrationStep (s : OrchestrationSystem) : OrchestrationAction → OrchestrationSystem
  | .commit facts => if s.facts.Kept facts then { s with facts := facts } else s
  | .otherWork schedules tasks =>
    { s with store := { s.store with schedules := schedules, tasks := tasks } }
  | .boost facts boostObservationId collectorRunId =>
    if s.facts.Kept facts ∧ ∀ boost ∈ s.facts.boostObservations, boost.id ≠ boostObservationId then
      match evaluateBoostObservation service facts s.store boostObservationId collectorRunId with
      | .error _ => s
      | .ok (store, _) =>
        { facts := facts
          store := store
          woken := s.woken ++
            store.candidateEvents.rows.drop s.store.candidateEvents.rows.length }
    else s
  | .request apiRequestLogId collectorRunId =>
    match evaluateRequest service s.facts s.store apiRequestLogId collectorRunId with
    | .error _ => s
    | .ok (store, _) => { s with store := store }
  | .security collectionEpochId collectorRunId tokenId evaluatedAt =>
    match evaluateSecurityToken service s.facts s.store collectionEpochId collectorRunId tokenId
      evaluatedAt with
    | .error _ => s
    | .ok (store, _) => { s with store := store }
  | .direct call =>
    match applyEvaluation service.ids service.policy s.store call with
    | .error _ => s
    | .ok (store, _) => { s with store := store }

end Steps

/-- Nothing has been evaluated yet. -/
def startOrchestration (facts : CandidateFacts) (schedules : ScheduleTable) (tasks : TaskTable) :
    OrchestrationSystem where
  facts := facts
  store := {
    policies := Table.empty
    currentStates := Table.empty
    schedules := schedules
    candidateEvents := Table.empty
    tierEvents := Table.empty
    tasks := tasks }
  woken := []

/-! ### Evidence from committed facts -/

/-- At most one row of a token, received by the watermark. -/
inductive FromRow {Columns : Type} (rows : List (TokenFact Columns)) (tokenId : Uuid)
    (watermark : Int) : Option (TokenFact Columns) → Prop
  | absent : FromRow rows tokenId watermark none
  | present (row : TokenFact Columns) (row_mem : row ∈ rows) (token : row.tokenId = tokenId)
      (received : row.receivedAt ≤ watermark) : FromRow rows tokenId watermark (some row)

theorem FromRow.mono {Columns : Type} {rows rows' : List (TokenFact Columns)} {tokenId : Uuid}
    {watermark : Int} {found : Option (TokenFact Columns)} (hkept : rows ⊆ rows')
    (h : FromRow rows tokenId watermark found) : FromRow rows' tokenId watermark found := by
  cases h with
  | absent => exact .absent
  | present row row_mem token received => exact .present row (hkept row_mem) token received

/-- Evidence that names rows of its own token with what they say, all received by the watermark. -/
structure Sourced (uuidText : Uuid → String) (facts : CandidateFacts) (e : EvidenceFields) :
    Prop where
  evaluated : e.evaluatedAt = e.watermark
  observation : ∃ row ∈ facts.observations, facts.ofToken e.tokenId row = true ∧
    row.receivedAt ≤ e.watermark ∧ e.observationId = some (uuidText row.id) ∧
      e.observationReceivedAt = some row.receivedAt ∧ e.liquidityUsd = row.liquidityUsd ∧
      e.volumeM5Usd = row.volumeM5Usd ∧ e.buysM5 = row.buysM5 ∧ e.sellsM5 = row.sellsM5
  boost : ∃ found, FromRow facts.boostEvents e.tokenId e.watermark found ∧
    e.boostEventId = (found.map fun row => uuidText row.id) ∧
      e.boostReceivedAt = found.map (·.receivedAt)
  security : ∃ found, FromRow facts.securitySnapshots e.tokenId e.watermark found ∧
    e.securitySnapshotId = (found.map fun row => uuidText row.id) ∧
      e.securityReceivedAt = found.map (·.receivedAt)
  holder : ∃ found, FromRow facts.holderSnapshots e.tokenId e.watermark found ∧
    e.holderSnapshotId = (found.map fun row => uuidText row.id) ∧
      e.holderReceivedAt = found.map (·.receivedAt) ∧
      e.holderTop10Pct = found.bind (·.columns.top10Pct) ∧
      ∀ row ∈ found, row.columns.acquisitionMode = historicallyAvailable
  trader : ∃ found, FromRow facts.traderSnapshots e.tokenId e.watermark found ∧
    e.traderSnapshotId = (found.map fun row => uuidText row.id) ∧
      e.traderReceivedAt = found.map (·.receivedAt) ∧
      e.uniqueTraders = found.bind (·.columns.uniqueTraders) ∧
      e.totalTrades = found.bind (·.columns.totalTrades) ∧
      ∀ row ∈ found, row.columns.acquisitionMode = historicallyAvailable
  features : ∃ found, FromRow facts.featureSnapshots e.tokenId e.watermark found ∧
    e.walletEvidenceReceivedAt = found.map (·.receivedAt) ∧
      e.liquidityEvidenceReceivedAt = found.map (·.receivedAt) ∧
      e.commonFunderSharePct = found.bind (·.columns.commonFunderShare) ∧
      e.liquidityRemovalPct = found.bind (·.columns.liquidityRemovalRecentPct) ∧
      ∀ row ∈ found, row.columns.acquisitionMode = historicallyAvailable

section Evidence
variable {service : OrchestrationService} {facts facts' : CandidateFacts}

theorem Sourced.mono {uuidText : Uuid → String} {e : EvidenceFields} (hkept : facts.Kept facts')
    (h : Sourced uuidText facts e) : Sourced uuidText facts' e := by
  obtain ⟨hpairs, hobservations, _, hboosts, hsecurity, hholders, htraders, hfeatures⟩ := hkept
  refine ⟨h.evaluated, ?_, ?_, ?_, ?_, ?_, ?_⟩
  · obtain ⟨row, hrow, htoken, hrest⟩ := h.observation
    refine ⟨row, hobservations hrow, ?_, hrest⟩
    obtain ⟨pair, hpair, hnamed⟩ := List.any_eq_true.mp htoken
    exact List.any_eq_true.mpr ⟨pair, hpairs hpair, hnamed⟩
  · obtain ⟨found, hfound, hrest⟩ := h.boost
    exact ⟨found, hfound.mono hboosts, hrest⟩
  · obtain ⟨found, hfound, hrest⟩ := h.security
    exact ⟨found, hfound.mono hsecurity, hrest⟩
  · obtain ⟨found, hfound, hrest⟩ := h.holder
    exact ⟨found, hfound.mono hholders, hrest⟩
  · obtain ⟨found, hfound, hrest⟩ := h.trader
    exact ⟨found, hfound.mono htraders, hrest⟩
  · obtain ⟨found, hfound, hrest⟩ := h.features
    exact ⟨found, hfound.mono hfeatures, hrest⟩

theorem mem_of_newest {α : Type} {time : α → Int} {id : α → Uuid} {rows : List α} {row : α}
    (h : newest time id rows = some row) : row ∈ rows := mem_of_firstMax h

/-- The latest fact that a query keeps. -/
theorem fromRow_latestFact {Columns : Type} (keep : Columns → Bool) (tokenId : Uuid)
    (watermark : Int) (rows : List (TokenFact Columns)) :
    FromRow rows tokenId watermark (latestFact keep tokenId watermark rows) ∧
      ∀ row ∈ latestFact keep tokenId watermark rows, keep row.columns = true := by
  cases hfound : latestFact keep tokenId watermark rows with
  | none => exact ⟨.absent, fun _ h => by cases h⟩
  | some row =>
    obtain ⟨hrow, hkept⟩ := List.mem_filter.mp (mem_of_newest hfound)
    simp only [Bool.and_eq_true, decide_eq_true_eq] at hkept
    refine ⟨.present row hrow hkept.1.1 hkept.1.2, fun other h => ?_⟩
    cases h
    exact hkept.2

theorem latestObservation_eq_some {tokenId : Uuid} {watermark : Int} {row : PairObservation}
    (h : facts.latestObservation tokenId watermark = some row) :
    row ∈ facts.observations ∧ facts.ofToken tokenId row = true := by
  obtain ⟨hrow, hkept⟩ := List.mem_filter.mp (mem_of_newest h)
  exact ⟨hrow, (Bool.and_eq_true_iff.mp hkept).1⟩

/-- What evidence says of its boost event, beyond where it is from. -/
def BoostAfter (after : Option Int) (e : EvidenceFields) : Prop :=
  ∀ start ∈ after, ∀ time ∈ e.boostReceivedAt, start < time

theorem postInit_eq_ok {e : EvidenceFields} {evidence : CandidateEvidence}
    (h : e.postInit = .ok evidence) : evidence.toEvidenceFields = e := by
  unfold EvidenceFields.postInit at h
  split at h
  · split at h
    · cases h
    · cases h
      rfl
  · cases h

theorem boostEventFor_eq_ok {schedule : PollSchedule} {watermark : Int}
    {explicitBoostEvent boostEvent : Option BoostEventFact} {boostAfter : Option Int}
    (h : boostEventFor facts schedule watermark explicitBoostEvent boostAfter = .ok boostEvent)
    (hexplicit : ∀ event ∈ explicitBoostEvent, event ∈ facts.boostEvents ∧
      event.tokenId = schedule.tokenId) :
    (∀ event ∈ boostEvent, event ∈ facts.boostEvents ∧ event.tokenId = schedule.tokenId) ∧
      (explicitBoostEvent = none → ∀ start ∈ boostAfter, ∀ event ∈ boostEvent,
        start < event.receivedAt) ∧
      ∀ event ∈ explicitBoostEvent, boostEvent = some event := by
  cases explicitBoostEvent with
  | some event =>
    cases h
    exact ⟨hexplicit, fun hnone => (by cases hnone), fun other hother => hother⟩
  | none =>
    unfold boostEventFor at h
    dsimp only at h
    split at h
    · cases h
    · next after hafter =>
      cases h
      have hfound : ∀ event ∈ facts.latestBoostEvent schedule.tokenId after watermark,
          event ∈ facts.boostEvents ∧ event.tokenId = schedule.tokenId ∧
            after < event.receivedAt := by
        intro event hevent
        obtain ⟨hmem, hkept⟩ := List.mem_filter.mp (mem_of_newest hevent)
        simp only [Bool.and_eq_true, decide_eq_true_eq] at hkept
        exact ⟨hmem, hkept.1.1, hkept.2⟩
      refine ⟨fun event hevent => ⟨(hfound event hevent).1, (hfound event hevent).2.1⟩, ?_, ?_⟩
      · intro _ start hstart event hevent
        rw [hstart] at hafter
        cases hafter
        exact (hfound event hevent).2.2
      · intro event hevent
        cases hevent

/-- Evidence is read from the committed facts, and a boost event that is looked for is one after
the start of the search. -/
theorem buildEvidence_eq_ok {observation : PairObservation} {schedule : PollSchedule}
    {watermark : Int} {explicitBoostEvent : Option BoostEventFact} {boostAfter : Option Int}
    {evidence : CandidateEvidence}
    (h : buildEvidence service facts observation schedule watermark explicitBoostEvent boostAfter =
      .ok evidence)
    (hobservation : observation ∈ facts.observations)
    (htoken : facts.ofToken schedule.tokenId observation = true)
    (hexplicit : ∀ event ∈ explicitBoostEvent, event ∈ facts.boostEvents ∧
      event.tokenId = schedule.tokenId) :
    evidence.tokenId = schedule.tokenId ∧ evidence.watermark = watermark ∧
      Sourced service.uuidText facts evidence.toEvidenceFields ∧
      (explicitBoostEvent = none → BoostAfter boostAfter evidence.toEvidenceFields) ∧
      ∀ event ∈ explicitBoostEvent, evidence.boostEventId = some (service.uuidText event.id) := by
  simp only [buildEvidence, bind_eq_ok] at h
  obtain ⟨boostEvent, hboost, hbuilt⟩ := h
  cases hadmitted : scheduleAdmittedAt schedule with
  | none =>
    rw [hadmitted] at hbuilt
    cases hbuilt
  | some admittedAt =>
    rw [hadmitted] at hbuilt
    have hfields := postInit_eq_ok (mapError_eq_ok.mp hbuilt)
    have hreceived : observation.receivedAt ≤ watermark := by
      have hle := evidence.received_le ("observation_received_at", evidence.observationReceivedAt)
        (by simp [EvidenceFields.receiptTimes]) observation.receivedAt (by rw [hfields]; rfl)
      rwa [hfields] at hle
    obtain ⟨hfrom, hafter, hevent⟩ := boostEventFor_eq_ok hboost hexplicit
    have hbefore : ∀ event ∈ boostEvent, event.receivedAt ≤ watermark := by
      intro event hmem
      have hle := evidence.received_le ("boost_received_at", evidence.boostReceivedAt)
        (by simp [EvidenceFields.receiptTimes]) event.receivedAt
        (by rw [hfields]; exact congrArg (Option.map _) hmem)
      rwa [hfields] at hle
    rw [hfields]
    refine ⟨rfl, rfl, ⟨rfl, ?_, ?_, ?_, ?_, ?_, ?_⟩, ?_, ?_⟩
    · exact ⟨observation, hobservation, htoken, hreceived, rfl, rfl, rfl, rfl, rfl, rfl⟩
    · refine ⟨boostEvent, ?_, rfl, rfl⟩
      cases boostEvent with
      | none => exact .absent
      | some event =>
        exact .present event (hfrom event rfl).1 (hfrom event rfl).2 (hbefore event rfl)
    · exact ⟨_, (fromRow_latestFact _ _ _ _).1, rfl, rfl⟩
    · refine ⟨_, (fromRow_latestFact _ _ _ _).1, rfl, rfl, rfl, fun row hrow => ?_⟩
      exact of_decide_eq_true ((fromRow_latestFact _ _ _ _).2 row hrow)
    · refine ⟨_, (fromRow_latestFact _ _ _ _).1, rfl, rfl, rfl, rfl, fun row hrow => ?_⟩
      exact of_decide_eq_true ((fromRow_latestFact _ _ _ _).2 row hrow)
    · refine ⟨_, (fromRow_latestFact _ _ _ _).1, rfl, rfl, rfl, rfl, fun row hrow => ?_⟩
      exact of_decide_eq_true ((fromRow_latestFact _ _ _ _).2 row hrow)
    · intro hnone start hstart time htime
      obtain ⟨event, hmem, rfl⟩ := Option.map_eq_some_iff.mp htime
      exact hafter hnone start hstart event hmem
    · intro event hmem
      rw [hevent event hmem]
      rfl

end Evidence

/-! ### What the entry points apply -/

/-- A call whose evidence is read from the facts, with a boost event that is newer than the
projection it meets. -/
structure Evaluated (service : OrchestrationService) (facts : CandidateFacts)
    (store : CandidateStore) (call : EvaluationCall) : Prop where
  sourced : Sourced service.uuidText facts call.evidence.toEvidenceFields
  newBoost : ∀ state, currentOf store call = some state →
    BoostAfter (some state.inputWatermark) call.evidence.toEvidenceFields

/-- The store after applying calls of a kind, one after another. -/
inductive AppliedAll (ids : CandidateIdentities) (policy : CandidatePolicy)
    (kind : CandidateStore → EvaluationCall → Prop) (store : CandidateStore) :
    CandidateStore → Prop
  | nothing : AppliedAll ids policy kind store store
  | more {store' store'' : CandidateStore} {call : EvaluationCall}
      {result : CandidateTransitionResult} (before : AppliedAll ids policy kind store store')
      (allowed : kind store' call)
      (applied : applyEvaluation ids policy store' call = .ok (store'', result)) :
      AppliedAll ids policy kind store store''

/-- What each application keeps, all of them keep. -/
theorem AppliedAll.invariant {ids : CandidateIdentities} {policy : CandidatePolicy}
    {kind : CandidateStore → EvaluationCall → Prop} {store store' : CandidateStore}
    (h : AppliedAll ids policy kind store store') {I : CandidateStore → Prop}
    (hstep : ∀ store store' call result, I store → kind store call →
      applyEvaluation ids policy store call = .ok (store', result) → I store') (h0 : I store) :
    I store' := by
  induction h with
  | nothing => exact h0
  | more before allowed applied ih => exact hstep _ _ _ _ ih allowed applied

section Entries
variable {service : OrchestrationService} {facts : CandidateFacts} {store store' : CandidateStore}

theorem mem_selections {apiRequestLogId : Uuid} {selection : Selection}
    (h : selection ∈ selections facts store apiRequestLogId) :
    selection.observation ∈ facts.observations ∧
      facts.ofToken selection.schedule.tokenId selection.observation = true ∧
      selection.schedule.tokenId = selection.evaluation.tokenId := by
  rw [selections, mem_sortOn] at h
  obtain ⟨evaluation, hevaluation, hjoined⟩ := List.mem_flatMap.mp h
  split at hjoined
  · obtain ⟨observation, hobservation, hpairs⟩ := List.mem_flatMap.mp hjoined
    obtain ⟨hmem, hselected⟩ := List.mem_filter.mp hobservation
    obtain ⟨pair, hpair, hschedule⟩ := List.mem_filterMap.mp hpairs
    obtain ⟨hpairMem, hid⟩ := List.mem_filter.mp hpair
    obtain ⟨schedule, hfound, rfl⟩ := Option.map_eq_some_iff.mp hschedule
    have htoken : schedule.tokenId = pair.tokenId := (Table.find?_eq_some_iff.mp hfound).2
    have hid := of_decide_eq_true hid
    refine ⟨hmem, List.any_eq_true.mpr ⟨pair, hpairMem, by simp [hid, htoken]⟩, ?_⟩
    rw [htoken]
    exact facts.evaluations_own evaluation hevaluation observation hmem pair hpairMem
      (of_decide_eq_true hselected).1 hid
  · cases hjoined

theorem evaluateSelection_eq_ok {epoch run : Uuid}
    {state state' : CandidateStore × List CandidateTransitionResult} {selection : Selection}
    {apiRequestLogId : Uuid} (hmem : selection ∈ selections facts store apiRequestLogId)
    (h : evaluateSelection service facts epoch run state selection = .ok state') :
    ∃ call result, Evaluated service facts state.1 call ∧
      applyEvaluation service.ids service.policy state.1 call = .ok (state'.1, result) := by
  obtain ⟨hobservation, htoken, hsame⟩ := mem_selections hmem
  simp only [evaluateSelection, bind_eq_ok, pure_eq_ok] at h
  obtain ⟨evidence, hevidence, applied, happlied, rfl⟩ := h
  obtain ⟨hevidenceToken, _, hsourced, hafter, _⟩ := buildEvidence_eq_ok hevidence hobservation
    htoken fun event hevent => by cases hevent
  refine ⟨_, _, ⟨hsourced, fun current hcurrent => ?_⟩, mapError_eq_ok.mp happlied⟩
  have hfound :
      state.1.currentStates.find? (epoch, selection.evaluation.tokenId) = some current := by
    rw [← hsame, ← hevidenceToken]
    exact hcurrent
  have hstart := hafter rfl
  rw [hfound] at hstart
  exact hstart

theorem appliedAll_foldlM {epoch run apiRequestLogId : Uuid} {rest : List Selection}
    (hrest : ∀ selection ∈ rest, selection ∈ selections facts store apiRequestLogId)
    {state state' : CandidateStore × List CandidateTransitionResult}
    (h : rest.foldlM (evaluateSelection service facts epoch run) state = .ok state')
    (hbefore : AppliedAll service.ids service.policy (Evaluated service facts) store state.1) :
    AppliedAll service.ids service.policy (Evaluated service facts) store state'.1 := by
  induction rest generalizing state with
  | nil =>
    cases h
    exact hbefore
  | cons selection rest ih =>
    rw [List.foldlM_cons, bind_eq_ok] at h
    obtain ⟨next, hselection, hfold⟩ := h
    obtain ⟨call, result, hevaluated, happlied⟩ :=
      evaluateSelection_eq_ok (hrest selection List.mem_cons_self) hselection
    exact ih (fun other hother => hrest other (List.mem_cons_of_mem _ hother)) hfold
      (.more hbefore hevaluated happlied)

theorem evaluateRequest_eq_ok {apiRequestLogId collectorRunId : Uuid}
    {results : List CandidateTransitionResult}
    (h : evaluateRequest service facts store apiRequestLogId collectorRunId =
      .ok (store', results)) :
    AppliedAll service.ids service.policy (Evaluated service facts) store store' := by
  unfold evaluateRequest at h
  split at h
  · cases h
    exact .nothing
  · next epoch _ =>
    exact appliedAll_foldlM (fun _ hmem => hmem) h .nothing

theorem evaluateSecurityToken_eq_ok {collectionEpochId tokenId : Uuid}
    {collectorRunId : Option Uuid} {evaluatedAt : Int} {result : Option CandidateTransitionResult}
    (h : evaluateSecurityToken service facts store collectionEpochId collectorRunId tokenId
      evaluatedAt = .ok (store', result)) :
    AppliedAll service.ids service.policy (Evaluated service facts) store store' := by
  unfold evaluateSecurityToken at h
  split at h
  · next schedule observation current hschedule hobservation hcurrent =>
    simp only [bind_eq_ok, pure_eq_ok] at h
    obtain ⟨evidence, hevidence, applied, happlied, heq⟩ := h
    cases heq
    obtain ⟨hmem, htoken⟩ := latestObservation_eq_some hobservation
    have hown : schedule.tokenId = tokenId := (Table.find?_eq_some_iff.mp hschedule).2
    obtain ⟨hevidenceToken, _, hsourced, hafter, _⟩ := buildEvidence_eq_ok hevidence hmem
      (hown ▸ htoken) fun event hevent => by cases hevent
    refine .more .nothing ⟨hsourced, fun state hstate => ?_⟩ (mapError_eq_ok.mp happlied)
    have hfound : store.currentStates.find? (collectionEpochId, tokenId) = some state := by
      rw [← hown, ← hevidenceToken]
      exact hstate
    rw [hcurrent] at hfound
    cases hfound
    exact hafter rfl
  · cases h
    exact .nothing

theorem boostEventOf_eq_some {boostObservationId : Uuid} {event : BoostEventFact}
    (h : facts.boostEventOf boostObservationId = some event) :
    event ∈ facts.boostEvents ∧ event.columns = boostObservationId := by
  have hmem := (mem_sortOn _ _ _).mp (List.mem_of_head? h)
  exact ⟨(List.mem_filter.mp hmem).1, of_decide_eq_true (List.mem_filter.mp hmem).2⟩

/-- A wake-up applies nothing, or below the gate a call for the event of its observation. -/
theorem evaluateBoostObservation_eq_ok {boostObservationId collectorRunId : Uuid}
    {result : Option CandidateTransitionResult}
    (h : evaluateBoostObservation service facts store boostObservationId collectorRunId =
      .ok (store', result)) :
    store' = store ∨ ∃ call result, ∃ event ∈ facts.boostEvents,
      boostNominations store.candidateEvents.rows call.evidence.evaluatedAt <
        service.policy.boostWakeupsPerMinute ∧
      event.columns = boostObservationId ∧
      call.evidence.boostEventId = some (service.uuidText event.id) ∧
      Sourced service.uuidText facts call.evidence.toEvidenceFields ∧
      applyEvaluation service.ids service.policy store call = .ok (store', result) := by
  unfold evaluateBoostObservation at h
  split at h
  · next boost epoch hboost _ =>
    split at h
    · cases h
      exact .inl rfl
    · next hgate =>
      split at h
      · next schedule observation event hschedule hobservation hevent =>
        simp only [bind_eq_ok, pure_eq_ok] at h
        obtain ⟨evidence, hevidence, applied, happlied, heq⟩ := h
        cases heq
        obtain ⟨hmem, htoken⟩ := latestObservation_eq_some hobservation
        have hown : schedule.tokenId = boost.tokenId := (Table.find?_eq_some_iff.mp hschedule).2
        have hboostId : boost.id = boostObservationId := by
          simpa using List.find?_some hboost
        obtain ⟨heventMem, hcolumns⟩ := boostEventOf_eq_some hevent
        obtain ⟨boost', hboost', hid, heventToken, _⟩ := facts.boostEvents_observed event heventMem
        have hsame : boost' = boost := List.inj_on_of_nodup_map facts.boosts_unique hboost'
          (List.mem_of_find?_eq_some hboost) (hid.trans hcolumns)
        obtain ⟨_, hwatermark, hsourced, _, hnamed⟩ := buildEvidence_eq_ok hevidence hmem
          (hown ▸ htoken) fun other hother => by
            cases hother
            exact ⟨heventMem, heventToken.symm.trans ((congrArg TokenFact.tokenId hsame).trans
              hown.symm)⟩
        refine .inr ⟨_, _, event, heventMem, ?_, hcolumns.trans hboostId, hnamed event rfl,
          hsourced, mapError_eq_ok.mp happlied⟩
        show boostNominations _ evidence.evaluatedAt < _
        rw [hsourced.evaluated, hwatermark]
        exact not_le.mp hgate
      · cases h
        exact .inl rfl
  · cases h
    exact .inl rfl

end Entries

/-! ### Budgets -/

section Counts
variable {α κ : Type*} [DecidableEq κ] {key : α → κ}

/-- An upsert of one row adds at most that row to a count. -/
theorem countP_upsert_le (t : Table key) (a : α) (p : α → Bool) :
    ((t.insertNew a).write [a]).rows.countP p ≤ t.rows.countP p + 1 := by
  cases hf : t.find? (key a) with
  | some b =>
    rw [Table.insertNew_eq_self hf]
    exact Table.countP_write_singleton_le t a p
  | none =>
    have hrows := Table.rows_insertNew_of_find?_eq_none hf
    have hsame : ((t.insertNew a).write [a]).rows.countP p = (t.insertNew a).rows.countP p := by
      refine Table.countP_write_of_agree fun new hnew old hold hkey => ?_
      rw [List.mem_singleton.mp hnew] at hkey ⊢
      have hlast : a ∈ (t.insertNew a).rows :=
        hrows ▸ List.mem_append_right _ (List.mem_singleton_self a)
      rw [(t.insertNew a).eq_of_key_eq hold hlast hkey]
    rw [hsame, hrows, List.countP_append]
    have hone : [a].countP p ≤ 1 := List.countP_le_length
    omega

/-- Nothing is added when the row is not counted, or was counted under its key before. -/
theorem countP_upsert_le_of {t : Table key} {a : α} {p : α → Bool}
    (h : p a = true → ∃ b, t.find? (key a) = some b ∧ p b = true) :
    ((t.insertNew a).write [a]).rows.countP p ≤ t.rows.countP p := by
  cases hf : t.find? (key a) with
  | some b =>
    rw [Table.insertNew_eq_self hf]
    refine Table.countP_write_le fun new hnew hp old hold hkey => ?_
    rw [List.mem_singleton.mp hnew] at hp hkey
    obtain ⟨found, hfound, hcounted⟩ := h hp
    have hsame : old = found := t.eq_of_key_eq hold (Table.find?_eq_some_iff.mp hfound).1
      (hkey.trans (Table.find?_eq_some_iff.mp hfound).2.symm)
    rw [hsame]
    exact hcounted
  | none =>
    have hnot : p a = false := by
      cases hp : p a with
      | false => rfl
      | true =>
        obtain ⟨b, hb, _⟩ := h hp
        rw [hf] at hb
        cases hb
    have hrows := Table.rows_insertNew_of_find?_eq_none hf
    have hle : ((t.insertNew a).write [a]).rows.countP p ≤ (t.insertNew a).rows.countP p := by
      refine Table.countP_write_le fun new hnew hp old _ _ => ?_
      rw [List.mem_singleton.mp hnew, hnot] at hp
      cases hp
    rw [hrows, List.countP_append, List.countP_singleton, hnot] at hle
    simpa using hle

end Counts

section Budgets
variable {ids : CandidateIdentities} {policy : CandidatePolicy} {store store' : CandidateStore}
  {call : EvaluationCall} {result : CandidateTransitionResult}

/-- A token moves to deep review only while there is room for it. -/
theorem planned_tier3 {decision : EvaluationDecision}
    (h : plannedTransition ids policy store call = some (decision, .tier3DeepReview))
    (hprevious : previousTier (currentOf store call) ≠ .tier3DeepReview) :
    tier3Count store < policy.maxTier3Candidates := by
  simp only [plannedTransition] at h
  split at h
  · cases h
  · split at h
    · cases h
    · obtain ⟨-, htarget⟩ := Prod.mk.inj (Option.some.inj h)
      have hadmitted : (tier3Admitted policy store (previousTier (currentOf store call))
          call.decision).targetTier = .tier3DeepReview := by
        cases targetTier_eq_or (currentOf store call) call.now
            (tier3Admitted policy store (previousTier (currentOf store call)) call.decision) with
        | inl hkept => exact absurd (hkept.symm.trans htarget) hprevious
        | inr hasked => exact hasked.symm.trans htarget
      by_contra hfull
      unfold tier3Admitted at hadmitted
      by_cases hasked : call.decision.targetTier = .tier3DeepReview
      · rw [if_pos ⟨hasked, hprevious, not_lt.mp hfull⟩] at hadmitted
        exact hprevious hadmitted
      · rw [if_neg fun hall => hasked hall.1] at hadmitted
        exact hasked hadmitted

theorem tier3Count_kept (h : applyEvaluation ids policy store call = .ok (store', result))
    (hle : tier3Count store ≤ policy.maxTier3Candidates) :
    tier3Count store' ≤ policy.maxTier3Candidates := by
  cases applyEvaluation_tierEffect h with
  | kept _ states _ => rwa [tier3Count, states]
  | moved decision target values state planned moves key tier watermark states events =>
    by_cases hroom : target = .tier3DeepReview ∧
        previousTier (currentOf store call) ≠ .tier3DeepReview
    · obtain ⟨rfl, hprevious⟩ := hroom
      have hone := countP_upsert_le store.currentStates state (·.tier = .tier3DeepReview)
      rw [tier3Count, states]
      exact hone.trans (planned_tier3 planned hprevious)
    · refine le_trans ?_ hle
      rw [tier3Count, states]
      refine countP_upsert_le_of fun hcounted => ?_
      have htarget : target = .tier3DeepReview := tier.symm.trans (of_decide_eq_true hcounted)
      have hprevious : previousTier (currentOf store call) = .tier3DeepReview := by
        by_contra hother
        exact hroom ⟨htarget, hother⟩
      rw [key]
      cases hcurrent : currentOf store call with
      | none =>
        rw [hcurrent] at hprevious
        cases hprevious
      | some current =>
        rw [hcurrent] at hprevious
        exact ⟨current, hcurrent, decide_eq_true hprevious⟩

end Budgets

/-! ### Deep reviews and wake-ups in a run -/

/-- Deep reviews and boost wake-ups keep to their budgets; what wake-ups nominated is stored. -/
structure WithinBudgets (policy : CandidatePolicy) (s : OrchestrationSystem) : Prop where
  tier3 : tier3Count s.store ≤ policy.maxTier3Candidates
  wakeups : ∀ time, boostNominations s.woken time ≤ policy.boostWakeupsPerMinute
  recorded : s.woken.Sublist s.store.candidateEvents.rows

section BudgetRuns
variable {service : OrchestrationService} {s : OrchestrationSystem}

theorem applyEvaluation_appends {ids : CandidateIdentities} {policy : CandidatePolicy}
    {store store' : CandidateStore} {call : EvaluationCall} {result : CandidateTransitionResult}
    (h : applyEvaluation ids policy store call = .ok (store', result)) :
    store.candidateEvents.rows <+: store'.candidateEvents.rows := by
  cases applyEvaluation_events h with
  | inl hsame => rw [hsame]
  | inr hnew =>
    obtain ⟨_, event, _, hrows⟩ := hnew
    exact hrows ▸ List.prefix_append _ _

theorem WithinBudgets.stored {store : CandidateStore} (h : WithinBudgets service.policy s)
    (htier3 : tier3Count store ≤ service.policy.maxTier3Candidates)
    (hrows : s.store.candidateEvents.rows <+: store.candidateEvents.rows) :
    WithinBudgets service.policy { s with store := store } :=
  ⟨htier3, h.wakeups, h.recorded.trans hrows.sublist⟩

theorem WithinBudgets.applied {store : CandidateStore} {call : EvaluationCall}
    {result : CandidateTransitionResult} (h : WithinBudgets service.policy s)
    (happlied : applyEvaluation service.ids service.policy s.store call = .ok (store, result)) :
    WithinBudgets service.policy { s with store := store } :=
  h.stored (tier3Count_kept happlied h.tier3) (applyEvaluation_appends happlied)

theorem WithinBudgets.appliedAll {store : CandidateStore}
    {kind : CandidateStore → EvaluationCall → Prop} (h : WithinBudgets service.policy s)
    (hall : AppliedAll service.ids service.policy kind s.store store) :
    WithinBudgets service.policy { s with store := store } :=
  hall.invariant (I := fun store => WithinBudgets service.policy { s with store := store })
    (fun _ _ _ _ hkept _ happlied => hkept.applied happlied) h

/-- One more event of the minute fits, when fewer than the limit were stored in it. -/
theorem boostNominations_append_le {woken rows : List CandidateEvent} {event : CandidateEvent}
    {limit : Nat} (hrecorded : woken.Sublist rows)
    (hwoken : ∀ time, boostNominations woken time ≤ limit)
    (hroom : boostNominations rows event.candidateAt < limit) (time : Int) :
    boostNominations (woken ++ [event]) time ≤ limit := by
  unfold boostNominations at *
  rw [List.countP_append, List.countP_singleton]
  by_cases hcounted : (event.triggerType = .boostActivity &&
      minuteStart time ≤ event.candidateAt &&
      event.candidateAt < minuteStart time + 60000000) = true
  · rw [if_pos hcounted]
    simp only [Bool.and_eq_true, decide_eq_true_eq] at hcounted
    have hminute : minuteStart event.candidateAt = minuteStart time := by
      unfold minuteStart at *
      omega
    rw [hminute] at hroom
    have hle := hrecorded.countP_le (p := fun event => event.triggerType = .boostActivity &&
      minuteStart time ≤ event.candidateAt && event.candidateAt < minuteStart time + 60000000)
    omega
  · rw [if_neg hcounted]
    exact hwoken time

theorem WithinBudgets.step (h : WithinBudgets service.policy s) (action : OrchestrationAction) :
    WithinBudgets service.policy (orchestrationStep service s action) := by
  cases action with
  | commit facts =>
    unfold orchestrationStep
    dsimp only
    split
    · exact ⟨h.tier3, h.wakeups, h.recorded⟩
    · exact h
  | otherWork schedules tasks => exact ⟨h.tier3, h.wakeups, h.recorded⟩
  | request apiRequestLogId collectorRunId =>
    unfold orchestrationStep
    dsimp only
    split
    · exact h
    · next hrun => exact h.appliedAll (evaluateRequest_eq_ok hrun)
  | security collectionEpochId collectorRunId tokenId evaluatedAt =>
    unfold orchestrationStep
    dsimp only
    split
    · exact h
    · next hrun => exact h.appliedAll (evaluateSecurityToken_eq_ok hrun)
  | direct call =>
    unfold orchestrationStep
    dsimp only
    split
    · exact h
    · next hrun => exact h.applied hrun
  | boost facts boostObservationId collectorRunId =>
    unfold orchestrationStep
    dsimp only
    split
    · split
      · exact h
      · next store _ hrun =>
        cases evaluateBoostObservation_eq_ok hrun with
        | inl hsame =>
          rw [hsame, List.drop_length, List.append_nil]
          exact ⟨h.tier3, h.wakeups, h.recorded⟩
        | inr hcalled =>
          obtain ⟨call, _, _, _, hroom, _, _, _, happlied⟩ := hcalled
          have htier3 := tier3Count_kept happlied h.tier3
          cases applyEvaluation_events happlied with
          | inl hevents =>
            rw [hevents, List.drop_length, List.append_nil]
            exact ⟨htier3, h.wakeups, hevents ▸ h.recorded⟩
          | inr hnew =>
            obtain ⟨_, event, hnominates, hrows⟩ := hnew
            rw [hrows, List.drop_left]
            rw [← hnominates.candidateAt] at hroom
            exact ⟨htier3, boostNominations_append_le h.recorded h.wakeups hroom,
              hrows ▸ h.recorded.append (List.Sublist.refl _)⟩
    · exact h

end BudgetRuns

/-- In every run, whatever decisions the calls bring, the deep reviews keep to their number and the
boost wake-ups of every minute to theirs. -/
theorem orchestration_within_budgets (service : OrchestrationService) (facts : CandidateFacts)
    (schedules : ScheduleTable) (tasks : TaskTable) (actions : List OrchestrationAction) :
    Always (orchestrationStep service) (WithinBudgets service.policy)
      (startOrchestration facts schedules tasks) actions :=
  always_of_kept (fun _ action h => h.step action)
    ⟨Nat.zero_le _, fun _ => Nat.zero_le _, List.Sublist.refl _⟩ actions

/-! ### Where nominations come from -/

section Nominations
variable (uuidText : Uuid → String) (direct : List CandidateEvidence)

/-- Of two events of one token in one epoch with evidence of the service, the later one names no
boost event of the earlier one. -/
def BoostOnce (earlier later : CandidateEvent) : Prop :=
  earlier.collectionEpochId = later.collectionEpochId → earlier.tokenId = later.tokenId →
    earlier.evidenceSnapshot ∉ direct → later.evidenceSnapshot ∉ direct →
      ∀ id ∈ later.evidenceSnapshot.boostEventId, earlier.evidenceSnapshot.boostEventId ≠ some id

/-- Every nomination has the evidence of a direct call or evidence read from committed facts, the
projection is never older than it, and no boost event nominates twice. -/
structure Nominated (facts : CandidateFacts) (store : CandidateStore) : Prop where
  sourced : ∀ event ∈ store.candidateEvents.rows, event.tokenId = event.evidenceSnapshot.tokenId ∧
    event.candidateAt = event.evidenceSnapshot.evaluatedAt ∧
    (event.evidenceSnapshot ∈ direct ∨
      Sourced uuidText facts event.evidenceSnapshot.toEvidenceFields)
  projected : ∀ event ∈ store.candidateEvents.rows, ∃ state,
    store.currentStates.find? (event.collectionEpochId, event.tokenId) = some state ∧
      event.evidenceSnapshot.watermark ≤ state.inputWatermark
  once : store.candidateEvents.rows.Pairwise (BoostOnce direct)

end Nominations

section NominationRules
variable {service : OrchestrationService} {facts facts' : CandidateFacts}
  {store store' : CandidateStore} {call : EvaluationCall} {result : CandidateTransitionResult}
  {direct : List CandidateEvidence}

theorem Sourced.boost_row {uuidText : Uuid → String} {e : EvidenceFields}
    (h : Sourced uuidText facts e) {id : String} (hid : e.boostEventId = some id) :
    ∃ row ∈ facts.boostEvents, uuidText row.id = id ∧ row.receivedAt ≤ e.watermark ∧
      e.boostReceivedAt = some row.receivedAt := by
  obtain ⟨found, hfrom, hname, htime⟩ := h.boost
  rw [hid] at hname
  cases hfrom with
  | absent => cases hname
  | present row row_mem token received =>
    exact ⟨row, row_mem, (Option.some.inj hname).symm, received, htime⟩

/-- Boost events of one name are one row. -/
theorem boostEvent_unique (service : OrchestrationService) {row row' : BoostEventFact}
    (hrow : row ∈ facts.boostEvents) (hrow' : row' ∈ facts.boostEvents)
    (hname : service.uuidText row.id = service.uuidText row'.id) : row = row' :=
  List.inj_on_of_nodup_map facts.boostEvents_unique hrow hrow' (service.uuidText_injective hname)

theorem Nominated.keptFacts {uuidText : Uuid → String}
    (h : Nominated uuidText direct facts store) (hkept : facts.Kept facts') :
    Nominated uuidText direct facts' store where
  sourced event hevent := by
    obtain ⟨htoken, hat, hsource⟩ := h.sourced event hevent
    exact ⟨htoken, hat, hsource.imp_right fun hsourced => hsourced.mono hkept⟩
  projected := h.projected
  once := h.once

/-- The projection of a token stays, and never goes back in time. -/
theorem projection_kept (h : applyEvaluation service.ids service.policy store call =
    .ok (store', result)) {key : Uuid × Uuid} {state : CandidateCurrentState}
    (hstate : store.currentStates.find? key = some state) :
    ∃ state', store'.currentStates.find? key = some state' ∧
      state.inputWatermark ≤ state'.inputWatermark := by
  cases applyEvaluation_tierEffect h with
  | kept _ states _ => exact ⟨state, states ▸ hstate, le_rfl⟩
  | moved decision target values new planned moves hkeyed tier watermark states events =>
    rw [states, Table.find?_upsert]
    by_cases hkey : new.key = key
    · rw [if_pos hkey]
      refine ⟨new, rfl, ?_⟩
      have hcurrent : currentOf store call = some state := by
        rw [currentOf, ← hkeyed, hkey]
        exact hstate
      rw [watermark]
      cases planned_not_older planned hcurrent with
      | inl hlater => exact hlater.le
      | inr hsame => exact hsame.1.le
    · rw [if_neg hkey]
      exact ⟨state, hstate, le_rfl⟩

/-- A nomination moves the projection to its watermark. -/
theorem projection_moved (h : applyEvaluation service.ids service.policy store call =
    .ok (store', result))
    (hplanned : (plannedTransition service.ids service.policy store call).isSome) :
    ∃ state, store'.currentStates.find? (call.collectionEpochId, call.evidence.tokenId) =
      some state ∧ state.inputWatermark = call.evidence.watermark := by
  cases applyEvaluation_tierEffect h with
  | kept planned _ _ =>
    rw [planned] at hplanned
    cases hplanned
  | moved decision target values new planned moves hkeyed tier watermark states events =>
    rw [states, Table.find?_upsert, if_pos hkeyed]
    exact ⟨new, rfl, watermark⟩

/-- One more evaluation, whose boost event has nominated its token in no other evidence. -/
theorem Nominated.applied (h : Nominated service.uuidText direct facts store)
    (happlied : applyEvaluation service.ids service.policy store call = .ok (store', result))
    (hevidence : call.evidence ∈ direct ∨
      Sourced service.uuidText facts call.evidence.toEvidenceFields)
    (hnew : call.evidence ∉ direct → ∀ event ∈ store.candidateEvents.rows,
      event.collectionEpochId = call.collectionEpochId → event.tokenId = call.evidence.tokenId →
        event.evidenceSnapshot ∉ direct →
          ∀ id ∈ call.evidence.boostEventId, event.evidenceSnapshot.boostEventId ≠ some id) :
    Nominated service.uuidText direct facts store' := by
  have hprojected : ∀ event ∈ store.candidateEvents.rows, ∃ state,
      store'.currentStates.find? (event.collectionEpochId, event.tokenId) = some state ∧
        event.evidenceSnapshot.watermark ≤ state.inputWatermark := by
    intro event hevent
    obtain ⟨state, hstate, hle⟩ := h.projected event hevent
    obtain ⟨state', hstate', hlater⟩ := projection_kept happlied hstate
    exact ⟨state', hstate', hle.trans hlater⟩
  cases applyEvaluation_events happlied with
  | inl hsame =>
    exact ⟨hsame ▸ h.sourced, hsame ▸ hprojected, hsame ▸ h.once⟩
  | inr hnominated =>
    obtain ⟨hplanned, event, hnominates, hrows⟩ := hnominated
    refine ⟨?_, ?_, ?_⟩
    · rw [hrows]
      refine List.forall_mem_append.mpr ⟨h.sourced, List.forall_mem_singleton.mpr ⟨?_, ?_, ?_⟩⟩
      · rw [hnominates.token, hnominates.evidence]
      · rw [hnominates.candidateAt, hnominates.evidence]
      · rw [hnominates.evidence]
        exact hevidence
    · rw [hrows]
      refine List.forall_mem_append.mpr ⟨hprojected, List.forall_mem_singleton.mpr ?_⟩
      obtain ⟨state, hstate, hwatermark⟩ := projection_moved happlied hplanned
      rw [hnominates.epoch, hnominates.token, hnominates.evidence]
      exact ⟨state, hstate, hwatermark.ge⟩
    · rw [hrows]
      refine List.pairwise_append.mpr ⟨h.once, List.pairwise_singleton _ _, ?_⟩
      intro earlier hearlier later hlater
      rw [List.mem_singleton.mp hlater]
      intro hepoch htoken hservice hservice' id hid
      rw [hnominates.evidence] at hservice' hid
      exact hnew hservice' earlier hearlier (hepoch.trans hnominates.epoch)
        (htoken.trans hnominates.token) hservice id hid

/-- A boost event that is looked for after the projection has nominated its token in no stored
evidence. -/
theorem Nominated.evaluated (h : Nominated service.uuidText direct facts store)
    (hcall : Evaluated service facts store call) {event : CandidateEvent}
    (hevent : event ∈ store.candidateEvents.rows)
    (hepoch : event.collectionEpochId = call.collectionEpochId)
    (htoken : event.tokenId = call.evidence.tokenId) (hservice : event.evidenceSnapshot ∉ direct)
    {id : String} (hid : call.evidence.boostEventId = some id) :
    event.evidenceSnapshot.boostEventId ≠ some id := by
  intro hrepeated
  have hsourced := (h.sourced event hevent).2.2.resolve_left hservice
  obtain ⟨row, hrow, hname, hreceived, _⟩ := hsourced.boost_row hrepeated
  obtain ⟨row', hrow', hname', _, htime⟩ := hcall.sourced.boost_row hid
  obtain rfl := boostEvent_unique service hrow hrow' (hname.trans hname'.symm)
  obtain ⟨state, hstate, hle⟩ := h.projected event hevent
  rw [hepoch, htoken] at hstate
  have hlater := hcall.newBoost state hstate state.inputWatermark rfl row.receivedAt htime
  exact absurd hlater (not_lt.mpr (hreceived.trans hle))

theorem Nominated.appliedAll (h : Nominated service.uuidText direct facts store)
    (hall : AppliedAll service.ids service.policy (Evaluated service facts) store store') :
    Nominated service.uuidText direct facts store' := by
  refine hall.invariant (fun store store' call result hstore hcall happlied => ?_) h
  exact hstore.applied happlied (.inr hcall.sourced)
    fun _ event hevent hepoch htoken hservice id hid =>
      hstore.evaluated hcall hevent hepoch htoken hservice hid

end NominationRules

theorem Nominated.step {service : OrchestrationService} {direct : List CandidateEvidence}
    {s : OrchestrationSystem} (h : Nominated service.uuidText direct s.facts s.store)
    {action : OrchestrationAction}
    (hdirect : ∀ call, action = .direct call → call.evidence ∈ direct) :
    Nominated service.uuidText direct (orchestrationStep service s action).facts
      (orchestrationStep service s action).store := by
  cases action with
  | commit facts =>
    unfold orchestrationStep
    dsimp only
    split
    · next hkept => exact h.keptFacts hkept
    · exact h
  | otherWork schedules tasks => exact ⟨h.sourced, h.projected, h.once⟩
  | request apiRequestLogId collectorRunId =>
    unfold orchestrationStep
    dsimp only
    split
    · exact h
    · next hrun => exact h.appliedAll (evaluateRequest_eq_ok hrun)
  | security collectionEpochId collectorRunId tokenId evaluatedAt =>
    unfold orchestrationStep
    dsimp only
    split
    · exact h
    · next hrun => exact h.appliedAll (evaluateSecurityToken_eq_ok hrun)
  | direct call =>
    unfold orchestrationStep
    dsimp only
    have hbrought := hdirect call rfl
    split
    · exact h
    · next hrun => exact h.applied hrun (.inl hbrought) fun hnot => absurd hbrought hnot
  | boost facts boostObservationId collectorRunId =>
    unfold orchestrationStep
    dsimp only
    split
    · next hcommit =>
      obtain ⟨hkept, hfresh⟩ := hcommit
      split
      · exact h
      · next store _ hrun =>
        have hbefore := h.keptFacts hkept
        cases evaluateBoostObservation_eq_ok hrun with
        | inl hsame => exact hsame ▸ hbefore
        | inr hcalled =>
          obtain ⟨call, _, boost, hboost, _, hobservation, hnamed, hsourced, happlied⟩ := hcalled
          refine hbefore.applied happlied (.inr hsourced) ?_
          intro _ event hevent _ _ hservice id hid hrepeated
          -- The event is of the new observation, and the stored evidence is from before it.
          have hold := (h.sourced event hevent).2.2.resolve_left hservice
          obtain ⟨row, hrow, hname, _, _⟩ := hold.boost_row hrepeated
          have hsame : row = boost := by
            refine boostEvent_unique service (hkept.2.2.2.1 hrow) hboost (hname.trans ?_)
            exact Option.some.inj (hid.symm.trans hnamed)
          obtain ⟨observed, hobserved, hid', _, _⟩ := s.facts.boostEvents_observed row hrow
          exact hfresh observed hobserved (hid'.trans (hsame ▸ hobservation))
    · exact h

end PumpResearch.Candidates
