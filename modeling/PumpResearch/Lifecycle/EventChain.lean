import PumpResearch.Lifecycle.Evaluations
import PumpResearch.Scheduling.System

/-! The lifecycle history of an admitted token. Over every sequence of evaluated responses its
events form a chain from `NEW` that ends in the state of its schedule. -/
namespace PumpResearch.Lifecycle
open KeyedTable Results Runs
open Scheduling (LifecycleState PollSchedule)

/-- The classifier's events of a token, in the order of their commits. -/
def classifierEvents (store : ClassifierStore) (tokenId : Uuid) : List LifecycleEvent :=
  store.events.rows.filter fun event =>
    event.tokenId = tokenId ∧ event.lifecycleEvidenceEvaluationId.isSome

/-- The digests tell apart the texts they are taken of. -/
structure SeparatingKeys (digests : LifecycleDigests) : Prop where
  token : ∀ {t t' e e' rule rule' sha sha'},
    digests.transitionKey t e rule sha = digests.transitionKey t' e' rule' sha' → t = t'
  rule : ∀ {t t' e e' rule rule' sha sha'},
    digests.transitionKey t e rule sha = digests.transitionKey t' e' rule' sha' → rule = rule'
  admission : ∀ {request t t' e rule sha},
    digests.admissionKey request t ≠ digests.transitionKey t' e rule sha

/-- A token that the classifier has not met: no schedule, no event of its transitions. -/
structure Unadmitted (classifier : LifecycleClassifier) (store : ClassifierStore)
    (tokenId : Uuid) : Prop where
  schedule : store.scheduler.schedules.find? tokenId = none
  events : classifierEvents store tokenId = []
  keys : ∀ event ∈ store.events.rows, ∀ evaluationId rule sha,
    event.idempotencyKey ≠ classifier.digests.transitionKey tokenId evaluationId rule sha

/-- The history of a token and its schedule agree. -/
structure HistoryAgrees (tokenId : Uuid) (admittedAt : Int) (store : ClassifierStore) : Prop where
  first : ∀ event ∈ (classifierEvents store tokenId).head?,
    event.previousState = some LifecycleState.new.value
  chained : (classifierEvents store tokenId).IsChain fun earlier later =>
    later.previousState = some earlier.newState
  increasing : (classifierEvents store tokenId).Pairwise fun earlier later =>
    earlier.decidedAt < later.decidedAt
  after : ∀ event ∈ classifierEvents store tokenId, admittedAt < event.decidedAt
  projected : ∃ schedule, store.scheduler.schedules.find? tokenId = some schedule ∧
    schedule.lifecycleState.value =
      ((classifierEvents store tokenId).getLast?.map (·.newState)).getD LifecycleState.new.value ∧
    schedule.stateDecidedAt =
      ((classifierEvents store tokenId).getLast?.map (·.decidedAt)).getD admittedAt
  path : ∃ state, (state = LifecycleState.active ∨ state = LifecycleState.watch) ∧
    (classifierEvents store tokenId).map (·.newState) <+:
      [state, .fading, .dormant, .resurrected].map LifecycleState.value
  distinct : (LifecycleState.new.value ::
    (classifierEvents store tokenId).map (·.newState)).Nodup

/-- A call whose candidates for a token were all received before the decision of its current
state leaves the events of the token alone. -/
def LateIsSilent (classifier : LifecycleClassifier) (tokenId : Uuid) (store : ClassifierStore) :
    Prop :=
  ∀ (call : Call classifier) (schedule : PollSchedule),
    store.scheduler.schedules.find? tokenId = some schedule →
    (∀ candidate ∈ call.candidates tokenId,
      candidate.observationReceivedAt < schedule.stateDecidedAt) →
    classifierEvents (classifierStep classifier store call) tokenId =
      classifierEvents store tokenId

/-! ### Rule sequences -/

def activePath : List LifecycleTransitionRule :=
  [.newToActive, .activeToFading, .fadingToDormant, .dormantToResurrected]

def watchPath : List LifecycleTransitionRule :=
  [.newToWatch, .watchToFading, .fadingToDormant, .dormantToResurrected]

def OnPath (rules : List LifecycleTransitionRule) : Prop :=
  rules <+: activePath ∨ rules <+: watchPath

/-- The state after a sequence of rules. -/
def endState (rules : List LifecycleTransitionRule) : LifecycleState :=
  (rules.getLast?.map (·.target)).getD .new

theorem OnPath.mem_inits {rules : List LifecycleTransitionRule} (h : OnPath rules) :
    rules ∈ activePath.inits ++ watchPath.inits := by
  cases h with
  | inl h => exact List.mem_append_left _ ((List.mem_inits _ _).mpr h)
  | inr h => exact List.mem_append_right _ ((List.mem_inits _ _).mpr h)

/-- A rule that leaves the last state extends the sequence and is new to it. -/
theorem OnPath.extend {rules : List LifecycleTransitionRule} (h : OnPath rules)
    {rule : LifecycleTransitionRule} (hsource : endState rules = rule.source) :
    OnPath (rules ++ [rule]) ∧ rule ∉ rules := by
  have hall : ∀ rules ∈ activePath.inits ++ watchPath.inits, endState rules = rule.source →
      (rules ++ [rule] ∈ activePath.inits ++ watchPath.inits) ∧ rule ∉ rules := by
    cases rule <;> decide
  obtain ⟨hmem, hnew⟩ := hall rules h.mem_inits hsource
  refine ⟨?_, hnew⟩
  cases List.mem_append.mp hmem with
  | inl hactive => exact .inl ((List.mem_inits _ _).mp hactive)
  | inr hwatch => exact .inr ((List.mem_inits _ _).mp hwatch)

/-! ### The invariant -/

section Invariant
variable {classifier : LifecycleClassifier} {tokenId : Uuid} {admittedAt : Int}
  {store store' : ClassifierStore} {rules : List LifecycleTransitionRule}

/-- The token has taken these rules, one event for each. -/
structure History (classifier : LifecycleClassifier) (tokenId : Uuid) (admittedAt : Int)
    (store : ClassifierStore) (rules : List LifecycleTransitionRule) : Prop where
  onPath : OnPath rules
  texts : (classifierEvents store tokenId).map (fun event => (event.previousState, event.newState)) =
    rules.map fun rule => (some rule.source.value, rule.target.value)
  increasing : (classifierEvents store tokenId).Pairwise fun earlier later =>
    earlier.decidedAt < later.decidedAt
  projected : ∃ schedule, store.scheduler.schedules.find? tokenId = some schedule ∧
    schedule.lifecycleState = endState rules ∧
    schedule.stateDecidedAt =
      ((classifierEvents store tokenId).getLast?.map (·.decidedAt)).getD admittedAt ∧
    admittedAt ≤ schedule.stateDecidedAt ∧
    ∀ event ∈ classifierEvents store tokenId,
      admittedAt < event.decidedAt ∧ event.decidedAt ≤ schedule.stateDecidedAt
  keys : ∀ event ∈ store.events.rows, ∀ evaluationId rule sha,
    event.idempotencyKey = classifier.digests.transitionKey tokenId evaluationId rule sha →
      rule ∈ rules

/-- Nothing about the token has changed. -/
structure Untouched (classifier : LifecycleClassifier) (tokenId : Uuid)
    (store store' : ClassifierStore) : Prop where
  schedule : store'.scheduler.schedules.find? tokenId = store.scheduler.schedules.find? tokenId
  events : classifierEvents store' tokenId = classifierEvents store tokenId
  keys : ∀ event ∈ store'.events.rows, event ∈ store.events.rows ∨
    ∀ evaluationId rule sha,
      event.idempotencyKey ≠ classifier.digests.transitionKey tokenId evaluationId rule sha

theorem Untouched.refl : Untouched classifier tokenId store store :=
  ⟨rfl, rfl, fun _ h => .inl h⟩

theorem Untouched.trans {mid : ClassifierStore} (h : Untouched classifier tokenId store mid)
    (h' : Untouched classifier tokenId mid store') :
    Untouched classifier tokenId store store' := by
  refine ⟨h'.schedule.trans h.schedule, h'.events.trans h.events, ?_⟩
  intro event hevent
  cases h'.keys event hevent with
  | inl hmid => exact h.keys event hmid
  | inr hother => exact .inr hother

theorem History.untouched (h : History classifier tokenId admittedAt store rules)
    (hsame : Untouched classifier tokenId store store') :
    History classifier tokenId admittedAt store' rules := by
  refine ⟨h.onPath, ?_, ?_, ?_, ?_⟩
  · rw [hsame.events]
    exact h.texts
  · rw [hsame.events]
    exact h.increasing
  · rw [hsame.events, hsame.schedule]
    exact h.projected
  · intro event hevent evaluationId rule sha hkey
    cases hsame.keys event hevent with
    | inl hold => exact h.keys event hold evaluationId rule sha hkey
    | inr hother => exact absurd hkey (hother evaluationId rule sha)

theorem untouched_of_kept (events : store'.events = store.events)
    (schedules : store'.scheduler.schedules = store.scheduler.schedules) :
    Untouched classifier tokenId store store' :=
  ⟨by rw [schedules], by rw [classifierEvents, events, classifierEvents],
    fun _ h => .inl (events ▸ h)⟩

/-- The rows behind a moved token: one more event, unless its key was there. -/
theorem Moved.rows {candidates : List LifecycleEvidenceCandidate} {schedule : PollSchedule}
    {rule : LifecycleTransitionRule} {event : LifecycleEvent}
    (h : Moved classifier tokenId candidates store store' schedule rule event) :
    store'.events = store.events ∨ store'.events.rows = store.events.rows ++ [event] := by
  cases h.recorded with
  | inl hold => exact .inl hold.choose_spec.2
  | inr hnew =>
    refine .inr ?_
    rw [hnew.2]
    exact Table.rows_insertNew_of_find?_eq_none hnew.1

theorem untouched_of_other (separating : SeparatingKeys classifier.digests) {other : Uuid}
    (hne : other ≠ tokenId) {candidates : List LifecycleEvidenceCandidate}
    (h : TokenEffect classifier other candidates store store') :
    Untouched classifier tokenId store store' := by
  cases h with
  | kept events schedules => exact untouched_of_kept events schedules
  | moved schedule rule event change =>
    obtain ⟨row, _, _, hrows⟩ := change.schedules
    have hschedule := hrows tokenId
    rw [if_neg hne] at hschedule
    refine ⟨hschedule, ?_, ?_⟩
    · cases change.rows with
      | inl hsame => rw [classifierEvents, hsame, classifierEvents]
      | inr hnew =>
        rw [classifierEvents, hnew, List.filter_append]
        simp [classifierEvents, change.token, hne]
    · intro stored hstored
      cases change.rows with
      | inl hsame => exact .inl (hsame ▸ hstored)
      | inr hnew =>
        rw [hnew, List.mem_append, List.mem_singleton] at hstored
        cases hstored with
        | inl hold => exact .inl hold
        | inr hevent =>
          refine .inr fun evaluationId rule' sha hkey => hne ?_
          obtain ⟨evaluationId', hown⟩ := change.key
          rw [hevent, hown] at hkey
          exact separating.token hkey

/-- Evidence from before the current state moves nothing. -/
theorem untouched_of_late {candidates : List LifecycleEvidenceCandidate} {schedule : PollSchedule}
    (hfind : store.scheduler.schedules.find? tokenId = some schedule)
    (hlate : ∀ candidate ∈ candidates, candidate.observationReceivedAt < schedule.stateDecidedAt)
    (h : TokenEffect classifier tokenId candidates store store') :
    Untouched classifier tokenId store store' := by
  cases h with
  | kept events schedules => exact untouched_of_kept events schedules
  | moved other rule event change =>
    obtain ⟨candidate, hmem, hfresh⟩ := change.fresh
    cases hfind.symm.trans change.stored
    exact absurd (hlate candidate hmem) (not_lt.mpr hfresh)

/-- A move is one more rule: its key is free, since no rule is taken twice. -/
theorem History.moved {candidates : List LifecycleEvidenceCandidate} {schedule : PollSchedule}
    {rule : LifecycleTransitionRule} {event : LifecycleEvent}
    (separating : SeparatingKeys classifier.digests)
    (h : History classifier tokenId admittedAt store rules)
    (change : Moved classifier tokenId candidates store store' schedule rule event) :
    History classifier tokenId admittedAt store' (rules ++ [rule]) := by
  obtain ⟨stored, hstored, hstate, _, hadmitted, hbounded⟩ := h.projected
  cases hstored.symm.trans change.stored
  obtain ⟨hpath, hnew⟩ := h.onPath.extend (hstate.symm.trans change.source)
  obtain ⟨evaluationId, hkey⟩ := change.key
  have hrows : store'.events.rows = store.events.rows ++ [event] := by
    cases change.recorded with
    | inl hold =>
      obtain ⟨old, hfound, _⟩ := hold
      obtain ⟨hmem, hsame⟩ := Table.find?_eq_some_iff.mp hfound
      exact absurd (h.keys old hmem evaluationId rule _ (hsame.trans hkey)) hnew
    | inr hfree =>
      rw [hfree.2]
      exact Table.rows_insertNew_of_find?_eq_none hfree.1
  have hevents : classifierEvents store' tokenId = classifierEvents store tokenId ++ [event] := by
    rw [classifierEvents, hrows, List.filter_append]
    simp [classifierEvents, change.token, change.derived]
  obtain ⟨row, hrowState, hrowDecided, hfind⟩ := change.schedules
  refine ⟨hpath, ?_, ?_, ?_, ?_⟩
  · rw [hevents, List.map_append, List.map_append, h.texts]
    simp [change.previous, change.next]
  · rw [hevents, List.pairwise_append]
    refine ⟨h.increasing, List.pairwise_singleton _ _, ?_⟩
    intro earlier hearlier later hlater
    rw [List.mem_singleton.mp hlater]
    exact (hbounded earlier hearlier).2.trans_lt change.later
  · have hlater : admittedAt < event.decidedAt := hadmitted.trans_lt change.later
    refine ⟨row, (hfind tokenId).trans (if_pos rfl), ?_, ?_, ?_, ?_⟩
    · rw [hrowState, endState, List.getLast?_concat]
      rfl
    · rw [hrowDecided, hevents, List.getLast?_concat]
      rfl
    · rw [hrowDecided]
      exact hlater.le
    · intro old hold
      rw [hevents, List.mem_append, List.mem_singleton] at hold
      rw [hrowDecided]
      cases hold with
      | inl hold => exact ⟨(hbounded old hold).1, ((hbounded old hold).2.trans_lt change.later).le⟩
      | inr hold =>
        rw [hold]
        exact ⟨hlater, le_rfl⟩
  · intro old hold evaluationId' rule' sha hkey'
    rw [hrows, List.mem_append, List.mem_singleton] at hold
    cases hold with
    | inl hold => exact List.mem_append_left _ (h.keys old hold evaluationId' rule' sha hkey')
    | inr hold =>
      rw [hold, hkey] at hkey'
      exact List.mem_append_right _ (List.mem_singleton.mpr (separating.rule hkey').symm)

/-- Every rule of a path leaves the state that the one before it entered. -/
theorem OnPath.facts (h : OnPath rules) :
    (∀ rule ∈ rules.head?, rule.source = .new) ∧
      rules.IsChain (fun earlier later => later.source = earlier.target) ∧
      (LifecycleState.new :: rules.map (·.target)).Nodup := by
  have hall : ∀ rules ∈ activePath.inits ++ watchPath.inits,
      (∀ rule ∈ rules.head?, rule.source = .new) ∧
        rules.IsChain (fun earlier later => later.source = earlier.target) ∧
        (LifecycleState.new :: rules.map (·.target)).Nodup := by decide
  exact hall rules h.mem_inits

theorem value_injective : Function.Injective LifecycleState.value := by
  intro a b h
  cases a <;> cases b <;> first | rfl | exact absurd h (by decide)

theorem History.agrees (h : History classifier tokenId admittedAt store rules) :
    HistoryAgrees tokenId admittedAt store := by
  obtain ⟨hfirst, hchain, hdistinct⟩ := h.onPath.facts
  have hstates : (classifierEvents store tokenId).map (·.newState) =
      rules.map fun rule => rule.target.value := by
    have hmap := congrArg (List.map Prod.snd) h.texts
    simpa only [List.map_map, Function.comp_def] using hmap
  have htexts := h.texts
  obtain ⟨schedule, hfind, hstate, hdecided, _, hbounded⟩ := h.projected
  refine ⟨?_, ?_, h.increasing, fun event hevent => (hbounded event hevent).1, ?_, ?_, ?_⟩
  · intro event hevent
    have hhead := congrArg List.head? htexts
    rw [List.head?_map, List.head?_map, Option.mem_def.mp hevent, Option.map_some] at hhead
    cases hrule : rules.head? with
    | none =>
      rw [hrule] at hhead
      cases hhead
    | some rule =>
      rw [hrule, Option.map_some, Option.some.injEq] at hhead
      rw [← hfirst rule hrule]
      exact congrArg Prod.fst hhead
  · have hmapped : ((classifierEvents store tokenId).map fun event =>
        (event.previousState, event.newState)).IsChain fun earlier later =>
          later.1 = some earlier.2 := by
      rw [htexts, List.isChain_map]
      exact hchain.imp fun earlier later hlink => by rw [hlink]
    rwa [List.isChain_map] at hmapped
  · refine ⟨schedule, hfind, ?_, hdecided⟩
    have hlast := congrArg List.getLast? hstates
    rw [List.getLast?_map, List.getLast?_map] at hlast
    rw [hlast, hstate, endState]
    cases rules.getLast? <;> rfl
  · rw [hstates]
    cases h.onPath with
    | inl hactive => exact ⟨.active, .inl rfl, hactive.map fun rule => rule.target.value⟩
    | inr hwatch => exact ⟨.watch, .inr rfl, hwatch.map fun rule => rule.target.value⟩
  · have hvalues := hdistinct.map value_injective
    rw [List.map_cons, List.map_map] at hvalues
    rw [hstates]
    exact hvalues

end Invariant

/-! ### Every run -/

section Runs
variable {classifier : LifecycleClassifier} {tokenId : Uuid} {admittedAt : Int}
  {store store' : ClassifierStore} {rules : List LifecycleTransitionRule}

theorem History.tokenEffect {other : Uuid} {candidates : List LifecycleEvidenceCandidate}
    (separating : SeparatingKeys classifier.digests)
    (h : History classifier tokenId admittedAt store rules)
    (heffect : TokenEffect classifier other candidates store store') :
    ∃ rules', History classifier tokenId admittedAt store' rules' := by
  by_cases hother : other = tokenId
  · subst hother
    cases heffect with
    | kept events schedules => exact ⟨rules, h.untouched (untouched_of_kept events schedules)⟩
    | moved schedule rule event change => exact ⟨rules ++ [rule], h.moved separating change⟩
  · exact ⟨rules, h.untouched (untouched_of_other separating hother heffect)⟩

/-- What every token evaluation of a call keeps, the call keeps. -/
theorem execute_invariant (tokenId : Uuid) {P : ClassifierStore → Prop} {call : Call classifier}
    (hP : ∀ other candidates mid mid', (other = tokenId →
        ∀ candidate ∈ candidates, candidate ∈ call.candidates tokenId) →
      TokenEffect classifier other candidates mid mid' → P mid → P mid')
    (h : execute classifier store call = .ok store') (h0 : P store) : P store' := by
  cases call with
  | request facts apiRequestLogId reads =>
    simp only [execute, map_eq_ok, evaluateRequest, bind_eq_ok, pure_eq_ok] at h
    obtain ⟨_, ⟨⟨evaluated, outcomes⟩, hfold, rfl⟩, rfl⟩ := h
    refine foldlM_invariant (fun _ done => P done.1) ?_ hfold h0
    intro _ other mid mid' hmid hstep
    simp only [evaluateNextToken, bind_eq_ok, pure_eq_ok] at hstep
    obtain ⟨⟨next, outcome⟩, hnext, rfl⟩ := hstep
    refine hP other _ mid.1 next ?_ (evaluateTokenRequest_effect hnext) hmid
    intro hother
    exact fun candidate hcandidate => hother ▸ hcandidate
  | observation facts observationId receivedAt reads =>
    simp only [execute, map_eq_ok, evaluateObservation] at h
    obtain ⟨⟨evaluated, transition⟩, h, rfl⟩ := h
    split at h
    · cases h
    · next observation hobservation =>
      split at h
      · cases h
      · next pair hpair =>
        simp only [bind_eq_ok, pure_eq_ok] at h
        obtain ⟨⟨next, outcome⟩, hnext, hresult⟩ := h
        cases hresult
        refine hP pair.tokenId _ store _ ?_ (evaluateTokenRequest_effect hnext) h0
        intro hother candidate hcandidate
        refine List.mem_flatMap.mpr ⟨observation, ?_, ?_⟩
        · have hfound := List.find?_some hobservation
          exact List.mem_filter.mpr ⟨List.mem_of_find?_eq_some hobservation, hfound⟩
        · exact hother ▸ hcandidate

/-- A call that raises leaves the store alone. -/
theorem classifierStep_cases (classifier : LifecycleClassifier) (store : ClassifierStore)
    (call : Call classifier) : classifierStep classifier store call = store ∨
      execute classifier store call = .ok (classifierStep classifier store call) := by
  unfold classifierStep
  cases execute classifier store call with
  | error e => exact .inl rfl
  | ok s => exact .inr rfl

/-- A step keeps a history, which a move extends. -/
theorem History.step (separating : SeparatingKeys classifier.digests)
    (h : ∃ rules, History classifier tokenId admittedAt store rules) (call : Call classifier) :
    ∃ rules, History classifier tokenId admittedAt (classifierStep classifier store call) rules := by
  cases classifierStep_cases classifier store call with
  | inl hkept => rwa [hkept]
  | inr hok =>
    refine execute_invariant tokenId
      (P := fun s => ∃ rules, History classifier tokenId admittedAt s rules) ?_ hok h
    intro other candidates mid mid' _ heffect hmid
    obtain ⟨rules, hrules⟩ := hmid
    exact hrules.tokenEffect separating heffect

theorem lateIsSilent (separating : SeparatingKeys classifier.digests) (store : ClassifierStore) :
    LateIsSilent classifier tokenId store := by
  intro call schedule hfind hlate
  cases classifierStep_cases classifier store call with
  | inl hkept => rw [hkept]
  | inr hok =>
    have huntouched : Untouched classifier tokenId store (classifierStep classifier store call) := by
      refine execute_invariant tokenId (P := Untouched classifier tokenId store) ?_ hok .refl
      intro other candidates mid mid' hcandidates heffect hmid
      by_cases hother : other = tokenId
      · subst hother
        refine hmid.trans (untouched_of_late (hmid.schedule.trans hfind) ?_ heffect)
        intro candidate hcandidate
        exact hlate candidate (hcandidates rfl candidate hcandidate)
      · exact hmid.trans (untouched_of_other separating hother heffect)
    exact huntouched.events

/-- An admitted token has an empty history. -/
theorem history_of_admitted {admission : Admission classifier}
    (separating : SeparatingKeys classifier.digests)
    (h0 : Unadmitted classifier store admission.tokenId)
    (h : admitAsNew classifier admission store = .ok store') :
    History classifier admission.tokenId admission.receivedAt store' [] := by
  simp only [admitAsNew, bind_eq_ok, pure_eq_ok, mapError_eq_ok] at h
  obtain ⟨⟨recorded, stored⟩, hrecorded, ⟨scheduled, placed⟩, hscheduled, rfl⟩ := h
  obtain ⟨hevents, hschedules⟩ := recordEvent_eq_ok hrecorded
  have hrows : recorded.events = store.events ∨
      recorded.events.rows = store.events.rows ++ [admissionEvent classifier admission] := by
    cases hevents with
    | inl hold => exact .inl hold.choose_spec.2
    | inr hnew =>
      rw [hnew.2]
      exact .inr (Table.rows_insertNew_of_find?_eq_none hnew.1)
  have hnone : classifierEvents { recorded with scheduler := scheduled } admission.tokenId = [] := by
    have hold := h0.events
    unfold classifierEvents at hold ⊢
    cases hrows with
    | inl hsame => rw [hsame, hold]
    | inr hnew =>
      rw [hnew, List.filter_append, hold]
      simp [admissionEvent]
  obtain ⟨row, hstate, hdecided, hfind⟩ :=
    setLifecycleState_first (hschedules ▸ h0.schedule) hscheduled
  refine ⟨.inl (List.nil_prefix), ?_, ?_, ?_, ?_⟩
  · rw [hnone]
    rfl
  · rw [hnone]
    exact List.Pairwise.nil
  · rw [hnone]
    exact ⟨row, (hfind _).trans (if_pos rfl), hstate, hdecided, hdecided.ge, by simp⟩
  · intro event hevent evaluationId rule sha hkey
    exfalso
    cases hrows with
    | inl hsame =>
      rw [hsame] at hevent
      exact h0.keys event hevent evaluationId rule sha hkey
    | inr hnew =>
      rw [hnew, List.mem_append, List.mem_singleton] at hevent
      cases hevent with
      | inl hold => exact h0.keys event hold evaluationId rule sha hkey
      | inr hadmission =>
        rw [hadmission] at hkey
        exact separating.admission hkey

end Runs

/-- From the admission of a token on, its lifecycle events and its schedule agree after every
sequence of evaluated responses, and late responses say nothing. -/
theorem lifecycle_history_agrees (classifier : LifecycleClassifier)
    (separating : SeparatingKeys classifier.digests) (store admitted : ClassifierStore)
    (admission : Admission classifier) (unmet : Unadmitted classifier store admission.tokenId)
    (promoted : admitAsNew classifier admission store = .ok admitted)
    (calls : List (Call classifier)) :
    Always (classifierStep classifier) (fun s =>
      HistoryAgrees admission.tokenId admission.receivedAt s ∧
        LateIsSilent classifier admission.tokenId s) admitted calls := by
  have hhistory : Always (classifierStep classifier)
      (fun s => ∃ rules, History classifier admission.tokenId admission.receivedAt s rules)
      admitted calls := by
    refine always_of_kept (fun s call h => History.step separating h call) ?_ calls
    exact ⟨[], history_of_admitted separating unmet promoted⟩
  refine hhistory.mono fun s h => ?_
  obtain ⟨rules, hrules⟩ := h
  exact ⟨hrules.agrees, lateIsSilent separating s⟩

/-! ### One token -/

def ruleRank : LifecycleTransitionRule → Nat
  | .newToActive => 0
  | .newToWatch => 1
  | .activeToFading => 2
  | .watchToFading => 3
  | .fadingToDormant => 4
  | .dormantToResurrected => 5

/-- Keys that spell their parts. -/
def spelledKeys : LifecycleDigests where
  transitionKey token _ rule _ :=
    String.ofList ('t' :: List.replicate (6 * token + ruleRank rule) 'i')
  admissionKey request token := String.ofList ('a' :: List.replicate (request + token) 'i')

theorem spelledKeys_separating : SeparatingKeys spelledKeys := by
  have hrank (rule : LifecycleTransitionRule) : ruleRank rule < 6 := by cases rule <;> decide
  have hsum {t t' e e' rule rule' sha sha'}
      (h : spelledKeys.transitionKey t e rule sha = spelledKeys.transitionKey t' e' rule' sha') :
      6 * t + ruleRank rule = 6 * t' + ruleRank rule' := by
    have hlength := congrArg (fun s => s.toList.length) h
    simpa [spelledKeys] using hlength
  constructor
  · intro t t' e e' rule rule' sha sha' h
    have hrule := hrank rule
    have hrule' := hrank rule'
    have := hsum h
    lia
  · intro t t' e e' rule rule' sha sha' h
    have hrule := hrank rule
    have hrule' := hrank rule'
    have hsame : ruleRank rule = ruleRank rule' := by
      have := hsum h
      lia
    cases rule <;> cases rule' <;> first | rfl | exact absurd hsame (by decide)
  · intro request t t' e rule sha h
    have hhead := congrArg (fun s => s.toList.head?) h
    simp [spelledKeys] at hhead

/-- A scheduler whose capacity keys tell new, active and fading populations apart. -/
def populationScheduler : Scheduling.AdaptiveScheduler :=
  { Scheduling.sampleScheduler with
    digests := { Scheduling.sampleDigests with
      capacityKey := fun _ plan => String.ofList (List.replicate (plan.tokenCounts .initial +
        3 * plan.tokenCounts .protectedActive + 9 * plan.tokenCounts .fadingTail).toNat 'c') } }

def sampleClassifier : LifecycleClassifier where
  policy := ⟨100, 50, 10, 10, 5, 5, 100, 50⟩
  policySha256 := "lifecycle"
  evidencePolicySha256 := "evidence"
  digests := spelledKeys
  scheduler := populationScheduler

def discoveredTokens : ClassifierStore := ⟨Scheduling.twoTokens, Table.empty, Table.empty, []⟩

def firstAdmission : Admission sampleClassifier := ⟨1, 1, 0, 1, none, "dex", 1, none⟩

/-- One pair of the first token, seen in a response with a five-minute volume. -/
def volumeSeen (request : Uuid) (receivedAt : Int) (volume : ℚ) : ResponseFacts where
  pairs := ⟨[⟨1, 1, "solana", "P", none⟩], by decide⟩
  observations := [⟨request, receivedAt, request, 1, some 20, some volume, some volume⟩]
  requests := Table.empty

def volumeCall (request : Uuid) (receivedAt now : Int) (volume : ℚ) : Call sampleClassifier :=
  .request (volumeSeen request receivedAt volume) request fun _ => ⟨now, request, request + 1, none⟩

/-- A rise, a fall, and the rise again, delivered late. -/
def riseAndFall : List (Call sampleClassifier) :=
  [volumeCall 2 (seconds 1) (seconds 2) 200,
   volumeCall 3 (seconds 3) (seconds 4) 0,
   volumeCall 4 (seconds 1) (seconds 5) 200]

theorem discoveredTokens_unadmitted :
    Unadmitted sampleClassifier discoveredTokens firstAdmission.tokenId where
  schedule := rfl
  events := rfl
  keys event hevent := by simp [discoveredTokens] at hevent

theorem lifecycle_history_agrees_rise_and_fall :
    ∃ admitted, admitAsNew sampleClassifier firstAdmission discoveredTokens = .ok admitted ∧
      (classifierEvents (run (classifierStep sampleClassifier) admitted riseAndFall) 1).map
        (·.newState) = ["ACTIVE", "FADING"] ∧
      Always (classifierStep sampleClassifier) (fun s =>
        HistoryAgrees firstAdmission.tokenId firstAdmission.receivedAt s ∧
          LateIsSilent sampleClassifier firstAdmission.tokenId s) admitted riseAndFall := by
  have hadmits : (admitAsNew sampleClassifier firstAdmission discoveredTokens).toOption.isSome ∧
      (admitAsNew sampleClassifier firstAdmission discoveredTokens).toOption.all fun admitted =>
        (classifierEvents (run (classifierStep sampleClassifier) admitted riseAndFall) 1).map
          (·.newState) = ["ACTIVE", "FADING"] := by
    decide +kernel
  cases hpromoted : admitAsNew sampleClassifier firstAdmission discoveredTokens with
  | error e => simp [hpromoted, Except.toOption] at hadmits
  | ok admitted =>
    refine ⟨admitted, rfl, ?_, lifecycle_history_agrees sampleClassifier spelledKeys_separating
      discoveredTokens admitted firstAdmission discoveredTokens_unadmitted hpromoted riseAndFall⟩
    simpa [hpromoted, Except.toOption] using hadmits

end PumpResearch.Lifecycle
