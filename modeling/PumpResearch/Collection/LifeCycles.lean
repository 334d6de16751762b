import PumpResearch.Collection.CollectorRuns
import PumpResearch.Library.Runs

/-! The life cycles of epochs and collector runs. Whatever calls are made in whatever order, at
most one epoch and one run are running, and every history is a path to one terminal state. -/
namespace PumpResearch.Collection
open KeyedTable Results Runs

/-! ### The system -/

inductive LifeCall where
  | createEpoch (request : EpochDeclaration)
  | startCollector (request : CollectorStart)
  | reconcileStaleRun (request : Reconciliation)
  | markCollectionStarted (runId : Uuid) (collectionStartedAt : Int)
  | finish (request : RunFinish)
  | closeEpoch (request : EpochClosing)
  | heartbeat (runId : Uuid) (now : Int)
  | recordComponent (component : ComponentHealth)

/-- `_record_component`: one row for a component of a run. -/
def recordComponent (component : ComponentHealth) (store : CollectionStore) : CollectionStore :=
  { store with components := store.components.filter (fun old =>
      ¬ (old.collectorRunId = component.collectorRunId ∧
        old.componentName = component.componentName)) ++ [component] }

def LifeCall.execute (store : CollectionStore) :
    LifeCall → Except CollectionError CollectionStore
  | .createEpoch request => Collection.createEpoch request store
  | .startCollector request => (Collection.startCollector request store).map (·.1)
  | .reconcileStaleRun request => (Collection.reconcileStaleRun request store).map (·.1)
  | .markCollectionStarted runId collectionStartedAt =>
    (Collection.markCollectionStarted runId collectionStartedAt store).map (·.1)
  | .finish request => Collection.finish request store
  | .closeEpoch request => Collection.closeEpoch request store
  | .heartbeat runId now => .ok (Collection.heartbeat runId now store)
  | .recordComponent component => .ok (Collection.recordComponent component store)

/-- One transaction; a call that raises is rolled back. -/
def lifeStep (store : CollectionStore) (call : LifeCall) : CollectionStore :=
  (call.execute store).toOption.getD store

/-- The events of an epoch, in the order of their commits. -/
def epochEvents (store : CollectionStore) (epochId : Uuid) : List CollectionEpochEvent :=
  store.events.rows.filter (·.collectionEpochId = epochId)

/-- A projection shows an event. -/
structure Shows (event : CollectionEpochEvent) (current : CollectionEpochCurrent) : Prop where
  status : current.status = event.status
  latest : current.latestEventId = event.id
  updatedAt : current.updatedAt = event.occurredAt
  dataValid : current.dataValid = decide (event.status ≠ .invalid)
  invalidReason : current.invalidReason = if event.status = .invalid then some event.reason else none

/-- Planned, then running, then closed once; the projection shows the latest event. -/
inductive EpochHistory : List CollectionEpochEvent → CollectionEpochCurrent → Prop
  | planned (p : CollectionEpochEvent) (current : CollectionEpochCurrent)
      (declared : p.status = .planned) (shows : Shows p current)
      (startedAt : current.startedAt = none) (endedAt : current.endedAt = none) :
      EpochHistory [p] current
  | running (p r : CollectionEpochEvent) (current : CollectionEpochCurrent)
      (declared : p.status = .planned) (started : r.status = .running) (shows : Shows r current)
      (startedAt : current.startedAt = some r.occurredAt) (endedAt : current.endedAt = none) :
      EpochHistory [p, r] current
  | closed (p r t : CollectionEpochEvent) (current : CollectionEpochCurrent)
      (declared : p.status = .planned) (started : r.status = .running)
      (terminal : t.status.Terminal) (shows : Shows t current)
      (startedAt : current.startedAt = some r.occurredAt)
      (endedAt : current.endedAt = some t.occurredAt) : EpochHistory [p, r, t] current

/-- A terminal event says how its run ended. -/
structure Matches (event : CollectorRunEvent) (run : CollectorRun) : Prop where
  occurredAt : run.finishedAt = some event.occurredAt
  detail : event.detail = run.failureDetail.getD .empty
  reason : event.reason = event.detail.reason.getD run.status.value

/-- A running run has no terminal event, an ended one has exactly one. -/
def EndsOnce (run : CollectorRun) (events : List CollectorRunEvent) : Prop :=
  (run.status = .running ∧ events = []) ∨
    (run.status ≠ .running ∧ ∃ event, events = [event] ∧ Matches event run)

def runEventsOf (store : CollectionStore) (runId : Uuid) : List CollectorRunEvent :=
  store.runEvents.rows.filter (·.collectorRunId = runId)

structure Consistent (store : CollectionStore) : Prop where
  oneEpoch : ∀ a ∈ store.currents.rows, ∀ b ∈ store.currents.rows,
    a.status = .running → b.status = .running → a = b
  oneRun : ∀ a ∈ store.runs.rows, ∀ b ∈ store.runs.rows,
    a.status = .running → b.status = .running → a = b
  runInEpoch : ∀ run ∈ store.runs.rows, run.status = .running →
    ∃ current, store.currents.find? run.collectionEpochId = some current ∧
      current.status = .running
  history : ∀ epoch ∈ store.epochs.rows, 0 < epoch.epochNumber →
    ∃ current, store.currents.find? epoch.id = some current ∧
      EpochHistory (epochEvents store epoch.id) current
  ends : ∀ run ∈ store.runs.rows, EndsOnce run (runEventsOf store run.id)

/-- The type of a terminal event agrees with the status of its run. -/
def TypesMatch (store : CollectionStore) : Prop :=
  ∀ run ∈ store.runs.rows, ∀ event ∈ runEventsOf store run.id,
    (event.eventType = .failed ↔ run.status = .failed)

/-- A type that a caller of `finish` gives agrees with the status it gives. -/
def LifeCall.TypesAgree : LifeCall → Prop
  | .finish request => ∀ eventType ∈ request.eventType,
      (eventType = .failed ↔ request.status = .failed)
  | _ => True

/-- What a run has reached stays: its boundary, and its end with the terminal event. -/
def Progress (store store' : CollectionStore) : Prop :=
  ∀ run ∈ store.runs.rows, ∃ run' ∈ store'.runs.rows, run'.id = run.id ∧
    (run.collectionStartedAt.isSome → run'.collectionStartedAt = run.collectionStartedAt) ∧
    (run.status ≠ .running → run'.status = run.status ∧ run'.finishedAt = run.finishedAt ∧
      run'.failureDetail = run.failureDetail ∧
      ∀ event ∈ runEventsOf store run.id, event ∈ runEventsOf store' run.id)

/-- One row-level change; a call makes a sequence of them. The types of terminal events agree
with the statuses where `typed` holds. -/
inductive Change (typed : Prop) (store store' : CollectionStore) : Prop
  | same (epochs : SameEpochs store store') (runs : store'.runs = store.runs)
      (runEvents : store'.runEvents = store.runEvents)
  | created (request : EpochDeclaration) (change : EpochCreated request store store')
  | started (epoch : CollectionEpoch) (current : CollectionEpochCurrent) (now : Int)
      (eventId : Uuid) (planned : current.status = .planned)
      (alone : ∀ other ∈ store.currents.rows, other.status = .running →
        other.collectionEpochId = epoch.id)
      (change : EpochAdvanced epoch current (runningCurrent current now eventId)
        (runningEvent epoch now eventId) store store')
  | closed (epoch : CollectionEpoch) (current : CollectionEpochCurrent) (request : EpochClosing)
      (terminal : request.status.Terminal) (running : current.status = .running)
      (idle : ∀ run ∈ store.runs.rows, run.status = .running → run.collectionEpochId ≠ epoch.id)
      (change : EpochAdvanced epoch current (closedCurrent request current)
        (closingEvent request epoch) store store')
  | finished (request : RunFinish) (run : CollectorRun)
      (agree : typed → (request.resolvedEventType = .failed ↔ request.status = .failed))
      (change : RunFinished request run store store')
  | touched (run run' : CollectorRun) (change : RunTouched run run' store store')
  | inserted (run : CollectorRun) (change : RunInserted run store store')

abbrev Changes (typed : Prop) := Relation.ReflTransGen (Change typed)

section Calls
variable {typed : Prop} {store store' : CollectionStore}

theorem finish_changes {request : RunFinish}
    (agree : typed → (request.resolvedEventType = .failed ↔ request.status = .failed))
    (h : finish request store = .ok store') : Changes typed store store' := by
  obtain ⟨run, h⟩ := finish_eq_ok h
  cases h with
  | inl hsame => exact hsame.1 ▸ .refl
  | inr hfinished => exact .single (.finished request run agree hfinished)

theorem SameEpochs.trans {mid : CollectionStore} (h : SameEpochs store mid)
    (h' : SameEpochs mid store') : SameEpochs store store' :=
  ⟨h'.epochs.trans h.epochs, h'.events.trans h.events, h'.currents.trans h.currents⟩

/-- Recovery ends every run that was running, and leaves the epochs alone. -/
theorem recoverAll (typed : Prop) {startedAt : Int}
    (h : (store.runs.rows.filter (·.status = .running)).foldlM
      (fun s run => finish (abandonedFinish startedAt run) s) store = .ok store') :
    Changes typed store store' ∧ SameEpochs store store' ∧
      ∀ run ∈ store'.runs.rows, run.status ≠ .running := by
  have hloop := foldlM_invariant (fun done s => Changes typed store s ∧ SameEpochs store s ∧
    ∀ run ∈ s.runs.rows, run.status = .running → run ∈ store.runs.rows ∧ run ∉ done) ?_ h
    ⟨.refl, ⟨rfl, rfl, rfl⟩, fun run hrun _ => ⟨hrun, by simp⟩⟩
  · obtain ⟨hchanges, hepochs, hrunning⟩ := hloop
    refine ⟨hchanges, hepochs, fun run hrun hstatus => ?_⟩
    obtain ⟨hstored, hnot⟩ := hrunning run hrun hstatus
    exact hnot (List.mem_filter.mpr ⟨hstored, by simpa using hstatus⟩)
  · intro done next s s' hs hstep
    obtain ⟨hchanges, hepochs, hrunning⟩ := hs
    have hagree : typed → ((abandonedFinish startedAt next).resolvedEventType = .failed ↔
        (abandonedFinish startedAt next).status = .failed) := fun _ => ⟨fun _ => rfl, fun _ => rfl⟩
    have hmore := hchanges.trans (finish_changes hagree hstep)
    obtain ⟨stored, hcases⟩ := finish_eq_ok hstep
    cases hcases with
    | inl hsame =>
      obtain ⟨rfl, hfind, hended, _⟩ := hsame
      refine ⟨hmore, hepochs, fun run hrun hstatus => ?_⟩
      obtain ⟨hstored, hnot⟩ := hrunning run hrun hstatus
      refine ⟨hstored, ?_⟩
      rw [List.mem_append, List.mem_singleton, not_or]
      refine ⟨hnot, fun heq => hended ?_⟩
      subst heq
      have hself : s'.runs.find? run.id = some run := Table.find?_key hrun
      cases hself.symm.trans hfind
      exact hstatus
    | inr hfinished =>
      refine ⟨hmore, hepochs.trans hfinished.epochs, fun run hrun hstatus => ?_⟩
      rw [hfinished.runs] at hrun
      cases Table.mem_write hrun with
      | inl hnew =>
        rw [List.mem_singleton.mp hnew] at hstatus
        exact absurd hstatus hfinished.terminal
      | inr hold =>
        obtain ⟨hstored, hnot⟩ := hrunning run hold.1 hstatus
        refine ⟨hstored, ?_⟩
        rw [List.mem_append, List.mem_singleton, not_or]
        refine ⟨hnot, fun heq => hold.2 _ (List.mem_singleton_self _) ?_⟩
        rw [heq]
        exact (Table.find?_eq_some_iff.mp hfinished.found).2

theorem startEpoch_changes (typed : Prop) {epochNumber now : Int} {eventId : Uuid} {epoch : CollectionEpoch}
    {startedNow : Bool} (h : startEpoch epochNumber now eventId store =
      .ok (store', epoch, startedNow)) :
    Changes typed store store' ∧ ∃ current, store'.currents.find? epoch.id = some current ∧
      current.status = .running := by
  obtain ⟨current, hcases⟩ := startEpoch_eq_ok h
  cases hcases with
  | inl hattached =>
    obtain ⟨rfl, _, hcurrent, hrunning⟩ := hattached
    exact ⟨.refl, current, hcurrent, hrunning⟩
  | inr hstarted =>
    obtain ⟨hplanned, hvalid, halone, hadvanced⟩ := hstarted
    refine ⟨.single (.started epoch current now eventId hplanned halone hadvanced),
      runningCurrent current now eventId, ?_, rfl⟩
    have hid := (Table.find?_eq_some_iff.mp hadvanced.current).2
    rw [hadvanced.currents, Table.find?_write, hadvanced.current, Option.map_some]
    exact congrArg some (Table.written_of_mem (by simp) (List.mem_singleton_self _) rfl)

theorem startCollector_changes {request : CollectorStart} {run : CollectorRun}
    (h : startCollector request store = .ok (store', run)) : Changes typed store store' := by
  simp only [startCollector, bind_eq_ok, guard_eq_ok] at h
  obtain ⟨⟨started, epoch, startedNow⟩, hstarted, _, recovered, hrecovered, h⟩ := h
  obtain ⟨hstart, current, hcurrent, hrunning⟩ := startEpoch_changes typed hstarted
  obtain ⟨hrecover, hepochs, halone⟩ := recoverAll typed hrecovered
  cases hruns : recovered.runs.insert? (startedRun request epoch) with
  | none =>
    rw [hruns] at h
    cases h
  | some runs =>
    rw [hruns] at h
    cases h
    obtain ⟨hunused, hrows⟩ := Table.insert?_eq_some hruns
    refine (hstart.trans hrecover).tail (.inserted (startedRun request epoch) ?_)
    exact ⟨hunused, rfl, halone, ⟨current, hepochs.currents ▸ hcurrent, hrunning⟩, hrows, rfl,
      rfl, rfl, rfl⟩

theorem reconcileStaleRun_changes {request : Reconciliation} {result : ReconciliationResult}
    (h : reconcileStaleRun request store = .ok (store', result)) : Changes typed store store' := by
  simp only [reconcileStaleRun, bind_eq_ok, guard_eq_ok] at h
  obtain ⟨_, _, ⟨epoch, current⟩, _, _, h⟩ := h
  split at h
  · cases h
  · next run _ =>
    split at h
    · cases h
      exact .refl
    · split at h
      · cases h
      · split at h
        · cases h
        · rw [bind_eq_ok] at h
          obtain ⟨finished, hfinished, hresult⟩ := h
          cases hresult
          refine (finish_changes ?_ hfinished).tail (.same ⟨rfl, rfl, rfl⟩ rfl rfl)
          intro _
          simp [staleFinish, RunFinish.resolvedEventType]

/-- Every call that is not rolled back makes such changes. -/
theorem execute_changes {call : LifeCall} (h : call.execute store = .ok store') :
    Changes call.TypesAgree store store' := by
  cases call with
  | createEpoch request => exact .single (.created request (createEpoch_eq_ok h))
  | startCollector request =>
    obtain ⟨⟨s, run⟩, hstart, rfl⟩ := map_eq_ok.mp h
    exact startCollector_changes hstart
  | reconcileStaleRun request =>
    obtain ⟨⟨s, result⟩, hreconcile, rfl⟩ := map_eq_ok.mp h
    exact reconcileStaleRun_changes hreconcile
  | markCollectionStarted runId collectionStartedAt =>
    obtain ⟨⟨s, boundary⟩, hmark, rfl⟩ := map_eq_ok.mp h
    obtain ⟨run, hcases⟩ := markCollectionStarted_eq_ok hmark
    cases hcases with
    | inl hsame => exact hsame.1 ▸ .refl
    | inr hmarked => exact .single (.touched run _ hmarked.2.2.2.2)
  | finish request =>
    refine finish_changes ?_ h
    intro htyped
    unfold RunFinish.resolvedEventType
    cases heventType : request.eventType with
    | none => by_cases hfailed : request.status = .failed <;> simp [hfailed]
    | some eventType => exact htyped eventType heventType
  | closeEpoch request =>
    obtain ⟨hterminal, epoch, current, hrunning, hidle, hclosed⟩ := closeEpoch_eq_ok h
    exact .single (.closed epoch current request hterminal hrunning hidle hclosed)
  | heartbeat runId now =>
    cases h
    cases heartbeat_cases runId now store with
    | inl hsame => rw [hsame]
    | inr htouched =>
      obtain ⟨run, htouched⟩ := htouched
      exact .single (.touched run _ htouched)
  | recordComponent component =>
    cases h
    exact .single (.same ⟨rfl, rfl, rfl⟩ rfl rfl)

end Calls

/-! ### The invariant -/

/-- Consistent histories whose events refer to stored rows. -/
structure Invariant (store : CollectionStore) : Prop extends Consistent store where
  epochRef : ∀ event ∈ store.events.rows,
    ∃ epoch ∈ store.epochs.rows, epoch.id = event.collectionEpochId
  runRef : ∀ event ∈ store.runEvents.rows,
    ∃ run ∈ store.runs.rows, run.id = event.collectorRunId

section Preserved
variable {typed : Prop} {store store' : CollectionStore}

/-- Runs and their events are the same. -/
theorem Consistent.ends_congr (h : Consistent store) (runs : store'.runs = store.runs)
    (runEvents : store'.runEvents = store.runEvents) :
    ∀ run ∈ store'.runs.rows, EndsOnce run (runEventsOf store' run.id) := by
  intro run hrun
  rw [runEventsOf, runEvents]
  exact h.ends run (runs ▸ hrun)

theorem Invariant.same (h : Invariant store) (epochs : SameEpochs store store')
    (runs : store'.runs = store.runs) (runEvents : store'.runEvents = store.runEvents) :
    Invariant store' := by
  refine ⟨⟨?_, ?_, ?_, ?_, h.ends_congr runs runEvents⟩, ?_, ?_⟩
  · rw [epochs.currents]
    exact h.oneEpoch
  · rw [runs]
    exact h.oneRun
  · rw [runs, epochs.currents]
    exact h.runInEpoch
  · rw [epochs.epochs, epochs.currents]
    unfold epochEvents
    rw [epochs.events]
    exact h.history
  · rw [epochs.events, epochs.epochs]
    exact h.epochRef
  · rw [runEvents, runs]
    exact h.runRef

theorem Invariant.created (h : Invariant store) {request : EpochDeclaration}
    (change : EpochCreated request store store') : Invariant store' := by
  have hunused : ∀ epoch ∈ store.epochs.rows, epoch.id ≠ request.epochId :=
    Table.find?_eq_none_iff.mp change.unused
  refine ⟨⟨?_, ?_, ?_, ?_, h.ends_congr change.runs change.runEvents⟩, ?_, ?_⟩
  · have hold {current : CollectionEpochCurrent} (hmem : current ∈ store'.currents.rows)
        (hrunning : current.status = .running) : current ∈ store.currents.rows := by
      rw [change.currents, List.mem_append, List.mem_singleton] at hmem
      cases hmem with
      | inl hold => exact hold
      | inr hnew =>
        rw [hnew] at hrunning
        cases hrunning
    intro a ha b hb harunning hbrunning
    exact h.oneEpoch a (hold ha harunning) b (hold hb hbrunning) harunning hbrunning
  · rw [change.runs]
    exact h.oneRun
  · intro run hrun hrunning
    obtain ⟨current, hcurrent, hstatus⟩ := h.runInEpoch run (change.runs ▸ hrun) hrunning
    exact ⟨current, Table.find?_append change.currents hcurrent, hstatus⟩
  · intro epoch hepoch hpositive
    rw [change.epochs, List.mem_append, List.mem_singleton] at hepoch
    rw [epochEvents, change.events, List.filter_append]
    cases hepoch with
    | inl hold =>
      obtain ⟨current, hcurrent, hhistory⟩ := h.history epoch hold hpositive
      have hother : ¬ request.epochId = epoch.id := fun heq => hunused epoch hold heq.symm
      refine ⟨current, Table.find?_append change.currents hcurrent, ?_⟩
      simpa [epochEvents, plannedEvent, hother] using hhistory
    | inr hnew =>
      subst hnew
      have hnone : store.events.rows.filter
          (·.collectionEpochId = (declaredEpoch request).id) = [] := by
        rw [List.filter_eq_nil_iff]
        intro event hevent hmine
        obtain ⟨epoch, hepoch, hid⟩ := h.epochRef event hevent
        exact hunused epoch hepoch (hid.trans (of_decide_eq_true hmine))
      refine ⟨plannedCurrent request, Table.find?_last change.currents, ?_⟩
      rw [hnone]
      simp only [plannedEvent, declaredEpoch, List.nil_append, decide_true, List.filter_cons_of_pos,
        List.filter_nil]
      exact .planned _ _ rfl ⟨rfl, rfl, rfl, rfl, rfl⟩ rfl rfl
  · intro event hevent
    rw [change.events, List.mem_append, List.mem_singleton] at hevent
    rw [change.epochs]
    cases hevent with
    | inl hold =>
      obtain ⟨epoch, hepoch, hid⟩ := h.epochRef event hold
      exact ⟨epoch, List.mem_append_left _ hepoch, hid⟩
    | inr hnew =>
      exact ⟨declaredEpoch request, List.mem_append_right _ (List.mem_singleton_self _),
        by rw [hnew]; rfl⟩
  · rw [change.runEvents, change.runs]
    exact h.runRef

/-- A projection after its epoch advanced: the new one, or that of another epoch. -/
theorem EpochAdvanced.mem {epoch : CollectionEpoch} {before after : CollectionEpochCurrent}
    {event : CollectionEpochEvent} (change : EpochAdvanced epoch before after event store store')
    {current : CollectionEpochCurrent} (h : current ∈ store'.currents.rows) :
    current = after ∨ (current ∈ store.currents.rows ∧ current.collectionEpochId ≠ epoch.id) := by
  have hid := (Table.find?_eq_some_iff.mp change.current).2
  rw [change.currents] at h
  cases Table.mem_write h with
  | inl hnew => exact .inl (List.mem_singleton.mp hnew)
  | inr hold =>
    refine .inr ⟨hold.1, fun heq => hold.2 after (List.mem_singleton_self _) ?_⟩
    rw [change.key, hid, heq]

theorem EpochAdvanced.find? {epoch : CollectionEpoch} {before after : CollectionEpochCurrent}
    {event : CollectionEpochEvent} (change : EpochAdvanced epoch before after event store store')
    (id : Uuid) : store'.currents.find? id =
      if epoch.id = id then some after else store.currents.find? id := by
  have hid := (Table.find?_eq_some_iff.mp change.current).2
  rw [change.currents]
  by_cases heq : epoch.id = id
  · subst heq
    rw [if_pos rfl, Table.find?_write, change.current, Option.map_some]
    exact congrArg some
      (Table.written_of_mem (by simp) (List.mem_singleton_self _) change.key)
  · rw [if_neg heq]
    refine Table.find?_write_of_ne fun row hrow => ?_
    rw [List.mem_singleton.mp hrow, change.key, hid]
    exact heq

/-- An epoch may advance where its own history, the running epochs and the running runs agree
with the new projection. -/
theorem Invariant.advanced (h : Invariant store) {epoch : CollectionEpoch}
    {before after : CollectionEpochCurrent} {event : CollectionEpochEvent}
    (change : EpochAdvanced epoch before after event store store')
    (hone : after.status = .running → ∀ other ∈ store.currents.rows, other.status = .running →
      other.collectionEpochId = epoch.id)
    (hruns : ∀ run ∈ store.runs.rows, run.status = .running → run.collectionEpochId ≠ epoch.id)
    (hhistory : ∀ events, EpochHistory events before → EpochHistory (events ++ [event]) after) :
    Invariant store' := by
  refine ⟨⟨?_, ?_, ?_, ?_, h.ends_congr change.runs change.runEvents⟩, ?_, ?_⟩
  · intro a ha b hb harunning hbrunning
    cases change.mem ha with
    | inl hanew =>
      cases change.mem hb with
      | inl hbnew => rw [hanew, hbnew]
      | inr hbold => exact absurd (hone (hanew ▸ harunning) b hbold.1 hbrunning) hbold.2
    | inr haold =>
      cases change.mem hb with
      | inl hbnew => exact absurd (hone (hbnew ▸ hbrunning) a haold.1 harunning) haold.2
      | inr hbold => exact h.oneEpoch a haold.1 b hbold.1 harunning hbrunning
  · rw [change.runs]
    exact h.oneRun
  · intro run hrun hrunning
    rw [change.runs] at hrun
    obtain ⟨current, hcurrent, hstatus⟩ := h.runInEpoch run hrun hrunning
    refine ⟨current, ?_, hstatus⟩
    rw [change.find?, if_neg (hruns run hrun hrunning).symm, hcurrent]
  · intro other hother hpositive
    rw [change.epochs] at hother
    obtain ⟨current, hcurrent, hold⟩ := h.history other hother hpositive
    rw [change.find?, epochEvents, change.events, List.filter_append]
    by_cases hsame : epoch.id = other.id
    · rw [← hsame, change.current, Option.some.injEq] at hcurrent
      subst hcurrent
      refine ⟨after, if_pos hsame, ?_⟩
      have hlast : [event].filter (·.collectionEpochId = other.id) = [event] := by
        simp [change.owner, hsame]
      rw [hlast]
      exact hhistory _ hold
    · refine ⟨current, by rw [if_neg hsame, hcurrent], ?_⟩
      have hlast : [event].filter (·.collectionEpochId = other.id) = [] := by
        simp [change.owner, hsame]
      rw [hlast, List.append_nil]
      exact hold
  · intro row hrow
    rw [change.events, List.mem_append, List.mem_singleton] at hrow
    rw [change.epochs]
    cases hrow with
    | inl hold => exact h.epochRef row hold
    | inr hnew => exact ⟨epoch, change.declared, by rw [hnew, change.owner]⟩
  · rw [change.runEvents, change.runs]
    exact h.runRef

theorem EpochHistory.started {events : List CollectionEpochEvent}
    {current : CollectionEpochCurrent} (h : EpochHistory events current)
    (hplanned : current.status = .planned) (epoch : CollectionEpoch) (now : Int) (eventId : Uuid) :
    EpochHistory (events ++ [runningEvent epoch now eventId])
      (runningCurrent current now eventId) := by
  cases h with
  | planned p _ declared shows startedAt endedAt =>
    refine .running p _ _ declared rfl ⟨rfl, rfl, rfl, ?_, ?_⟩ rfl endedAt
    · exact shows.dataValid.trans (by simp [declared, runningEvent])
    · exact shows.invalidReason.trans (by simp [declared, runningEvent])
  | running p r _ declared started shows startedAt endedAt =>
    rw [shows.status, started] at hplanned
    cases hplanned
  | closed p r t _ declared started terminal shows startedAt endedAt =>
    rw [shows.status] at hplanned
    rw [hplanned] at terminal
    exact absurd terminal (by decide)

theorem EpochHistory.ended {events : List CollectionEpochEvent}
    {current : CollectionEpochCurrent} (h : EpochHistory events current)
    (hrunning : current.status = .running) {request : EpochClosing}
    (hterminal : request.status.Terminal) (epoch : CollectionEpoch) :
    EpochHistory (events ++ [closingEvent request epoch]) (closedCurrent request current) := by
  cases h with
  | planned p _ declared shows startedAt endedAt =>
    rw [shows.status, declared] at hrunning
    cases hrunning
  | running p r _ declared started shows startedAt endedAt =>
    exact .closed p r _ _ declared started hterminal ⟨rfl, rfl, rfl, rfl, rfl⟩ startedAt rfl
  | closed p r t _ declared started terminal shows startedAt endedAt =>
    rw [shows.status] at hrunning
    rw [hrunning] at terminal
    exact absurd terminal (by decide)

/-- The runs behind a rewritten one. -/
theorem find?_rewritten {run : CollectorRun} (run' : CollectorRun)
    (hfound : store.runs.find? run.id = some run)
    (hid : run'.id = run.id) (hruns : store'.runs = store.runs.write [run']) (id : Uuid) :
    store'.runs.find? id = if run.id = id then some run' else store.runs.find? id := by
  rw [hruns]
  by_cases heq : run.id = id
  · subst heq
    rw [if_pos rfl, Table.find?_write, hfound, Option.map_some]
    exact congrArg some (Table.written_of_mem (by simp) (List.mem_singleton_self _) hid)
  · rw [if_neg heq]
    refine Table.find?_write_of_ne fun row hrow => ?_
    rw [List.mem_singleton.mp hrow, hid]
    exact heq

/-- A rewritten run that is running was running before, in the same epoch. -/
theorem Invariant.rewritten (h : Invariant store) {run : CollectorRun} (run' : CollectorRun)
    (hfound : store.runs.find? run.id = some run) (hid : run'.id = run.id)
    (hepoch : run'.collectionEpochId = run.collectionEpochId)
    (hstatus : run'.status = .running → run.status = .running)
    (hruns : store'.runs = store.runs.write [run']) (hepochs : SameEpochs store store')
    (hends : ∀ row ∈ store'.runs.rows, EndsOnce row (runEventsOf store' row.id))
    (hrefs : ∀ event ∈ store'.runEvents.rows, event ∈ store.runEvents.rows ∨
      event.collectorRunId = run.id) : Invariant store' := by
  have hmem := (Table.find?_eq_some_iff.mp hfound).1
  have hbefore {row : CollectorRun} (hrow : row ∈ store'.runs.rows) (hrunning : row.status = .running) :
      ∃ old ∈ store.runs.rows, old.status = .running ∧ old.id = row.id ∧
        old.collectionEpochId = row.collectionEpochId := by
    rw [hruns] at hrow
    cases Table.mem_write hrow with
    | inl hnew =>
      rw [List.mem_singleton.mp hnew] at hrunning ⊢
      exact ⟨run, hmem, hstatus hrunning, hid.symm, hepoch.symm⟩
    | inr hold => exact ⟨row, hold.1, hrunning, rfl, rfl⟩
  have hkept (id : Uuid) (hid' : ∃ old ∈ store.runs.rows, old.id = id) :
      ∃ row ∈ store'.runs.rows, row.id = id := by
    obtain ⟨old, hold, rfl⟩ := hid'
    have hfind := find?_rewritten run' hfound hid hruns old.id
    by_cases heq : run.id = old.id
    · rw [if_pos heq] at hfind
      exact ⟨run', (Table.find?_eq_some_iff.mp hfind).1, hid.trans heq⟩
    · rw [if_neg heq, Table.find?_key hold] at hfind
      exact ⟨old, (Table.find?_eq_some_iff.mp hfind).1, rfl⟩
  refine ⟨⟨?_, ?_, ?_, ?_, hends⟩, ?_, ?_⟩
  · rw [hepochs.currents]
    exact h.oneEpoch
  · intro a ha b hb harunning hbrunning
    obtain ⟨a', ha', harunning', haid, _⟩ := hbefore ha harunning
    obtain ⟨b', hb', hbrunning', hbid, _⟩ := hbefore hb hbrunning
    have hsame := h.oneRun a' ha' b' hb' harunning' hbrunning'
    exact store'.runs.eq_of_key_eq ha hb (by rw [← haid, ← hbid, hsame])
  · intro row hrow hrunning
    obtain ⟨old, hold, hrunning', _, hepochId⟩ := hbefore hrow hrunning
    rw [hepochs.currents, ← hepochId]
    exact h.runInEpoch old hold hrunning'
  · rw [hepochs.epochs, hepochs.currents]
    unfold epochEvents
    rw [hepochs.events]
    exact h.history
  · rw [hepochs.events, hepochs.epochs]
    exact h.epochRef
  · intro event hevent
    refine hkept _ ?_
    cases hrefs event hevent with
    | inl hold => exact h.runRef event hold
    | inr hown => exact ⟨run, hmem, hown.symm⟩

theorem Invariant.touched (h : Invariant store) {run run' : CollectorRun}
    (change : RunTouched run run' store store') : Invariant store' := by
  refine h.rewritten run' change.found change.id change.epoch (fun hrunning => change.status ▸ hrunning)
    change.runs change.epochs ?_ fun event hevent => .inl (change.runEvents ▸ hevent)
  intro row hrow
  rw [runEventsOf, change.runEvents]
  rw [change.runs] at hrow
  cases Table.mem_write hrow with
  | inl hnew =>
    rw [List.mem_singleton.mp hnew, change.id]
    cases h.ends run (Table.find?_eq_some_iff.mp change.found).1 with
    | inl hrunning => exact .inl ⟨change.status.trans hrunning.1, hrunning.2⟩
    | inr hended =>
      obtain ⟨hstatus, event, hevents, hmatches⟩ := hended
      refine .inr ⟨change.status ▸ hstatus, event, hevents, ?_⟩
      exact ⟨change.finishedAt.trans hmatches.occurredAt, change.failureDetail ▸ hmatches.detail,
        change.status ▸ hmatches.reason⟩
  | inr hold => exact h.ends row hold.1

theorem RunFinished.events {request : RunFinish} {run : CollectorRun}
    (change : RunFinished request run store store') (id : Uuid) :
    runEventsOf store' id =
      if request.runId = id then [terminalEvent request] else runEventsOf store id := by
  rw [runEventsOf, change.runEvents, List.filter_append]
  by_cases heq : request.runId = id
  · rw [if_pos heq]
    have hnone : store.runEvents.rows.filter (·.collectorRunId = id) = [] := by
      rw [List.filter_eq_nil_iff]
      intro event hevent hmine
      exact Table.find?_eq_none_iff.mp change.unused event hevent
        ((of_decide_eq_true hmine).trans heq.symm)
    rw [hnone]
    simp [terminalEvent, heq]
  · rw [if_neg heq]
    simp [runEventsOf, terminalEvent, heq]

theorem Invariant.finished (h : Invariant store) {request : RunFinish} {run : CollectorRun}
    (change : RunFinished request run store store') : Invariant store' := by
  have hid := (Table.find?_eq_some_iff.mp change.found).2
  have hfound : store.runs.find? run.id = some run := hid ▸ change.found
  refine h.rewritten (finishedRun request run) hfound rfl rfl
    (fun _ => change.running) change.runs change.epochs ?_ ?_
  · intro row hrow
    rw [change.events]
    rw [change.runs] at hrow
    cases Table.mem_write hrow with
    | inl hnew =>
      have hsame : request.runId = row.id := by rw [List.mem_singleton.mp hnew, ← hid]; rfl
      rw [if_pos hsame, List.mem_singleton.mp hnew]
      exact .inr ⟨change.terminal, terminalEvent request, rfl, ⟨rfl, rfl, rfl⟩⟩
    | inr hold =>
      have hne : ¬ request.runId = row.id := fun heq =>
        hold.2 _ (List.mem_singleton_self _) (hid.trans heq)
      rw [if_neg hne]
      exact h.ends row hold.1
  · intro event hevent
    rw [change.runEvents, List.mem_append, List.mem_singleton] at hevent
    cases hevent with
    | inl hold => exact .inl hold
    | inr hnew => exact .inr (by rw [hnew, hid]; rfl)

theorem Invariant.inserted (h : Invariant store) {run : CollectorRun}
    (change : RunInserted run store store') : Invariant store' := by
  have hrunning {row : CollectorRun} (hrow : row ∈ store'.runs.rows)
      (hstatus : row.status = .running) : row = run := by
    rw [change.runs, List.mem_append, List.mem_singleton] at hrow
    cases hrow with
    | inl hold => exact absurd hstatus (change.alone row hold)
    | inr hnew => exact hnew
  refine ⟨⟨?_, ?_, ?_, ?_, ?_⟩, ?_, ?_⟩
  · rw [change.epochs.currents]
    exact h.oneEpoch
  · intro a ha b hb harunning hbrunning
    rw [hrunning ha harunning, hrunning hb hbrunning]
  · intro row hrow hstatus
    rw [hrunning hrow hstatus, change.epochs.currents]
    exact change.epoch
  · rw [change.epochs.epochs, change.epochs.currents]
    unfold epochEvents
    rw [change.epochs.events]
    exact h.history
  · intro row hrow
    rw [runEventsOf, change.runEvents]
    rw [change.runs, List.mem_append, List.mem_singleton] at hrow
    cases hrow with
    | inl hold => exact h.ends row hold
    | inr hnew =>
      subst hnew
      refine .inl ⟨change.running, ?_⟩
      rw [List.filter_eq_nil_iff]
      intro event hevent hmine
      obtain ⟨old, hold, hid⟩ := h.runRef event hevent
      exact Table.find?_eq_none_iff.mp change.unused old hold (hid.trans (of_decide_eq_true hmine))
  · rw [change.epochs.events, change.epochs.epochs]
    exact h.epochRef
  · intro event hevent
    obtain ⟨old, hold, hid⟩ := h.runRef event (change.runEvents ▸ hevent)
    exact ⟨old, by rw [change.runs]; exact List.mem_append_left _ hold, hid⟩

theorem Invariant.change (h : Invariant store) (change : Change typed store store') :
    Invariant store' := by
  cases change with
  | same epochs runs runEvents => exact h.same epochs runs runEvents
  | created request change => exact h.created change
  | started epoch current now eventId planned alone change =>
    refine h.advanced change (fun _ => alone) ?_ fun events hold =>
      hold.started planned epoch now eventId
    -- the projection of this epoch is not running, so no run of it is
    intro run hrun hrunning heq
    obtain ⟨stored, hstored, hstatus⟩ := h.runInEpoch run hrun hrunning
    rw [heq, change.current, Option.some.injEq] at hstored
    rw [← hstored, planned] at hstatus
    cases hstatus
  | closed epoch current request terminal running idle change =>
    refine h.advanced change ?_ idle fun events hold => hold.ended running terminal epoch
    intro hrunning
    have hstatus : request.status = .running := hrunning
    rw [hstatus] at terminal
    exact absurd terminal (by decide)
  | finished request run agree change => exact h.finished change
  | touched run run' change => exact h.touched change
  | inserted run change => exact h.inserted change

theorem Invariant.changes (h : Invariant store) (changes : Changes typed store store') :
    Invariant store' := by
  induction changes with
  | refl => exact h
  | tail _ change ih => exact ih.change change

/-! ### What a run has reached -/

theorem Progress.refl (store : CollectionStore) : Progress store store :=
  fun run hrun => ⟨run, hrun, rfl, fun _ => rfl, fun _ => ⟨rfl, rfl, rfl, fun _ h => h⟩⟩

theorem Progress.trans {mid : CollectionStore} (h : Progress store mid)
    (h' : Progress mid store') : Progress store store' := by
  intro run hrun
  obtain ⟨run₁, hrun₁, hid₁, hboundary₁, hended₁⟩ := h run hrun
  obtain ⟨run₂, hrun₂, hid₂, hboundary₂, hended₂⟩ := h' run₁ hrun₁
  refine ⟨run₂, hrun₂, hid₂.trans hid₁, ?_, ?_⟩
  · intro hsome
    have hsame := hboundary₁ hsome
    exact (hboundary₂ (hsame ▸ hsome)).trans hsame
  · intro hended
    obtain ⟨hstatus₁, hfinished₁, hdetail₁, hevents₁⟩ := hended₁ hended
    obtain ⟨hstatus₂, hfinished₂, hdetail₂, hevents₂⟩ := hended₂ (hstatus₁ ▸ hended)
    refine ⟨hstatus₂.trans hstatus₁, hfinished₂.trans hfinished₁, hdetail₂.trans hdetail₁, ?_⟩
    intro event hevent
    have hmid := hevents₁ event hevent
    rw [← hid₁] at hmid ⊢
    exact hevents₂ event hmid

/-- Runs that are kept, next to terminal events that are only added. -/
theorem progress_of_kept (hruns : ∀ run ∈ store.runs.rows, run ∈ store'.runs.rows)
    (hevents : store'.runEvents = store.runEvents) : Progress store store' := by
  intro run hrun
  refine ⟨run, hruns run hrun, rfl, fun _ => rfl, fun _ => ⟨rfl, rfl, rfl, ?_⟩⟩
  intro event hevent
  rwa [runEventsOf, hevents]

theorem RunTouched.progress {run run' : CollectorRun}
    (change : RunTouched run run' store store') : Progress store store' := by
  have hfind := find?_rewritten run' change.found change.id change.runs
  intro row hrow
  have hrowFind := hfind row.id
  by_cases heq : run.id = row.id
  · rw [if_pos heq] at hrowFind
    obtain ⟨hmem, hid⟩ := Table.find?_eq_some_iff.mp hrowFind
    have hsame : row = run := by
      have hself := Table.find?_key hrow
      rw [← heq, change.found, Option.some.injEq] at hself
      exact hself.symm
    subst hsame
    refine ⟨run', hmem, hid, change.boundary, fun _ => ⟨change.status, change.finishedAt,
      change.failureDetail, fun event hevent => ?_⟩⟩
    rwa [runEventsOf, change.runEvents]
  · rw [if_neg heq, Table.find?_key hrow] at hrowFind
    refine ⟨row, (Table.find?_eq_some_iff.mp hrowFind).1, rfl, fun _ => rfl,
      fun _ => ⟨rfl, rfl, rfl, fun event hevent => ?_⟩⟩
    rwa [runEventsOf, change.runEvents]

theorem RunFinished.progress {request : RunFinish} {run : CollectorRun}
    (change : RunFinished request run store store') : Progress store store' := by
  have hid := (Table.find?_eq_some_iff.mp change.found).2
  have hfound : store.runs.find? run.id = some run := hid ▸ change.found
  have hfind := find?_rewritten (finishedRun request run) hfound rfl change.runs
  intro row hrow
  have hrowFind := hfind row.id
  by_cases heq : run.id = row.id
  · rw [if_pos heq] at hrowFind
    have hsame : row = run := by
      have hself := Table.find?_key hrow
      rw [← heq, hfound, Option.some.injEq] at hself
      exact hself.symm
    subst hsame
    exact ⟨_, (Table.find?_eq_some_iff.mp hrowFind).1, rfl, fun _ => rfl,
      fun hended => absurd change.running hended⟩
  · rw [if_neg heq, Table.find?_key hrow] at hrowFind
    refine ⟨row, (Table.find?_eq_some_iff.mp hrowFind).1, rfl, fun _ => rfl,
      fun _ => ⟨rfl, rfl, rfl, fun event hevent => ?_⟩⟩
    rwa [change.events, if_neg (hid ▸ heq)]

theorem Change.progress (change : Change typed store store') : Progress store store' := by
  cases change with
  | same epochs runs runEvents => exact progress_of_kept (fun run hrun => runs ▸ hrun) runEvents
  | created request change =>
    exact progress_of_kept (fun run hrun => change.runs ▸ hrun) change.runEvents
  | started epoch current now eventId planned alone change =>
    exact progress_of_kept (fun run hrun => change.runs ▸ hrun) change.runEvents
  | closed epoch current request terminal running idle change =>
    exact progress_of_kept (fun run hrun => change.runs ▸ hrun) change.runEvents
  | finished request run agree change => exact change.progress
  | touched run run' change => exact change.progress
  | inserted run change =>
    exact progress_of_kept (fun run hrun => change.runs ▸ List.mem_append_left _ hrun)
      change.runEvents

theorem Changes.progress (changes : Changes typed store store') : Progress store store' := by
  induction changes with
  | refl => exact .refl _
  | tail _ change ih => exact ih.trans change.progress

theorem TypesMatch.change (h : TypesMatch store) (htyped : typed) (hinvariant : Invariant store)
    (change : Change typed store store') : TypesMatch store' := by
  have hcongr (hruns : store'.runs = store.runs) (hevents : store'.runEvents = store.runEvents) :
      TypesMatch store' := by
    intro run hrun event hevent
    rw [runEventsOf, hevents] at hevent
    exact h run (hruns ▸ hrun) event hevent
  cases change with
  | same epochs runs runEvents => exact hcongr runs runEvents
  | created request change => exact hcongr change.runs change.runEvents
  | started epoch current now eventId planned alone change =>
    exact hcongr change.runs change.runEvents
  | closed epoch current request terminal running idle change =>
    exact hcongr change.runs change.runEvents
  | finished request run agree change =>
    have hid := (Table.find?_eq_some_iff.mp change.found).2
    intro row hrow event hevent
    rw [change.events] at hevent
    rw [change.runs] at hrow
    cases Table.mem_write hrow with
    | inl hnew =>
      have hrowEq := List.mem_singleton.mp hnew
      have hsame : request.runId = row.id := by rw [hrowEq, ← hid]; rfl
      rw [if_pos hsame, List.mem_singleton] at hevent
      rw [hevent, hrowEq]
      exact agree htyped
    | inr hold =>
      have hne : ¬ request.runId = row.id := fun heq =>
        hold.2 _ (List.mem_singleton_self _) (hid.trans heq)
      rw [if_neg hne] at hevent
      exact h row hold.1 event hevent
  | touched run run' change =>
    intro row hrow event hevent
    rw [runEventsOf, change.runEvents] at hevent
    rw [change.runs] at hrow
    cases Table.mem_write hrow with
    | inl hnew =>
      rw [List.mem_singleton.mp hnew, change.id] at hevent
      rw [List.mem_singleton.mp hnew, change.status]
      exact h run (Table.find?_eq_some_iff.mp change.found).1 event hevent
    | inr hold => exact h row hold.1 event hevent
  | inserted run change =>
    intro row hrow event hevent
    rw [runEventsOf, change.runEvents] at hevent
    rw [change.runs, List.mem_append, List.mem_singleton] at hrow
    cases hrow with
    | inl hold => exact h row hold event hevent
    | inr hnew =>
      obtain ⟨hmem, hmine⟩ := List.mem_filter.mp hevent
      obtain ⟨old, hold, hid⟩ := hinvariant.runRef event hmem
      refine absurd ?_ (Table.find?_eq_none_iff.mp change.unused old hold)
      rw [hid, of_decide_eq_true hmine, hnew]

theorem TypesMatch.changes (h : TypesMatch store) (htyped : typed) (hinvariant : Invariant store)
    (changes : Changes typed store store') : TypesMatch store' := by
  induction changes with
  | refl => exact h
  | tail before change ih => exact ih.change htyped (hinvariant.changes before) change

end Preserved

/-! ### Every run -/

section Runs

/-- A call that raises leaves the store alone. -/
theorem lifeStep_changes (store : CollectionStore) (call : LifeCall) :
    Changes call.TypesAgree store (lifeStep store call) := by
  unfold lifeStep
  cases h : call.execute store with
  | error e => exact .refl
  | ok s => exact execute_changes h

end Runs

end PumpResearch.Collection
