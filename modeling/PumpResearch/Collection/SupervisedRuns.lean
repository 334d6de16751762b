import PumpResearch.Collection.Supervision

/-! Every order of events of the supervised process: what the loops, the runtime and the stored end
of the run say of each other. -/
namespace PumpResearch.Collection
open KeyedTable Runs

/-! ### The invariant -/

namespace Supervision
variable (s : Supervision)

/-- A graceful stop is under way. -/
structure Stopping : Prop where
  launched : s.launched = true
  unfinished : s.runEnd = none
  requested : s.shutdown.isSome = true
  status : s.status = .stopped
  reason : s.detail.reason = "operator_requested_shutdown"

/-- All loops have ended, on no more than closed pipes unless they were cancelled. -/
structure Settled : Prop where
  ended : s.AllEnded
  pipes : s.detail.forcedCancelAfterGraceTimeout = true ∨ s.OnlyBrokenPipes

/-- What is true once the end of the run is decided. -/
structure Decided (settings : WorkerSettings) (runId : Uuid) (raised : Option PendingError) :
    Prop where
  explained : s.detail.reason ≠ "collector_worker_stopped_unexpectedly"
  quiet : s.launched = true → s.detail.reason ≠ "collector_runtime_supervision_failed" →
    s.AllEnded
  requested : s.status = .stopped → s.shutdown.isSome = true
  returned : raised = none → s.status = .stopped ∧ s.Settled ∧
    ∀ component ∈ stoppedComponents settings, s.ShownStopped runId component

def PhaseHolds (settings : WorkerSettings) (runId : Uuid) : RuntimePhase → Prop
  | .starting => s.launched = false ∧ s.runEnd = none ∧ s.status = .failed
  | .waiting => s.launched = true ∧ s.runEnd = none ∧ s.status = .failed ∧
    (s.cancelling = true → s.errors ≠ [])
  | .stopping wait => s.Stopping ∧ (wait.late = true → s.AllEnded)
  | .gathering => s.Stopping ∧ s.AllEnded ∧ s.detail.forcedCancelAfterGraceTimeout = true
  | .marking _ remaining => s.Stopping ∧ s.Settled ∧ ∃ marked,
    marked ++ remaining = stoppedComponents settings ∧
      ∀ component ∈ marked, s.ShownStopped runId component
  | .finishing raised => s.runEnd = none ∧ s.Decided settings runId raised
  | .ended raised => s.Decided settings runId raised ∧
    (s.runEnd = none ∧ raised ≠ none ∨ s.runEnd = some ⟨s.status, s.detail⟩)

structure Invariant (settings : WorkerSettings) (runId : Uuid)
    (before : Table HealthRow.componentName) : Prop where
  specs : s.loops.map (·.spec) = workerLoops settings
  unlaunched : s.launched = false → s.cancelling = false ∧ s.records = [] ∧
    ∀ loop ∈ s.loops, loop.phase = .ready
  asked : ∀ loop ∈ s.loops, loop.phase = .done → s.shutdown.isSome = true
  caused : ∀ loop ∈ s.loops, loop.phase = .cancelled → s.cancelling = true
  health : ∀ component, s.health.find? component =
    projectedHealth runId before s.records component
  phase : s.PhaseHolds settings runId s.phase

end Supervision

section Invariants
variable {settings : WorkerSettings} {runId : Uuid} {before : Table HealthRow.componentName}
  {s s' : Supervision}

/-- The components of all loops are among those that are stopped. -/
theorem component_mem_stopped {spec : LoopSpec} (h : spec ∈ workerLoops settings) :
    spec.component ∈ stoppedComponents settings := by
  obtain ⟨batches, boosts, security, marketContext, selective⟩ := settings
  simp only [workerLoops, List.mem_append] at h
  obtain ((((((h | h) | h) | h) | h) | h) | h) := h
  · simp only [List.mem_cons, List.not_mem_nil, or_false] at h
    obtain h | h := h <;> simp [h, stoppedComponents]
  · simp [List.eq_of_mem_replicate h, stoppedComponents]
  · simp only [List.mem_cons, List.not_mem_nil, or_false] at h
    obtain h | h := h <;> simp [h, stoppedComponents]
  · cases boosts with
    | false => simp at h
    | true =>
      simp only [if_true, List.mem_cons, List.not_mem_nil, or_false] at h
      obtain h | h := h <;> simp [h, stoppedComponents]
  · cases security with
    | false => simp at h
    | true =>
      simp only [if_true, List.mem_singleton] at h
      simp [h, stoppedComponents]
  · cases marketContext with
    | false => simp at h
    | true =>
      simp only [if_true, List.mem_singleton] at h
      simp [h, stoppedComponents]
  · cases selective with
    | none => simp at h
    | some workers => simp [List.eq_of_mem_replicate h, stoppedComponents]

theorem Supervision.mem_errors {error : RaisedError} :
    error ∈ s.errors ↔ ∃ loop ∈ s.loops, loop.phase.error? = some error := List.mem_filterMap

theorem Supervision.workerDone_iff : s.workerDone = true ↔ s.launched = true ∧ s.AllEnded := by
  simp [Supervision.workerDone, Supervision.AllEnded]

/-- The other loops stay. -/
theorem LoopChanged.mem_loops {i : Nat} {loop other : WorkerLoop}
    (h : LoopChanged runId i loop s s') (hloop : s.loops[i]? = some loop) (hother : other ∈ s.loops)
    (hended : other.phase.isEnded = true) : other ∈ s'.loops := by
  obtain ⟨phase, hset, _⟩ := h.loops
  obtain ⟨j, hj, hget⟩ := List.getElem_of_mem hother
  have hne : i ≠ j := by
    intro heq
    subst heq
    have hsame : loop = other := by
      rw [List.getElem?_eq_getElem hj, hget] at hloop
      exact (Option.some.inj hloop).symm
    rw [← hsame, h.active] at hended
    cases hended
  rw [hset]
  refine List.mem_of_getElem? (i := j) ?_
  rw [List.getElem?_set_ne hne, List.getElem?_eq_getElem hj, hget]

/-- An active loop is one of those that have not ended. -/
theorem LoopChanged.not_ended {i : Nat} {loop : WorkerLoop} (h : LoopChanged runId i loop s s')
    (hloop : s.loops[i]? = some loop) : ¬ s.AllEnded := by
  intro hall
  have hended := hall loop (List.mem_of_getElem? hloop)
  rw [h.active] at hended
  cases hended

/-- The group has an error after the step if it had one before, or cancels its loops since. -/
theorem LoopChanged.errors_ne {i : Nat} {loop : WorkerLoop} (h : LoopChanged runId i loop s s')
    (hloop : s.loops[i]? = some loop) (hbefore : s.cancelling = true → s.errors ≠ [])
    (hcancelling : s'.cancelling = true) : s'.errors ≠ [] := by
  obtain ⟨phase, hset, _, _, hcancels⟩ := h.loops
  cases hcancels with
  | inl hsame =>
    obtain ⟨error, herror⟩ := List.exists_mem_of_ne_nil _ (hbefore (hsame ▸ hcancelling))
    obtain ⟨other, hother, hfailed⟩ := Supervision.mem_errors.mp herror
    have hended : other.phase.isEnded = true := by
      cases hphase : other.phase <;> simp [hphase, LoopPhase.error?, LoopPhase.isEnded] at hfailed ⊢
    exact List.ne_nil_of_mem
      (Supervision.mem_errors.mpr ⟨other, h.mem_loops hloop hother hended, hfailed⟩)
  | inr hfails =>
    obtain ⟨error, herror⟩ := Option.isSome_iff_exists.mp hfails.2
    have hlt : i < s.loops.length := (List.getElem?_eq_some_iff.mp hloop).1
    exact List.ne_nil_of_mem (Supervision.mem_errors.mpr
      ⟨{ loop with phase }, hset ▸ List.mem_set hlt _, herror⟩)

/-- What the runtime relies on stays while a loop is active. -/
theorem LoopChanged.phaseHolds {i : Nat} {loop : WorkerLoop} (h : LoopChanged runId i loop s s')
    (hloop : s.loops[i]? = some loop) {phase : RuntimePhase}
    (hphase : s.PhaseHolds settings runId phase) : s'.PhaseHolds settings runId phase := by
  have hactive := h.not_ended hloop
  have hsame := h.same
  have hlaunched : s'.launched = s.launched := by rw [hsame]
  have hrunEnd : s'.runEnd = s.runEnd := by rw [hsame]
  have hshutdown : s'.shutdown = s.shutdown := by rw [hsame]
  have hstatus : s'.status = s.status := by rw [hsame]
  have hdetail : s'.detail = s.detail := by rw [hsame]
  have hstopping : s.Stopping → s'.Stopping := fun hs =>
    ⟨hlaunched ▸ hs.launched, hrunEnd ▸ hs.unfinished, hshutdown ▸ hs.requested,
      hstatus ▸ hs.status, hdetail ▸ hs.reason⟩
  have hdecided : ∀ raised, s.Decided settings runId raised → s'.Decided settings runId raised := by
    intro raised hs
    refine ⟨hdetail ▸ hs.explained, fun _ hreason => ?_, ?_, fun hnone => ?_⟩
    · exact absurd (hs.quiet h.launched (hdetail ▸ hreason)) hactive
    · rw [hstatus, hshutdown]
      exact hs.requested
    · exact absurd (hs.returned hnone).2.1.ended hactive
  cases phase with
  | starting =>
    have hnot := hphase.1
    rw [h.launched] at hnot
    cases hnot
  | waiting =>
    obtain ⟨_, hnone, hfailed, hcancelling⟩ := hphase
    exact ⟨hlaunched ▸ h.launched, hrunEnd ▸ hnone, hstatus ▸ hfailed,
      h.errors_ne hloop hcancelling⟩
  | stopping wait => exact ⟨hstopping hphase.1, fun hlate => absurd (hphase.2 hlate) hactive⟩
  | gathering => exact absurd hphase.2.1 hactive
  | marking now remaining => exact absurd hphase.2.1.ended hactive
  | finishing raised => exact ⟨hrunEnd ▸ hphase.1, hdecided raised hphase.2⟩
  | ended raised =>
    refine ⟨hdecided raised hphase.1, ?_⟩
    rw [hrunEnd, hstatus, hdetail]
    exact hphase.2

theorem Supervision.Invariant.loop {i : Nat} {loop : WorkerLoop}
    (hs : s.Invariant settings runId before) (h : LoopChanged runId i loop s s')
    (hloop : s.loops[i]? = some loop) : s'.Invariant settings runId before := by
  have hshutdown : s'.shutdown = s.shutdown := by rw [h.same]
  have hruntime : s'.phase = s.phase := by rw [h.same]
  obtain ⟨phase, hset, hdone, hcancelled, hcancels⟩ := h.loops
  refine ⟨?_, ?_, ?_, ?_, ?_, ?_⟩
  · have hspec : (s.loops.map (·.spec))[i]? = some loop.spec := by
      rw [List.getElem?_map, hloop]
      rfl
    rw [hset, List.map_set, ← hs.specs]
    obtain ⟨hlt, hget⟩ := List.getElem?_eq_some_iff.mp hspec
    rw [← hget]
    exact List.set_getElem_self hlt
  · intro hfalse
    rw [h.same] at hfalse
    have hlaunched : s.launched = false := hfalse
    rw [h.launched] at hlaunched
    cases hlaunched
  · intro other hother hphase
    rw [hshutdown]
    rw [hset] at hother
    cases List.mem_or_eq_of_mem_set hother with
    | inl hold => exact hs.asked other hold hphase
    | inr hnew =>
      subst hnew
      exact hdone hphase
  · intro other hother hphase
    have hbefore : s.cancelling = true := by
      rw [hset] at hother
      cases List.mem_or_eq_of_mem_set hother with
      | inl hold => exact hs.caused other hold hphase
      | inr hnew =>
        subst hnew
        exact hcancelled hphase
    cases hcancels with
    | inl hsame => rw [hsame, hbefore]
    | inr hfails => exact hfails.1
  · intro component
    cases h.records with
    | inl hsame =>
      rw [hsame.1, hsame.2]
      exact hs.health component
    | inr hrecorded =>
      obtain ⟨record, hhealth, hrecords⟩ := hrecorded
      rw [hhealth, hrecords]
      exact projectedHealth_concat record component hs.health
  · rw [hruntime]
    exact h.phaseHolds hloop hs.phase

/-! ### The runtime -/

/-- A step of the runtime that leaves the loops and the health alone. -/
theorem Supervision.Invariant.runtime (hs : s.Invariant settings runId before)
    (hloops : s'.loops = s.loops) (hshutdown : s.shutdown.isSome = true → s'.shutdown.isSome = true)
    (hcancelling : s.cancelling = true → s'.cancelling = true)
    (hlaunched : s'.launched = false → s.launched = false ∧ s'.cancelling = s.cancelling)
    (hhealth : s'.health = s.health) (hrecords : s'.records = s.records)
    (hphase : s'.PhaseHolds settings runId s'.phase) : s'.Invariant settings runId before where
  specs := hloops ▸ hs.specs
  unlaunched hfalse := by
    obtain ⟨hbefore, hsame⟩ := hlaunched hfalse
    rw [hsame, hrecords, hloops]
    exact hs.unlaunched hbefore
  asked loop hloop hdone := hshutdown (hs.asked loop (hloops ▸ hloop) hdone)
  caused loop hloop hcancelled := hcancelling (hs.caused loop (hloops ▸ hloop) hcancelled)
  health component := by
    rw [hhealth, hrecords]
    exact hs.health component
  phase := hphase

/-- A failure that is raised once the run is finished. -/
theorem decided_fail {detail : TerminalDetail} {raised : PendingError}
    (hexplained : detail.reason ≠ "collector_worker_stopped_unexpectedly")
    (hquiet : s.launched = true → s.AllEnded) :
    (s.fail detail raised).Decided settings runId (some raised) :=
  ⟨hexplained, fun hlaunched _ => hquiet hlaunched, fun h => (by cases h), fun h => (by cases h)⟩

theorem Supervision.Invariant.failed (hs : s.Invariant settings runId before)
    (hunfinished : s.runEnd = none) {detail : TerminalDetail} {raised : PendingError}
    (hexplained : detail.reason ≠ "collector_worker_stopped_unexpectedly")
    (hquiet : s.launched = true → s.AllEnded) :
    (s.fail detail raised).Invariant settings runId before :=
  hs.runtime rfl id id (fun h => ⟨h, rfl⟩) rfl rfl ⟨hunfinished, decided_fail hexplained hquiet⟩

/-- A worker does not end without an error before the shutdown. -/
theorem Supervision.Invariant.errors_ne (hs : s.Invariant settings runId before)
    (hdone : s.workerDone = true) (hshutdown : s.shutdown = none)
    (hcancelling : s.cancelling = true → s.errors ≠ []) : s.errors ≠ [] := by
  have hne : s.loops ≠ [] := by
    intro hnil
    have hspecs := hs.specs
    rw [hnil] at hspecs
    simp [workerLoops] at hspecs
  obtain ⟨loop, hloop⟩ := List.exists_mem_of_ne_nil _ hne
  have hended := (Supervision.workerDone_iff.mp hdone).2 loop hloop
  cases hphase : loop.phase with
  | ready =>
    rw [hphase] at hended
    cases hended
  | running attemptedAt =>
    rw [hphase] at hended
    cases hended
  | done =>
    have hasked := hs.asked loop hloop hphase
    rw [hshutdown] at hasked
    cases hasked
  | failed error =>
    exact List.ne_nil_of_mem (Supervision.mem_errors.mpr ⟨loop, hloop, by rw [hphase]; rfl⟩)
  | cancelled => exact hcancelling (hs.caused loop hloop hphase)

theorem Supervision.Invariant.wake (hs : s.Invariant settings runId before)
    (hphase : s.phase = .waiting) : (wake s).Invariant settings runId before := by
  have hwaiting := hs.phase
  rw [hphase] at hwaiting
  obtain ⟨hlaunched, hunfinished, hfailed, hcancelling⟩ := hwaiting
  unfold Collection.wake
  split
  · next signal hshutdown =>
    refine hs.runtime rfl id id (fun h => ⟨h, rfl⟩) rfl rfl
      ⟨⟨hlaunched, hunfinished, ?_, rfl, rfl⟩, ?_⟩
    · rw [hshutdown]
      rfl
    · intro hlate
      cases hlate
  · next hshutdown =>
    split
    · next hdone =>
      rw [if_neg (hs.errors_ne hdone hshutdown hcancelling)]
      exact hs.failed hunfinished (by decide)
        fun _ => (Supervision.workerDone_iff.mp hdone).2
    · exact hs

theorem settled_marking (hs : s.Invariant settings runId before) (hstopping : s.Stopping)
    (hsettled : s.Settled) (now : Int) :
    (beginMarking settings s now).Invariant settings runId before := by
  refine hs.runtime rfl id id (fun h => ⟨h, rfl⟩) rfl rfl ?_
  exact ⟨⟨hstopping.launched, hstopping.unfinished, hstopping.requested, hstopping.status,
    hstopping.reason⟩, ⟨hsettled.ended, hsettled.pipes⟩, [], rfl, fun _ h => (by cases h)⟩

theorem Supervision.Invariant.workerEnds (hs : s.Invariant settings runId before) {wait : GraceWait}
    (hphase : s.phase = .stopping wait) (hdone : s.workerDone = true) (now : Int) :
    (workerEnds settings now wait s).Invariant settings runId before := by
  have hholds := hs.phase
  rw [hphase] at hholds
  obtain ⟨hstopping, _⟩ := hholds
  have hended := (Supervision.workerDone_iff.mp hdone).2
  unfold Collection.workerEnds
  split
  · next hhidden =>
    cases wait with
    | awaiting =>
      have hnone : s.errors = [] := by
        cases hhidden with
        | inl hlate => cases hlate
        | inr hnone => exact hnone
      refine settled_marking hs hstopping ⟨hended, .inr ?_⟩ now
      intro error herror
      rw [hnone] at herror
      cases herror
    | expired late =>
      refine hs.runtime rfl id id (fun h => ⟨h, rfl⟩) rfl rfl ?_
      exact ⟨⟨hstopping.launched, hstopping.unfinished, hstopping.requested, hstopping.status,
        hstopping.reason⟩, hended, rfl⟩
    | interrupted late => exact hs.failed hstopping.unfinished (by simp) fun _ => hended
  · split
    · next hpipes =>
      have honly : s.OnlyBrokenPipes := by
        intro error herror
        have hpipe := List.all_eq_true.mp hpipes error herror
        simpa using hpipe
      have hdetail : ({ s with detail := { s.detail with
          suppressedShutdownError := some "BrokenPipeError" } } : Supervision).Invariant
          settings runId before := by
        refine hs.runtime rfl id id (fun h => ⟨h, rfl⟩) rfl rfl ?_
        dsimp only
        rw [hphase]
        exact ⟨⟨hstopping.launched, hstopping.unfinished, hstopping.requested, hstopping.status,
          hstopping.reason⟩, fun _ => hended⟩
      exact settled_marking hdetail ⟨hstopping.launched, hstopping.unfinished, hstopping.requested,
        hstopping.status, hstopping.reason⟩ ⟨hended, .inr honly⟩ now
    · exact hs.failed hstopping.unfinished (by simp) fun _ => hended

theorem shownStopped_iff {component : String} : s.ShownStopped runId component ↔
    ∃ row, s.health.find? component = some row ∧ row.status = .stopped ∧
      row.collectorRunId = runId := by
  constructor
  · intro h
    obtain ⟨row, hrow, hname, hstopped, hrun⟩ := h
    exact ⟨row, hname ▸ Table.find?_key hrow, hstopped, hrun⟩
  · intro h
    obtain ⟨row, hfind, hstopped, hrun⟩ := h
    obtain ⟨hrow, hname⟩ := Table.find?_eq_some_iff.mp hfind
    exact ⟨row, hrow, hname, hstopped, hrun⟩

/-- A component that is marked is shown as stopped, and those before it still are. -/
theorem shownStopped_record {component marked : String} {now : Int}
    (h : component = marked ∨ s.ShownStopped runId component) :
    (s.record runId ⟨marked, .stopped, now, none⟩).ShownStopped runId component := by
  rw [shownStopped_iff]
  have hfind : (recordHealth runId s.health ⟨marked, .stopped, now, none⟩).find? component = _ :=
    recordHealth_find? s.health ⟨marked, .stopped, now, none⟩ component
  by_cases hsame : marked = component
  · rw [if_pos hsame] at hfind
    exact ⟨_, hfind, rfl, rfl⟩
  · rw [if_neg hsame] at hfind
    cases h with
    | inl heq => exact absurd heq.symm hsame
    | inr hshown =>
      obtain ⟨row, hrow, hrest⟩ := shownStopped_iff.mp hshown
      exact ⟨row, hfind.trans hrow, hrest⟩

theorem Supervision.Invariant.marked (hs : s.Invariant settings runId before) {now : Int}
    {component : String} {rest : List String}
    (hphase : s.phase = .marking now (component :: rest)) :
    ({ s.record runId ⟨component, .stopped, now, none⟩ with
        phase := if rest = [] then .finishing none else .marking now rest } :
      Supervision).Invariant settings runId before := by
  have hholds := hs.phase
  rw [hphase] at hholds
  obtain ⟨hstopping, hsettled, marked, hall, hshown⟩ := hholds
  have hnext : ∀ other ∈ marked ++ [component],
      (s.record runId ⟨component, .stopped, now, none⟩).ShownStopped runId other := by
    intro other hother
    cases List.mem_append.mp hother with
    | inl hearlier => exact shownStopped_record (.inr (hshown other hearlier))
    | inr hlast => exact shownStopped_record (.inl (List.mem_singleton.mp hlast))
  refine ⟨hs.specs, ?_, hs.asked, hs.caused, ?_, ?_⟩
  · intro hfalse
    have hlaunched : s.launched = false := hfalse
    rw [hstopping.launched] at hlaunched
    cases hlaunched
  · intro other
    exact projectedHealth_concat _ other hs.health
  · dsimp only
    split
    · next hlast =>
      subst hlast
      refine ⟨hstopping.unfinished, ?_, fun _ _ => hsettled.ended, fun _ => hstopping.requested,
        fun _ => ⟨hstopping.status, ⟨hsettled.ended, hsettled.pipes⟩, ?_⟩⟩
      · have hexplained : s.detail.reason ≠ "collector_worker_stopped_unexpectedly" := by
          rw [hstopping.reason]
          decide
        exact hexplained
      · intro other hother
        rw [← hall] at hother
        exact hnext other hother
    · exact ⟨⟨hstopping.launched, hstopping.unfinished, hstopping.requested, hstopping.status,
        hstopping.reason⟩, ⟨hsettled.ended, hsettled.pipes⟩, marked ++ [component], by
          rw [List.append_assoc]; exact hall, hnext⟩

theorem Supervision.Invariant.interrupt (hs : s.Invariant settings runId before) :
    (interrupt s).Invariant settings runId before := by
  have hholds := hs.phase
  unfold Collection.interrupt
  split
  · next hphase =>
    rw [hphase] at hholds
    obtain ⟨_, hunfinished, hfailed, _⟩ := hholds
    refine hs.runtime rfl id id (fun h => ⟨h, rfl⟩) rfl rfl
      ⟨hunfinished, by simp, fun _ hreason => absurd rfl hreason, fun hstopped => ?_,
        fun h => (by cases h)⟩
    have hstatus : s.status = .stopped := hstopped
    rw [hfailed] at hstatus
    cases hstatus
  · next wait hphase =>
    rw [hphase] at hholds
    obtain ⟨hstopping, hlate⟩ := hholds
    refine hs.runtime rfl id (fun _ => rfl) (fun h => ?_) rfl rfl
      ⟨⟨hstopping.launched, hstopping.unfinished, hstopping.requested, hstopping.status,
        hstopping.reason⟩, fun h => ?_⟩
    · have hlaunched : s.launched = false := h
      rw [hstopping.launched] at hlaunched
      cases hlaunched
    · cases (Bool.or_eq_true _ _).mp h with
      | inl hbefore => exact hlate hbefore
      | inr hdone => exact (Supervision.workerDone_iff.mp hdone).2
  · next hphase =>
    rw [hphase] at hholds
    obtain ⟨hstopping, _, _⟩ := hholds
    exact hs.runtime rfl id id (fun h => ⟨h, rfl⟩) rfl rfl
      ⟨hstopping.unfinished, by simp, fun _ hreason => absurd rfl hreason,
        fun _ => hstopping.requested, fun h => (by cases h)⟩
  · next now remaining hphase =>
    rw [hphase] at hholds
    obtain ⟨hstopping, hsettled, _⟩ := hholds
    exact hs.failed hstopping.unfinished (by simp) fun _ => hsettled.ended
  · exact hs

/-- Another request of the shutdown only names another reason. -/
theorem Supervision.PhaseHolds.requested {phase : RuntimePhase}
    (h : s.PhaseHolds settings runId phase) (reason : String) :
    ({ s with shutdown := some reason } : Supervision).PhaseHolds settings runId phase := by
  have hstopping : s.Stopping → ({ s with shutdown := some reason } : Supervision).Stopping :=
    fun hs => ⟨hs.launched, hs.unfinished, rfl, hs.status, hs.reason⟩
  have hdecided : ∀ raised, s.Decided settings runId raised →
      ({ s with shutdown := some reason } : Supervision).Decided settings runId raised := by
    intro raised hs
    refine ⟨hs.explained, hs.quiet, fun _ => rfl, fun hnone => ?_⟩
    obtain ⟨hstatus, hsettled, hshown⟩ := hs.returned hnone
    exact ⟨hstatus, ⟨hsettled.ended, hsettled.pipes⟩, hshown⟩
  cases phase with
  | starting => exact h
  | waiting => exact h
  | stopping wait => exact ⟨hstopping h.1, h.2⟩
  | gathering => exact ⟨hstopping h.1, h.2⟩
  | marking now remaining => exact ⟨hstopping h.1, ⟨h.2.1.ended, h.2.1.pipes⟩, h.2.2⟩
  | finishing raised => exact ⟨h.1, hdecided raised h.2⟩
  | ended raised => exact ⟨hdecided raised h.1, h.2⟩

theorem Supervision.Invariant.finished (hs : s.Invariant settings runId before)
    {pending : Option PendingError} (hphase : s.phase = .finishing pending) :
    ({ s with runEnd := some ⟨s.status, s.detail⟩, phase := .ended pending } :
      Supervision).Invariant settings runId before := by
  have hholds := hs.phase
  rw [hphase] at hholds
  obtain ⟨_, hdecided⟩ := hholds
  refine hs.runtime rfl id id (fun h => ⟨h, rfl⟩) rfl rfl
    ⟨⟨hdecided.explained, hdecided.quiet, hdecided.requested, fun hnone => ?_⟩, .inr rfl⟩
  obtain ⟨hstatus, hsettled, hshown⟩ := hdecided.returned hnone
  exact ⟨hstatus, ⟨hsettled.ended, hsettled.pipes⟩, hshown⟩

theorem Supervision.Invariant.finishRaises (hs : s.Invariant settings runId before)
    {pending : Option PendingError} (hphase : s.phase = .finishing pending) (error : RaisedError) :
    ({ s with phase := .ended (some (.raised error)) } : Supervision).Invariant
      settings runId before := by
  have hholds := hs.phase
  rw [hphase] at hholds
  obtain ⟨hunfinished, hdecided⟩ := hholds
  exact hs.runtime rfl id id (fun h => ⟨h, rfl⟩) rfl rfl
    ⟨⟨hdecided.explained, hdecided.quiet, hdecided.requested, fun h => (by cases h)⟩,
      .inl ⟨hunfinished, fun h => (by cases h)⟩⟩

theorem Supervision.Invariant.boundary (hs : s.Invariant settings runId before)
    (hphase : s.phase = .starting) :
    ({ s with launched := true, phase := .waiting } : Supervision).Invariant
      settings runId before := by
  have hholds := hs.phase
  rw [hphase] at hholds
  obtain ⟨hlaunched, hunfinished, hfailed⟩ := hholds
  refine hs.runtime rfl id id (fun h => (by cases h)) rfl rfl
    ⟨rfl, hunfinished, hfailed, fun hcancelling => ?_⟩
  have hnot := (hs.unlaunched hlaunched).1
  rw [show s.cancelling = true from hcancelling] at hnot
  cases hnot

theorem Supervision.Invariant.step (hs : s.Invariant settings runId before)
    (action : SuperviseAction) :
    (superviseStep settings runId s action).Invariant settings runId before := by
  have hholds := hs.phase
  cases action with
  | loop i action =>
    simp only [superviseStep]
    cases hloop : s.loops[i]? with
    | none => exact hs
    | some loop =>
      dsimp only
      have hready : s.launched = false → loop.phase = .ready ∧ s.cancelling = false := by
        intro hfalse
        obtain ⟨hcancelling, _, hall⟩ := hs.unlaunched hfalse
        exact ⟨hall loop (List.mem_of_getElem? hloop), hcancelling⟩
      have hcases : loopStep runId s i loop action = s ∨
          LoopChanged runId i loop s (loopStep runId s i loop action) :=
        loopStep_cases hready action
      cases hcases with
      | inl hsame =>
        rw [hsame]
        exact hs
      | inr hchanged => exact hs.loop hchanged hloop
  | requestShutdown reason =>
    exact hs.runtime rfl (fun _ => rfl) id (fun h => ⟨h, rfl⟩) rfl rfl (hholds.requested reason)
  | markCollectionStarted raised =>
    simp only [superviseStep]
    split
    · next hphase =>
      rw [hphase] at hholds
      cases raised with
      | none => exact hs.boundary hphase
      | some error =>
        refine hs.failed hholds.2.1 (by simp) fun hlaunched => ?_
        rw [hholds.1] at hlaunched
        cases hlaunched
    · exact hs
  | wake =>
    simp only [superviseStep]
    split
    · next hphase => exact hs.wake hphase
    · exact hs
  | graceExpires =>
    simp only [superviseStep]
    split
    · next hphase =>
      rw [hphase] at hholds
      obtain ⟨hstopping, _⟩ := hholds
      refine hs.runtime rfl id (fun _ => rfl) (fun h => ?_) rfl rfl
        ⟨⟨hstopping.launched, hstopping.unfinished, hstopping.requested, hstopping.status,
          hstopping.reason⟩, fun hlate => (Supervision.workerDone_iff.mp hlate).2⟩
      have hlaunched : s.launched = false := h
      rw [hstopping.launched] at hlaunched
      cases hlaunched
    · exact hs
  | workerEnds now =>
    simp only [superviseStep]
    split
    · next wait hphase =>
      split
      · next hdone => exact hs.workerEnds hphase hdone now
      · exact hs
    · exact hs
  | gathered now =>
    simp only [superviseStep]
    split
    · next hphase =>
      rw [hphase] at hholds
      obtain ⟨hstopping, hended, hforced⟩ := hholds
      exact settled_marking hs hstopping ⟨hended, .inl hforced⟩ now
    · exact hs
  | markStopped raised =>
    simp only [superviseStep]
    split
    · next now component rest hphase =>
      cases raised with
      | none => exact hs.marked hphase
      | some error =>
        rw [hphase] at hholds
        obtain ⟨hstopping, hsettled, _⟩ := hholds
        exact hs.failed hstopping.unfinished (by simp) fun _ => hsettled.ended
    · exact hs
  | finish raised =>
    simp only [superviseStep]
    split
    · next pending hphase =>
      cases raised with
      | none => exact hs.finished hphase
      | some error => exact hs.finishRaises hphase error
    · exact hs
  | interrupt => exact hs.interrupt

theorem invariant_start (before : Table HealthRow.componentName) :
    (startSupervision settings before).Invariant settings runId before where
  specs := by simp [startSupervision, Function.comp_def]
  unlaunched _ := by
    refine ⟨rfl, rfl, fun loop hloop => ?_⟩
    obtain ⟨spec, _, hspec⟩ := List.mem_map.mp hloop
    exact hspec ▸ rfl
  asked loop hloop hdone := by
    obtain ⟨spec, _, hspec⟩ := List.mem_map.mp hloop
    subst hspec
    cases hdone
  caused loop hloop hcancelled := by
    obtain ⟨spec, _, hspec⟩ := List.mem_map.mp hloop
    subst hspec
    cases hcancelled
  health component := rfl
  phase := ⟨rfl, rfl, rfl⟩

theorem Supervision.Invariant.decided (hs : s.Invariant settings runId before) {runEnd : RunEnd}
    (h : s.runEnd = some runEnd) :
    ∃ raised, s.phase = .ended raised ∧ s.Decided settings runId raised ∧
      runEnd = ⟨s.status, s.detail⟩ := by
  have hholds := hs.phase
  cases hphase : s.phase with
  | starting =>
    rw [hphase] at hholds
    rw [hholds.2.1] at h
    cases h
  | waiting =>
    rw [hphase] at hholds
    rw [hholds.2.1] at h
    cases h
  | stopping wait =>
    rw [hphase] at hholds
    rw [hholds.1.unfinished] at h
    cases h
  | gathering =>
    rw [hphase] at hholds
    rw [hholds.1.unfinished] at h
    cases h
  | marking now remaining =>
    rw [hphase] at hholds
    rw [hholds.1.unfinished] at h
    cases h
  | finishing raised =>
    rw [hphase] at hholds
    rw [hholds.1] at h
    cases h
  | ended raised =>
    rw [hphase] at hholds
    refine ⟨raised, rfl, hholds.1, ?_⟩
    cases hholds.2 with
    | inl hnone =>
      rw [hnone.1] at h
      cases h
    | inr hsome => exact Option.some.inj (h.symm.trans hsome)

theorem Supervision.Invariant.supervised (hs : s.Invariant settings runId before) :
    s.Supervised runId before where
  unlaunched hfalse := (hs.unlaunched hfalse).2
  quiet runEnd hend hlaunched hreason := by
    obtain ⟨_, _, hdecided, heq⟩ := hs.decided hend
    subst heq
    exact hdecided.quiet hlaunched hreason
  requested runEnd hend hstopped := by
    obtain ⟨_, _, hdecided, heq⟩ := hs.decided hend
    subst heq
    exact hdecided.requested hstopped
  explained runEnd hend := by
    obtain ⟨_, _, hdecided, heq⟩ := hs.decided hend
    subst heq
    exact hdecided.explained
  returned hphase := by
    have hholds := hs.phase
    rw [hphase] at hholds
    obtain ⟨hdecided, hend⟩ := hholds
    obtain ⟨hstatus, hsettled, hshown⟩ := hdecided.returned rfl
    refine ⟨hdecided.requested hstatus, ?_, hsettled.ended, ?_⟩
    · cases hend with
      | inl hraised => exact absurd rfl hraised.2
      | inr hsome => exact ⟨_, hsome, hstatus, hsettled.pipes⟩
    · intro loop hloop
      have hspec : loop.spec ∈ workerLoops settings :=
        hs.specs ▸ List.mem_map_of_mem hloop
      exact hshown _ (component_mem_stopped hspec)
  health := hs.health

/-- The supervised process in any order of events, with whatever its passes, its records and its
transactions raise. -/
theorem supervision_accounted (settings : WorkerSettings) (runId : Uuid)
    (before : Table HealthRow.componentName) (actions : List SuperviseAction) :
    Always (superviseStep settings runId) (fun s => s.Supervised runId before)
      (startSupervision settings before) actions :=
  (always_of_kept (I := fun s => s.Invariant settings runId before)
    (fun _ action hs => hs.step action) (invariant_start before) actions).mono
      fun _ hs => hs.supervised

end Invariants

end PumpResearch.Collection
