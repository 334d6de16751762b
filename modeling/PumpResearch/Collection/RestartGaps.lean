import PumpResearch.Collection.LifeCycles
import PumpResearch.Collection.LiveIntervals

/-! Restart gaps. A crashed run ends, as stored, when the next process recovers it, so the time
between its last heartbeat and that recovery counts as live work. -/
namespace PumpResearch.Collection
open KeyedTable Results Runs

/-! ### Processes on one clock -/

/-- The process that holds the lock; it collects once its live boundary is committed. -/
structure Process where
  runId : Uuid
  collecting : Bool
deriving DecidableEq

/-- The clock, the database, the process, and each recovered run with the run that recovered it. -/
structure LiveSystem where
  clock : Int
  store : CollectionStore
  process : Option Process
  restarts : List (Uuid × Uuid)

inductive LiveAction where
  | tick (elapsed : Nat)
  | createEpoch (request : EpochDeclaration)
  | closeEpoch (request : EpochClosing)
  | start (request : CollectorStart)
  | markCollectionStarted
  | heartbeat
  | finish (status : RunStatus) (failureDetail : Option FailureDetail)
  | crash

/-- A new process under the free lock. -/
def liveStart (request : CollectorStart) (s : LiveSystem) : LiveSystem :=
  match startCollector { request with startedAt := s.clock } s.store with
  | .error _ => s
  | .ok (store, run) =>
    { s with
      store := store
      process := some ⟨run.id, false⟩
      restarts := s.restarts ++ (s.store.runs.rows.filter (·.status = .running)).map
        fun crashed => (crashed.id, run.id) }

def liveMark (process : Process) (s : LiveSystem) : LiveSystem :=
  match markCollectionStarted process.runId s.clock s.store with
  | .error _ => s
  | .ok (store, _) => { s with store := store, process := some { process with collecting := true } }

def liveFinish (status : RunStatus) (failureDetail : Option FailureDetail) (process : Process)
    (s : LiveSystem) : LiveSystem :=
  { s with
    store := lifeStep s.store (.finish ⟨process.runId, s.clock, status, failureDetail, none⟩)
    process := none }

/-- Every call reads the clock; a crash leaves the run as it is stored. -/
def liveStep (s : LiveSystem) : LiveAction → LiveSystem
  | .tick elapsed => { s with clock := s.clock + elapsed }
  | .createEpoch request =>
    { s with store := lifeStep s.store (.createEpoch { request with now := s.clock }) }
  | .closeEpoch request =>
    { s with store := lifeStep s.store (.closeEpoch { request with now := s.clock }) }
  | .start request => if s.process.isSome then s else liveStart request s
  | .markCollectionStarted => (s.process.map fun process => liveMark process s).getD s
  | .heartbeat =>
    match s.process with
    | some ⟨runId, true⟩ => { s with store := heartbeat runId s.clock s.store }
    | _ => s
  | .finish status failureDetail =>
    (s.process.map fun process => liveFinish status failureDetail process s).getD s
  | .crash => { s with process := none }

/-! ### The law -/

/-- A crashed run and the run that recovered it, as stored. -/
structure Restart (s : LiveSystem) (crashed next : CollectorRun) : Prop where
  pair : (crashed.id, next.id) ∈ s.restarts
  crashed : crashed ∈ s.store.runs.rows
  next : next ∈ s.store.runs.rows

/-- The times of a stored run are in order, and not in the future. -/
structure RunTimes (clock : Int) (run : CollectorRun) : Prop where
  started : run.startedAt ≤ clock
  known : ∀ known ∈ run.collectionStartedAt, run.startedAt ≤ known ∧ known ≤ clock
  beat : ∀ beat ∈ run.lastHeartbeatAt, beat ≤ clock ∧
    ∃ known ∈ run.collectionStartedAt, known ≤ beat
  finished : ∀ finished ∈ run.finishedAt, run.startedAt ≤ finished ∧ finished ≤ clock ∧
    (∀ known ∈ run.collectionStartedAt, known ≤ finished)
  running : run.finishedAt = none ↔ run.status = .running

theorem RunTimes.later {clock clock' : Int} {run : CollectorRun} (h : RunTimes clock run)
    (hle : clock ≤ clock') : RunTimes clock' run where
  started := h.started.trans hle
  known known hknown := ⟨(h.known known hknown).1, (h.known known hknown).2.trans hle⟩
  beat beat hbeat := ⟨(h.beat beat hbeat).1.trans hle, (h.beat beat hbeat).2⟩
  finished finished hfinished :=
    ⟨(h.finished finished hfinished).1, (h.finished finished hfinished).2.1.trans hle,
      (h.finished finished hfinished).2.2⟩
  running := h.running

/-- One run is over when the other starts. -/
def Before (a b : CollectorRun) : Prop := ∃ finished ∈ a.finishedAt, finished ≤ b.startedAt

structure Timed (s : LiveSystem) : Prop where
  invariant : Invariant s.store
  times : ∀ run ∈ s.store.runs.rows, RunTimes s.clock run
  order : ∀ a ∈ s.store.runs.rows, ∀ b ∈ s.store.runs.rows, a.id ≠ b.id → Before a b ∨ Before b a
  live : ∀ process ∈ s.process, ∃ run ∈ s.store.runs.rows, run.id = process.runId ∧
    run.status = .running ∧ (process.collecting = true → run.collectionStartedAt.isSome)
  restarts : ∀ pair ∈ s.restarts, ∃ crashed next, crashed.id = pair.1 ∧ next.id = pair.2 ∧
    Restart s crashed next ∧ crashed.finishedAt = some next.startedAt

section Law
variable {period : Nat} {s : LiveSystem}

theorem Timed.restart (h : Timed s) {crashed next : CollectorRun}
    (hrestart : Restart s crashed next) : crashed.finishedAt = some next.startedAt := by
  obtain ⟨crashed', next', hid, hid', hrestart', hfinished⟩ := h.restarts _ hrestart.pair
  have hcrashed := s.store.runs.eq_of_key_eq hrestart'.crashed hrestart.crashed hid
  have hnext := s.store.runs.eq_of_key_eq hrestart'.next hrestart.next hid'
  rw [← hcrashed, ← hnext, hfinished]

/-- A known boundary follows a restart in time only. -/
def RestartsInTime (period : Nat) (s : LiveSystem) : Prop :=
  ∀ crashed next, Restart s crashed next → next.collectionStartedAt.isSome →
    ∀ beat ∈ crashed.lastHeartbeatAt, next.startedAt ≤ beat + period + 1

end Law

/-! ### What a step keeps of a row -/

/-- A row keeps its identity, its start and its end. -/
structure RowKept (old row : CollectorRun) : Prop where
  id : row.id = old.id
  startedAt : row.startedAt = old.startedAt
  finishedAt : ∀ finished ∈ old.finishedAt, finished ∈ row.finishedAt

theorem Before.kept {a b a' b' : CollectorRun} (h : Before a b) (ha : RowKept a a')
    (hb : RowKept b b') : Before a' b' := by
  obtain ⟨finished, hfinished, hle⟩ := h
  exact ⟨finished, ha.finishedAt finished hfinished, hb.startedAt ▸ hle⟩

/-- A row behind a write of `run'` over `run`. -/
def Rewritten (run run' old row : CollectorRun) : Prop :=
  (old = run ∧ row = run') ∨ (old.id ≠ run.id ∧ row = old)

theorem rewritten_rows {runs : Table CollectorRun.id} {run : CollectorRun} (run' : CollectorRun)
    (hrun : run ∈ runs.rows) (hid : run'.id = run.id) :
    Table.Related (fun old row => old ∈ runs.rows ∧ Rewritten run run' old row) runs
      (runs.write [run']) := by
  unfold Table.Related
  rw [Table.rows_write, List.forall₂_map_right_iff]
  refine List.forall₂_same.mpr fun old hold => ⟨(Table.key_written _ old).symm, hold, ?_⟩
  by_cases hkey : old.id = run.id
  · have hsame := runs.eq_of_key_eq hold hrun hkey
    subst hsame
    exact .inl ⟨rfl, Table.written_of_mem (by simp) (List.mem_singleton_self _) hid⟩
  · have hne : run'.id ≠ old.id := fun heq => hkey (heq.symm.trans hid)
    exact .inr ⟨hkey, by simp [Table.written, hne]⟩

/-- A row behind recovery: ended at an instant, or left alone. -/
def Recovered (startedAt : Int) (old row : CollectorRun) : Prop :=
  (old.status = .running ∧ row = finishedRun (abandonedFinish startedAt old) old) ∨
    (old.status ≠ .running ∧ row = old)

theorem Recovered.kept {startedAt clock : Int} {old row : CollectorRun}
    (h : Recovered startedAt old row) (htimes : RunTimes clock old) : RowKept old row := by
  cases h with
  | inl hended =>
    rw [hended.2]
    refine ⟨rfl, rfl, fun finished hfinished => ?_⟩
    rw [htimes.running.mpr hended.1] at hfinished
    cases hfinished
  | inr hsame =>
    rw [hsame.2]
    exact ⟨rfl, rfl, fun _ h => h⟩

theorem Recovered.startedAt {startedAt : Int} {old row : CollectorRun}
    (h : Recovered startedAt old row) : row.startedAt = old.startedAt := by
  cases h with
  | inl hended => exact hended.2 ▸ rfl
  | inr hsame => exact hsame.2 ▸ rfl

theorem Recovered.boundary {startedAt : Int} {old row : CollectorRun}
    (h : Recovered startedAt old row) : row.collectionStartedAt = old.collectionStartedAt := by
  cases h with
  | inl hended => exact hended.2 ▸ rfl
  | inr hsame => exact hsame.2 ▸ rfl

theorem Recovered.beats {startedAt : Int} {old row : CollectorRun}
    (h : Recovered startedAt old row) : row.lastHeartbeatAt = old.lastHeartbeatAt := by
  cases h with
  | inl hended => exact hended.2 ▸ rfl
  | inr hsame => exact hsame.2 ▸ rfl

theorem Recovered.times {clock : Int} {old row : CollectorRun}
    (h : Recovered clock old row) (htimes : RunTimes clock old) : RunTimes clock row := by
  cases h with
  | inl hended =>
    rw [hended.2]
    refine ⟨htimes.started, htimes.known, htimes.beat, ?_, ?_⟩
    · intro finished hfinished
      cases hfinished
      exact ⟨htimes.started, le_rfl, fun known hknown => (htimes.known known hknown).2⟩
    · exact ⟨fun hnone => (by cases hnone), fun hrunning => (by cases hrunning)⟩
  | inr hsame =>
    rw [hsame.2]
    exact htimes

theorem Recovered.finished {clock : Int} {old row : CollectorRun}
    (h : Recovered clock old row) (htimes : RunTimes clock old) :
    ∃ finished ∈ row.finishedAt, finished ≤ clock := by
  cases h with
  | inl hended =>
    rw [hended.2]
    exact ⟨clock, rfl, le_rfl⟩
  | inr hsame =>
    rw [hsame.2]
    cases hfinished : old.finishedAt with
    | none => exact absurd (htimes.running.mp hfinished) hsame.1
    | some finished => exact ⟨finished, rfl, (htimes.finished finished hfinished).2.1⟩

section Start
variable {store store' : CollectionStore}

/-- At most one run is running, so recovery ends one row at most. -/
theorem recoverAll_rows (h : Invariant store) {startedAt : Int}
    (hfold : (store.runs.rows.filter (·.status = .running)).foldlM
      (fun s run => finish (abandonedFinish startedAt run) s) store = .ok store') :
    Table.Related (Recovered startedAt) store.runs store'.runs := by
  cases hrunning : store.runs.rows.filter (·.status = .running) with
  | nil =>
    rw [hrunning] at hfold
    cases hfold
    refine List.forall₂_same.mpr fun run hrun => ⟨rfl, .inr ⟨fun hstatus => ?_, rfl⟩⟩
    have hmem : run ∈ store.runs.rows.filter (·.status = .running) :=
      List.mem_filter.mpr ⟨hrun, by simpa using hstatus⟩
    rw [hrunning] at hmem
    cases hmem
  | cons crashed rest =>
    have hmem {run : CollectorRun} (hrun : run ∈ crashed :: rest) :
        run ∈ store.runs.rows ∧ run.status = .running := by
      rw [← hrunning] at hrun
      simpa using hrun
    have hcrashed := hmem List.mem_cons_self
    have hrest : rest = [] := by
      cases rest with
      | nil => rfl
      | cons other more =>
        have hother := hmem (List.mem_cons_of_mem _ List.mem_cons_self)
        have hsame := h.oneRun other hother.1 crashed hcrashed.1 hother.2 hcrashed.2
        have hnodup := store.runs.rows_nodup.filter (·.status = .running)
        rw [hrunning, hsame] at hnodup
        simp at hnodup
    rw [hrunning, hrest] at hfold
    have hfinish : finish (abandonedFinish startedAt crashed) store = .ok store' := by
      simpa [List.foldlM] using hfold
    obtain ⟨found, hcases⟩ := finish_eq_ok hfinish
    have hself : store.runs.find? (abandonedFinish startedAt crashed).runId = some crashed :=
      Table.find?_key hcrashed.1
    cases hcases with
    | inl hended =>
      obtain ⟨_, hfound, hstatus, _⟩ := hended
      cases hself.symm.trans hfound
      exact absurd hcrashed.2 hstatus
    | inr hfinished =>
      cases hself.symm.trans hfinished.found
      rw [hfinished.runs]
      have hrewritten : Table.Related
          (fun old row => old ∈ store.runs.rows ∧ Rewritten crashed _ old row) store.runs _ :=
        rewritten_rows (finishedRun (abandonedFinish startedAt crashed) crashed) hcrashed.1 rfl
      refine hrewritten.mono fun old row hrow => ?_
      cases hrow.2 with
      | inl hended =>
        rw [hended.1, hended.2]
        exact .inl ⟨hcrashed.2, rfl⟩
      | inr hsame =>
        refine .inr ⟨fun hstatus => hsame.1 ?_, hsame.2⟩
        rw [h.oneRun old hrow.1 crashed hcrashed.1 hstatus hcrashed.2]

/-- A start recovers what was running and adds its own run. -/
theorem startCollector_rows (h : Invariant store) {request : CollectorStart} {run : CollectorRun}
    (hstart : startCollector request store = .ok (store', run)) :
    ∃ epoch runs, run = startedRun request epoch ∧
      Table.Related (Recovered request.startedAt) store.runs runs ∧
      runs.find? run.id = none ∧ store'.runs.rows = runs.rows ++ [run] := by
  simp only [startCollector, bind_eq_ok, guard_eq_ok] at hstart
  obtain ⟨⟨started, epoch, startedNow⟩, hstarted, _, recovered, hrecovered, hstart⟩ := hstart
  have hsame : started.runs = store.runs := by
    obtain ⟨current, hcases⟩ := startEpoch_eq_ok hstarted
    cases hcases with
    | inl hattached => rw [hattached.1]
    | inr hadvanced => exact hadvanced.2.2.2.runs
  have hinvariant : Invariant started := h.changes (startEpoch_changes True hstarted).1
  have hrows := recoverAll_rows hinvariant hrecovered
  cases hruns : recovered.runs.insert? (startedRun request epoch) with
  | none =>
    rw [hruns] at hstart
    cases hstart
  | some runs =>
    rw [hruns] at hstart
    cases hstart
    obtain ⟨hunused, hlast⟩ := Table.insert?_eq_some hruns
    exact ⟨epoch, recovered.runs, rfl, hsame ▸ hrows, hunused, hlast⟩

end Start

/-! ### What a step keeps -/

section Kept
variable {s s' : LiveSystem} {R : CollectorRun → CollectorRun → Prop}

/-- The rows of an older restart, behind the same table. -/
theorem Timed.restart_before (h : Timed s) (hrows : ∀ row ∈ s'.store.runs.rows,
      (∃ old ∈ s.store.runs.rows, old.id = row.id ∧ R old row) ∨
        ∀ old ∈ s.store.runs.rows, old.id ≠ row.id)
    {crashed next : CollectorRun} (hrestart : Restart s' crashed next)
    (hold : (crashed.id, next.id) ∈ s.restarts) :
    ∃ crashed' next', Restart s crashed' next' ∧ crashed'.id = crashed.id ∧ next'.id = next.id ∧
      R crashed' crashed ∧ R next' next := by
  obtain ⟨oldCrashed, oldNext, hid, hid', hrestart', _⟩ := h.restarts _ hold
  have hbefore {old row : CollectorRun} (hmem : old ∈ s.store.runs.rows)
      (hrow : row ∈ s'.store.runs.rows) (hsame : old.id = row.id) : R old row := by
    cases hrows row hrow with
    | inl hfound =>
      obtain ⟨found, hfound, hkey, hR⟩ := hfound
      rwa [← s.store.runs.eq_of_key_eq hfound hmem (hkey.trans hsame.symm)]
    | inr hnone => exact absurd hsame (hnone old hmem)
  exact ⟨oldCrashed, oldNext, hrestart', hid, hid',
    hbefore hrestart'.crashed hrestart.crashed hid, hbefore hrestart'.next hrestart.next hid'⟩

theorem Timed.restart_kept (h : Timed s) (hafter : ∀ old ∈ s.store.runs.rows,
      ∃ row ∈ s'.store.runs.rows, RowKept old row)
    (hold : ∀ pair ∈ s.restarts, pair ∈ s'.restarts) :
    ∀ pair ∈ s.restarts, ∃ crashed next, crashed.id = pair.1 ∧ next.id = pair.2 ∧
      Restart s' crashed next ∧ crashed.finishedAt = some next.startedAt := by
  intro pair hpair
  obtain ⟨crashed, next, hid, hid', hrestart, hfinished⟩ := h.restarts pair hpair
  obtain ⟨crashed', hcrashed, hkept⟩ := hafter crashed hrestart.crashed
  obtain ⟨next', hnext, hkept'⟩ := hafter next hrestart.next
  refine ⟨crashed', next', hkept.id.trans hid, hkept'.id.trans hid',
    ⟨?_, hcrashed, hnext⟩, ?_⟩
  · rw [hkept.id, hkept'.id, hid, hid']
    exact hold pair hpair
  · rw [hkept'.startedAt]
    exact hkept.finishedAt _ hfinished

/-- Rows rewritten in place, at the same time. -/
theorem Timed.related (h : Timed s) (hinvariant : Invariant s'.store)
    (hrows : Table.Related (fun old row => RowKept old row ∧ RunTimes s'.clock row)
      s.store.runs s'.store.runs)
    (hrestarts : s'.restarts = s.restarts)
    (hlive : ∀ process ∈ s'.process, ∃ run ∈ s'.store.runs.rows, run.id = process.runId ∧
      run.status = .running ∧ (process.collecting = true → run.collectionStartedAt.isSome)) :
    Timed s' where
  invariant := hinvariant
  times row hrow := by
    obtain ⟨_, _, _, hkept⟩ := hrows.exists_before hrow
    exact hkept.2
  order a ha b hb hne := by
    obtain ⟨olda, hmema, hkeya, hkepta, _⟩ := hrows.exists_before ha
    obtain ⟨oldb, hmemb, hkeyb, hkeptb, _⟩ := hrows.exists_before hb
    have hold : olda.id ≠ oldb.id := fun heq => hne (hkeya.symm.trans (heq.trans hkeyb))
    exact (h.order olda hmema oldb hmemb hold).imp (·.kept hkepta hkeptb) (·.kept hkeptb hkepta)
  live := hlive
  restarts := by
    rw [hrestarts]
    refine h.restart_kept ?_ fun pair hpair => hrestarts ▸ hpair
    intro old hold
    obtain ⟨row, hrow, _, hkept⟩ := hrows.exists_after hold
    exact ⟨row, hrow, hkept.1⟩

/-- One run rewritten. -/
theorem Timed.rewritten (h : Timed s) (hinvariant : Invariant s'.store) {run : CollectorRun}
    (run' : CollectorRun) (hrun : run ∈ s.store.runs.rows) (hkept : RowKept run run') (htimes : RunTimes s.clock run')
    (hruns : s'.store.runs = s.store.runs.write [run']) (hclock : s'.clock = s.clock)
    (hrestarts : s'.restarts = s.restarts)
    (hlive : ∀ process ∈ s'.process, run'.id = process.runId ∧
      run'.status = .running ∧ (process.collecting = true → run'.collectionStartedAt.isSome)) :
    Timed s' := by
  have hrewritten := rewritten_rows run' hrun hkept.id
  rw [← hruns] at hrewritten
  refine h.related hinvariant ?_ hrestarts ?_
  · refine hrewritten.mono fun old row hrow => ?_
    rw [hclock]
    cases hrow.2 with
    | inl hnew =>
      rw [hnew.1, hnew.2]
      exact ⟨hkept, htimes⟩
    | inr hsame =>
      rw [hsame.2]
      exact ⟨⟨rfl, rfl, fun _ hfinished => hfinished⟩, h.times old hrow.1⟩
  · intro process hprocess
    obtain ⟨row, hrow, _, hcases⟩ := hrewritten.exists_after hrun
    cases hcases.2 with
    | inl hnew => exact ⟨run', hnew.2 ▸ hrow, hlive process hprocess⟩
    | inr hother => exact absurd rfl hother.1

/-- The runs are the same. -/
theorem Timed.same (h : Timed s) (hinvariant : Invariant s'.store)
    (hruns : s'.store.runs = s.store.runs) (hclock : s.clock ≤ s'.clock)
    (hrestarts : s'.restarts = s.restarts) (hprocess : ∀ process ∈ s'.process, process ∈ s.process) :
    Timed s' := by
  refine h.related hinvariant ?_ hrestarts ?_
  · rw [hruns]
    exact List.forall₂_same.mpr fun run hrun =>
      ⟨rfl, ⟨rfl, rfl, fun _ hfinished => hfinished⟩, (h.times run hrun).later hclock⟩
  · intro process hmem
    rw [hruns]
    exact h.live process (hprocess process hmem)

end Kept

/-! ### The steps -/

section Steps
variable {s : LiveSystem}

/-- The run of the process is stored once. -/
theorem Timed.find_live (h : Timed s) {process : Process} (hprocess : s.process = some process) :
    ∃ run ∈ s.store.runs.rows, run.id = process.runId ∧ run.status = .running ∧
      run.finishedAt = none ∧ s.store.runs.find? process.runId = some run ∧
      (process.collecting = true → run.collectionStartedAt.isSome) := by
  obtain ⟨run, hrun, hid, hrunning, hcollecting⟩ := h.live process hprocess
  exact ⟨run, hrun, hid, hrunning, (h.times run hrun).running.mpr hrunning,
    Table.find?_eq_some_iff.mpr ⟨hrun, hid⟩, hcollecting⟩

/-- A call goes through, or it is rolled back. -/
theorem lifeStep_cases (store : CollectionStore) (call : LifeCall) :
    lifeStep store call = store ∨ call.execute store = .ok (lifeStep store call) := by
  unfold lifeStep
  cases call.execute store with
  | error e => exact .inl rfl
  | ok store' => exact .inr rfl

theorem lifeStep_createEpoch_runs (request : EpochDeclaration) (store : CollectionStore) :
    (lifeStep store (.createEpoch request)).runs = store.runs := by
  cases lifeStep_cases store (.createEpoch request) with
  | inl hsame => rw [hsame]
  | inr hcreated => exact (createEpoch_eq_ok hcreated).runs

theorem lifeStep_closeEpoch_runs (request : EpochClosing) (store : CollectionStore) :
    (lifeStep store (.closeEpoch request)).runs = store.runs := by
  cases lifeStep_cases store (.closeEpoch request) with
  | inl hsame => rw [hsame]
  | inr hclosed =>
    obtain ⟨_, _, _, _, _, hadvanced⟩ := closeEpoch_eq_ok hclosed
    exact hadvanced.runs

/-- What the first mark of a live run writes; a further mark only confirms the boundary. -/
theorem Timed.liveMark_cases (h : Timed s) {process : Process}
    (hprocess : s.process = some process) :
    ∃ run ∈ s.store.runs.rows, run.id = process.runId ∧ run.status = .running ∧
      (liveMark process s).process = some { process with collecting := true } ∧
      (liveMark process s).clock = s.clock ∧ (liveMark process s).restarts = s.restarts ∧
      ((run.collectionStartedAt.isSome ∧ (liveMark process s).store = s.store) ∨
        (run.collectionStartedAt = none ∧
          RunTouched run (boundedRun run s.clock) s.store (liveMark process s).store)) := by
  obtain ⟨run, hrun, hid, hrunning, _, hfind, _⟩ := h.find_live hprocess
  refine ⟨run, hrun, hid, hrunning, ?_⟩
  have hstarted := (h.times run hrun).started
  cases hboundary : run.collectionStartedAt with
  | some boundary =>
    have hmark : markCollectionStarted process.runId s.clock s.store = .ok (s.store, boundary) := by
      rw [markCollectionStarted, hfind]
      simp only [hboundary]
    rw [liveMark, hmark]
    exact ⟨rfl, rfl, rfl, .inl ⟨rfl, rfl⟩⟩
  | none =>
    have hmark : markCollectionStarted process.runId s.clock s.store =
        .ok ({ s.store with runs := s.store.runs.write [boundedRun run s.clock] }, s.clock) := by
      rw [markCollectionStarted, hfind]
      simp only [hboundary, hrunning]
      rw [if_neg (by simp), if_neg (by omega)]
    rw [liveMark, hmark]
    refine ⟨rfl, rfl, rfl, .inr ⟨rfl, ?_⟩⟩
    exact ⟨hid ▸ hfind, rfl, rfl, rfl, rfl, rfl, by simp [hboundary], rfl, rfl, rfl, rfl, rfl⟩

theorem Timed.mark (h : Timed s) {process : Process} (hprocess : s.process = some process) :
    Timed (liveMark process s) := by
  obtain ⟨run, hrun, hid, hrunning, hprocess', hclock, hrestarts, hcases⟩ :=
    h.liveMark_cases hprocess
  have htimes := h.times run hrun
  cases hcases with
  | inl hsame =>
    obtain ⟨hboundary, hstore⟩ := hsame
    refine h.related (hstore ▸ h.invariant) ?_ hrestarts ?_
    · rw [hstore, hclock]
      exact List.forall₂_same.mpr fun row hrow =>
        ⟨rfl, ⟨rfl, rfl, fun _ hfinished => hfinished⟩, h.times row hrow⟩
    · rw [hprocess', hstore]
      intro other hother
      cases hother
      exact ⟨run, hrun, hid, hrunning, fun _ => hboundary⟩
  | inr htouched =>
    obtain ⟨hboundary, htouched⟩ := htouched
    have hopen := htimes.running.mpr hrunning
    refine h.rewritten (h.invariant.touched htouched) (boundedRun run s.clock) hrun ⟨rfl, rfl, fun _ hf => hf⟩ ?_
      htouched.runs hclock hrestarts ?_
    · refine ⟨htimes.started, ?_, ?_, ?_, htimes.running⟩
      · intro known hknown
        cases hknown
        exact ⟨htimes.started, le_rfl⟩
      · intro beat hbeat
        obtain ⟨_, known, hknown, _⟩ := htimes.beat beat hbeat
        rw [hboundary] at hknown
        cases hknown
      · intro finished hfinished
        have hstored : finished ∈ run.finishedAt := hfinished
        rw [hopen] at hstored
        cases hstored
    · rw [hprocess']
      intro other hother
      cases hother
      exact ⟨hid, hrunning, fun _ => rfl⟩

/-- A beat of a live run behind its boundary. -/
theorem Timed.heartbeat_touched (h : Timed s) {runId : Uuid}
    (hprocess : s.process = some ⟨runId, true⟩) :
    ∃ run ∈ s.store.runs.rows, run.id = runId ∧ run.status = .running ∧
      run.collectionStartedAt.isSome ∧
      RunTouched run { run with lastHeartbeatAt := some s.clock } s.store
        (heartbeat runId s.clock s.store) := by
  obtain ⟨run, hrun, hid, hrunning, _, hfind, hcollecting⟩ := h.find_live hprocess
  refine ⟨run, hrun, hid, hrunning, hcollecting rfl, ?_⟩
  rw [heartbeat, hfind]
  exact ⟨hid ▸ hfind, rfl, rfl, rfl, rfl, rfl, fun _ => rfl, rfl, rfl, rfl, rfl, rfl⟩

theorem Timed.beat (h : Timed s) {runId : Uuid} (hprocess : s.process = some ⟨runId, true⟩) :
    Timed { s with store := heartbeat runId s.clock s.store } := by
  obtain ⟨run, hrun, hid, hrunning, hboundary, htouched⟩ := h.heartbeat_touched hprocess
  have htimes := h.times run hrun
  refine h.rewritten (h.invariant.touched htouched) { run with lastHeartbeatAt := some s.clock }
    hrun ⟨rfl, rfl, fun _ hf => hf⟩ ?_ htouched.runs rfl rfl ?_
  · refine ⟨htimes.started, htimes.known, ?_, htimes.finished, htimes.running⟩
    intro beat hbeat
    cases hbeat
    obtain ⟨known, hknown⟩ := Option.isSome_iff_exists.mp hboundary
    exact ⟨le_rfl, known, hknown, (htimes.known known hknown).2⟩
  · intro other hother
    cases hprocess.symm.trans hother
    exact ⟨hid, hrunning, fun _ => hboundary⟩

/-- The end of the live run, unless the call is refused. -/
theorem liveFinish_cases (status : RunStatus) (failureDetail : Option FailureDetail)
    (process : Process) (s : LiveSystem) :
    (liveFinish status failureDetail process s).store = s.store ∨
      ∃ run, RunFinished ⟨process.runId, s.clock, status, failureDetail, none⟩ run s.store
        (liveFinish status failureDetail process s).store := by
  unfold liveFinish
  cases lifeStep_cases s.store
      (.finish ⟨process.runId, s.clock, status, failureDetail, none⟩) with
  | inl hsame => exact .inl hsame
  | inr hended =>
    obtain ⟨run, hcases⟩ := finish_eq_ok hended
    exact hcases.imp (·.1) fun hfinished => ⟨run, hfinished⟩

theorem RunTimes.ended {clock : Int} {run : CollectorRun} (h : RunTimes clock run)
    {request : RunFinish} (hat : request.finishedAt = clock) (hterminal : request.status ≠ .running) :
    RunTimes clock (finishedRun request run) := by
  refine ⟨h.started, h.known, h.beat, ?_, ?_⟩
  · intro finished hfinished
    cases hfinished
    rw [hat]
    exact ⟨h.started, le_rfl, fun known hknown => (h.known known hknown).2⟩
  · exact ⟨fun hnone => (by cases hnone), fun hrunning => absurd hrunning hterminal⟩

theorem Timed.finish (h : Timed s) (status : RunStatus) (failureDetail : Option FailureDetail)
    (process : Process) : Timed (liveFinish status failureDetail process s) := by
  cases liveFinish_cases status failureDetail process s with
  | inl hsame =>
    exact h.same (hsame ▸ h.invariant) (congrArg _ hsame) le_rfl rfl (fun _ hnone => by cases hnone)
  | inr hfinished =>
    obtain ⟨run, hfinished⟩ := hfinished
    have hrun := (Table.find?_eq_some_iff.mp hfinished.found).1
    have htimes := h.times run hrun
    refine h.rewritten (h.invariant.finished hfinished) (finishedRun _ run) hrun ⟨rfl, rfl, ?_⟩
      (htimes.ended rfl hfinished.terminal) hfinished.runs rfl rfl (fun _ hnone => by cases hnone)
    intro finished hended
    rw [htimes.running.mpr hfinished.running] at hended
    cases hended

/-- A refused start changes nothing; another one recovers what was running and adds its run. -/
structure LiveStarted (request : CollectorStart) (s s' : LiveSystem) (run : CollectorRun)
    (runs : Table CollectorRun.id) : Prop where
  changes : Changes True s.store s'.store
  recovered : Table.Related (Recovered s.clock) s.store.runs runs
  unused : runs.find? run.id = none
  rows : s'.store.runs.rows = runs.rows ++ [run]
  startedAt : run.startedAt = s.clock
  fresh : run.collectionStartedAt = none ∧ run.finishedAt = none ∧ run.lastHeartbeatAt = none ∧
    run.status = .running
  clock : s'.clock = s.clock
  process : s'.process = some ⟨run.id, false⟩
  restarts : s'.restarts = s.restarts ++ (s.store.runs.rows.filter (·.status = .running)).map
    fun crashed => (crashed.id, run.id)

theorem Timed.start_cases (h : Timed s) (request : CollectorStart) :
    liveStep s (.start request) = s ∨
      ∃ run runs, LiveStarted request s (liveStep s (.start request)) run runs := by
  by_cases hprocess : s.process.isSome
  · exact .inl (if_pos hprocess)
  have hstep : liveStep s (.start request) = liveStart request s := if_neg hprocess
  rw [hstep, liveStart]
  cases hstart : startCollector { request with startedAt := s.clock } s.store with
  | error e => exact .inl rfl
  | ok result =>
    obtain ⟨store, run⟩ := result
    obtain ⟨epoch, runs, rfl, hrecovered, hunused, hrows⟩ := startCollector_rows h.invariant hstart
    exact .inr ⟨_, runs, startCollector_changes hstart, hrecovered, hunused, hrows, rfl,
      ⟨rfl, rfl, rfl, rfl⟩, rfl, rfl, rfl⟩

section Started
variable {s' : LiveSystem} {request : CollectorStart} {run : CollectorRun}
  {runs : Table CollectorRun.id}

/-- A row behind a start is the new one or a recovered one. -/
theorem LiveStarted.before (hs : LiveStarted request s s' run runs) {row : CollectorRun}
    (hrow : row ∈ s'.store.runs.rows) :
    (row = run ∧ ∀ old ∈ s.store.runs.rows, old.id ≠ row.id) ∨
      ∃ old ∈ s.store.runs.rows, old.id = row.id ∧ Recovered s.clock old row := by
  rw [hs.rows, List.mem_append, List.mem_singleton] at hrow
  cases hrow with
  | inl hold => exact .inr (hs.recovered.exists_before hold)
  | inr hnew =>
    refine .inl ⟨hnew, fun old hold heq => ?_⟩
    obtain ⟨other, hother, hkey, _⟩ := hs.recovered.exists_after hold
    exact Table.find?_eq_none_iff.mp hs.unused other hother
      (hkey.symm.trans (heq.trans (congrArg _ hnew)))

theorem LiveStarted.after (hs : LiveStarted request s s' run runs) {old : CollectorRun}
    (hold : old ∈ s.store.runs.rows) :
    ∃ row ∈ s'.store.runs.rows, old.id = row.id ∧ Recovered s.clock old row := by
  obtain ⟨row, hrow, hkey, hrecovered⟩ := hs.recovered.exists_after hold
  exact ⟨row, hs.rows ▸ List.mem_append_left _ hrow, hkey, hrecovered⟩

theorem LiveStarted.mem (hs : LiveStarted request s s' run runs) : run ∈ s'.store.runs.rows :=
  hs.rows ▸ List.mem_append_right _ (List.mem_singleton_self run)

theorem LiveStarted.times (hs : LiveStarted request s s' run runs) : RunTimes s'.clock run where
  started := by rw [hs.startedAt, hs.clock]
  known known hknown := by
    rw [hs.fresh.1] at hknown
    cases hknown
  beat beat hbeat := by
    rw [hs.fresh.2.2.1] at hbeat
    cases hbeat
  finished finished hfinished := by
    rw [hs.fresh.2.1] at hfinished
    cases hfinished
  running := ⟨fun _ => hs.fresh.2.2.2, fun _ => hs.fresh.2.1⟩

theorem Timed.started (h : Timed s) (hs : LiveStarted request s s' run runs) : Timed s' := by
  have hend {a : CollectorRun} (ha : a ∈ s'.store.runs.rows) (hne : a.id ≠ run.id) :
      Before a run := by
    cases hs.before ha with
    | inl hnew => exact absurd (congrArg _ hnew.1) hne
    | inr hbefore =>
      obtain ⟨old, hold, _, hrecovered⟩ := hbefore
      obtain ⟨finished, hfinished, hle⟩ := hrecovered.finished (h.times old hold)
      exact ⟨finished, hfinished, hs.startedAt ▸ hle⟩
  refine ⟨h.invariant.changes hs.changes, ?_, ?_, ?_, ?_⟩
  · intro row hrow
    cases hs.before hrow with
    | inl hnew => exact hnew.1 ▸ hs.times
    | inr hbefore =>
      obtain ⟨old, hold, _, hrecovered⟩ := hbefore
      exact hs.clock ▸ hrecovered.times (h.times old hold)
  · intro a ha b hb hne
    cases hs.before ha with
    | inl hnew =>
      rw [hnew.1] at hne ⊢
      exact .inr (hend hb hne.symm)
    | inr hbefore =>
      cases hs.before hb with
      | inl hnew =>
        rw [hnew.1] at hne ⊢
        exact .inl (hend ha hne)
      | inr hbefore' =>
        obtain ⟨olda, holda, hida, hrecovereda⟩ := hbefore
        obtain ⟨oldb, holdb, hidb, hrecoveredb⟩ := hbefore'
        have hkepta := hrecovereda.kept (h.times olda holda)
        have hkeptb := hrecoveredb.kept (h.times oldb holdb)
        have hold : olda.id ≠ oldb.id := fun heq => hne (hida.symm.trans (heq.trans hidb))
        exact (h.order olda holda oldb holdb hold).imp (·.kept hkepta hkeptb) (·.kept hkeptb hkepta)
  · intro process hprocess
    rw [hs.process] at hprocess
    cases hprocess
    exact ⟨run, hs.mem, rfl, hs.fresh.2.2.2, fun hcollecting => by cases hcollecting⟩
  · intro pair hpair
    rw [hs.restarts, List.mem_append] at hpair
    cases hpair with
    | inl hold =>
      refine h.restart_kept ?_ (fun pair hpair => hs.restarts ▸ List.mem_append_left _ hpair)
        pair hold
      intro old hmem
      obtain ⟨row, hrow, _, hrecovered⟩ := hs.after hmem
      exact ⟨row, hrow, hrecovered.kept (h.times old hmem)⟩
    | inr hnew =>
      have hstored : pair ∈ s'.restarts := hs.restarts ▸ List.mem_append_right _ hnew
      obtain ⟨crashed, hcrashed, rfl⟩ := List.mem_map.mp hnew
      obtain ⟨hmem, hrunning⟩ := List.mem_filter.mp hcrashed
      obtain ⟨row, hrow, hid, hrecovered⟩ := hs.after hmem
      refine ⟨row, run, hid.symm, rfl, ⟨hid ▸ hstored, hrow, hs.mem⟩, ?_⟩
      cases hrecovered with
      | inl hended =>
        rw [hended.2, hs.startedAt]
        rfl
      | inr hsame => exact absurd (of_decide_eq_true hrunning) hsame.1

end Started

/-- Every step keeps the times of runs in order. -/
theorem Timed.step (h : Timed s) (action : LiveAction) : Timed (liveStep s action) := by
  have hchanges (call : LifeCall) : Invariant (lifeStep s.store call) :=
    h.invariant.changes (lifeStep_changes s.store call)
  cases action with
  | tick elapsed =>
    exact h.same h.invariant rfl (by simp [liveStep]) rfl fun _ hprocess => hprocess
  | createEpoch request =>
    exact h.same (hchanges _) (lifeStep_createEpoch_runs _ _) le_rfl rfl fun _ hprocess => hprocess
  | closeEpoch request =>
    exact h.same (hchanges _) (lifeStep_closeEpoch_runs _ _) le_rfl rfl fun _ hprocess => hprocess
  | start request =>
    cases h.start_cases request with
    | inl hsame => rwa [hsame]
    | inr hstarted =>
      obtain ⟨run, runs, hstarted⟩ := hstarted
      exact h.started hstarted
  | markCollectionStarted =>
    cases hprocess : s.process with
    | none => simpa [liveStep, hprocess] using h
    | some process => simpa [liveStep, hprocess] using h.mark hprocess
  | heartbeat =>
    cases hprocess : s.process with
    | none => simpa [liveStep, hprocess] using h
    | some process =>
      obtain ⟨runId, collecting⟩ := process
      cases collecting with
      | false => simpa [liveStep, hprocess] using h
      | true => simpa [liveStep, hprocess] using h.beat hprocess
  | finish status failureDetail =>
    cases hprocess : s.process with
    | none => simpa [liveStep, hprocess] using h
    | some process => simpa [liveStep, hprocess] using h.finish status failureDetail process
  | crash => exact h.same h.invariant rfl le_rfl rfl (fun _ hnone => by cases hnone)

end Steps

/-! ### Which steps keep the law -/

section InTime
variable {period : Nat} {s s' : LiveSystem}

theorem RestartsInTime.same (h : RestartsInTime period s) (hruns : s'.store.runs = s.store.runs)
    (hrestarts : s'.restarts = s.restarts) : RestartsInTime period s' := by
  intro crashed next hrestart hknown
  exact h crashed next ⟨hrestarts ▸ hrestart.pair, hruns ▸ hrestart.crashed,
    hruns ▸ hrestart.next⟩ hknown

/-- A running run has crashed in no restart, so a restart shows its rewritten row as the next run
at most. -/
theorem Timed.restart_rewritten (h : Timed s) {run run' : CollectorRun}
    (hrun : run ∈ s.store.runs.rows) (hrunning : run.status = .running) (hid : run'.id = run.id)
    (hruns : s'.store.runs = s.store.runs.write [run']) (hrestarts : s'.restarts = s.restarts)
    {crashed next : CollectorRun} (hrestart : Restart s' crashed next) :
    ∃ next', Restart s crashed next' ∧ next'.id = next.id ∧ Rewritten run run' next' next := by
  have hrewritten := rewritten_rows run' hrun hid
  rw [← hruns] at hrewritten
  have hrows : ∀ row ∈ s'.store.runs.rows,
      (∃ old ∈ s.store.runs.rows, old.id = row.id ∧ Rewritten run run' old row) ∨
        ∀ old ∈ s.store.runs.rows, old.id ≠ row.id := by
    intro row hrow
    obtain ⟨old, hold, hkey, hcases⟩ := hrewritten.exists_before hrow
    exact .inl ⟨old, hold, hkey, hcases.2⟩
  obtain ⟨crashed', next', hrestart', _, hidNext, hcrashed, hnext⟩ :=
    h.restart_before hrows hrestart (hrestarts ▸ hrestart.pair)
  refine ⟨next', ?_, hidNext, hnext⟩
  cases hcrashed with
  | inl hself =>
    have hfinished := h.restart hrestart'
    rw [hself.1, (h.times run hrun).running.mpr hrunning] at hfinished
    cases hfinished
  | inr hsame => exact hsame.2 ▸ hrestart'

theorem RestartsInTime.rewritten (hin : RestartsInTime period s) (h : Timed s)
    {run run' : CollectorRun} (hrun : run ∈ s.store.runs.rows) (hrunning : run.status = .running)
    (hid : run'.id = run.id) (hstart : run'.startedAt = run.startedAt)
    (hboundary : run'.collectionStartedAt = run.collectionStartedAt)
    (hruns : s'.store.runs = s.store.runs.write [run']) (hrestarts : s'.restarts = s.restarts) :
    RestartsInTime period s' := by
  intro crashed next hrestart hknown beat hbeat
  obtain ⟨next', hrestart', _, hnext⟩ := h.restart_rewritten hrun hrunning hid hruns hrestarts hrestart
  cases hnext with
  | inl hself =>
    rw [hself.2, hboundary, ← hself.1] at hknown
    rw [hself.2, hstart, ← hself.1]
    exact hin crashed next' hrestart' hknown beat hbeat
  | inr hsame =>
    rw [hsame.2] at hknown ⊢
    exact hin crashed next' hrestart' hknown beat hbeat

/-- A start adds restarts whose next run has no boundary yet. -/
theorem RestartsInTime.started (hin : RestartsInTime period s) (h : Timed s)
    {request : CollectorStart} {run : CollectorRun} {runs : Table CollectorRun.id}
    (hs : LiveStarted request s s' run runs) : RestartsInTime period s' := by
  intro crashed next hrestart hknown beat hbeat
  have hpair := hrestart.pair
  rw [hs.restarts, List.mem_append] at hpair
  cases hpair with
  | inl hold =>
    have hrows : ∀ row ∈ s'.store.runs.rows,
        (∃ old ∈ s.store.runs.rows, old.id = row.id ∧ Recovered s.clock old row) ∨
          ∀ old ∈ s.store.runs.rows, old.id ≠ row.id :=
      fun row hrow => (hs.before hrow).symm.imp_right And.right
    obtain ⟨crashed', next', hrestart', _, _, hcrashed, hnext⟩ := h.restart_before hrows hrestart hold
    rw [hnext.startedAt]
    exact hin crashed' next' hrestart' (hnext.boundary ▸ hknown) beat (hcrashed.beats ▸ hbeat)
  | inr hnew =>
    obtain ⟨_, _, heq⟩ := List.mem_map.mp hnew
    have hnext : next = run := by
      refine s'.store.runs.eq_of_key_eq hrestart.next hs.mem ?_
      exact (congrArg Prod.snd heq).symm
    rw [hnext, hs.fresh.1] at hknown
    cases hknown

end InTime

end PumpResearch.Collection
