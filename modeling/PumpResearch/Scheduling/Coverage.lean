import PumpResearch.Library.KeyedOrder
import PumpResearch.Scheduling.Store

/-! Coverage of stored schedules: the evidence of a change, the refresh of one schedule, the
advance over all elapsed boundaries, and the capacity decision that a transaction records. -/
namespace PumpResearch.Scheduling
open KeyedOrder KeyedTable Results

/-! ### The scheduler -/

/-- The document whose digest identifies a coverage decision. -/
structure CoverageDecisionIdentity where
  tokenId : Uuid
  previousCoverageClass : Option CoverageClass
  newCoverageClass : CoverageClass
  decidedAt : Int
  coverageEffectiveAt : Int
  reasonCode : String
deriving DecidableEq

/-- The digests of the scheduler's documents, under its policy, and what is read off them. -/
structure SchedulerDigests where
  policySha256 : String
  coverageSha256 : String
  capacityKey : Int → CapacityPlan → String
  coverageDecisionKey : CoverageDecisionIdentity → String
  scheduleDecisionKey : Uuid → LifecycleState → Int → String → String
  epochRebaseKey : Uuid → Uuid → String
  /-- The first eight bytes of a digest of epoch and token. -/
  epochPhase : Uuid → Uuid → Nat
  coveragePhase : CoverageClass → Uuid → Nat
  uuid5 : String → Uuid
  uuidString : Uuid → String

/-- A scheduler: its policy, its digests, and the arithmetic of the interpreter that is not
exact. -/
structure AdaptiveScheduler where
  policy : AdaptivePollingPolicy
  digests : SchedulerDigests
  /-- `int(difference.total_seconds() * 1_000)`. -/
  wholeMilliseconds : Int → Int
  /-- Division of decimals. -/
  divide : ℚ → ℚ → ℚ

/-- `_time_bucket`. -/
def timeBucket (value duration : Int) : Int :=
  let epoch := value.tdiv 1000000
  seconds (epoch - epoch % duration.tdiv 1000000)

/-- `_earliest_timestamp`. -/
def earliest : Option Int → Option Int → Option Int
  | some a, some b => some (min a b)
  | some a, none => some a
  | none, b => b

/-- The override that is live at an instant. -/
def liveOverlay (now : Int) (schedule : PollSchedule) : Option CandidateCoverage :=
  schedule.candidateCoverage.filter fun overlay => now < overlay.expiresAt

theorem liveOverlay_eq_some {now : Int} {schedule : PollSchedule} {overlay : CandidateCoverage} :
    liveOverlay now schedule = some overlay ↔
      schedule.candidateCoverage = some overlay ∧ now < overlay.expiresAt := by
  simp [liveOverlay, Option.filter_eq_some_iff]

/-- An interval under an override. -/
def limited (overlay : Option CandidateCoverage) (interval : Nat) : Nat :=
  overlay.elim interval fun live => min interval live.intervalSeconds

/-- The precedence of a class under an override. -/
def raisedPriority (overlay : Option CandidateCoverage) (coverage : CoverageClass) : Nat :=
  if overlay.isSome then min (priorityForCoverage coverage) 1 else priorityForCoverage coverage

/-! ### Evidence of a coverage change -/

/-- The arguments of `_record_coverage_decision`. -/
structure CoverageChange where
  collectionEpochId : Option Uuid
  collectorRunId : Option Uuid
  schedule : PollSchedule
  previousCoverageClass : Option CoverageClass
  decidedAt : Int
  coverageEffectiveAt : Int
  reasonCode : String
  capacityDecisionId : Option Uuid
  targetIntervalSeconds : Option Nat
  effectiveIntervalSeconds : Option Nat
  nextDueAt : Option Int
  context : DecisionContext

/-- The epoch of a change: the caller's, or that of the collector run. -/
def epochOfChange (change : CoverageChange) (store : SchedulerStore) :
    Except SchedulingError (Option Uuid) :=
  match change.collectionEpochId, change.collectorRunId with
  | some epochId, _ => .ok (some epochId)
  | none, none => .ok none
  | none, some runId =>
    match store.collectorRuns.find? runId with
    | some row => .ok (some row.collectionEpochId)
    | none => .error (.value "coverage decision collector run does not exist")

def coverageDecisionRow (digests : SchedulerDigests) (change : CoverageChange)
    (projection : CoverageProjection) (epochId : Option Uuid) : CoverageDecision :=
  let key := digests.coverageDecisionKey ⟨change.schedule.tokenId, change.previousCoverageClass,
    projection.coverageClass, change.decidedAt, change.coverageEffectiveAt, change.reasonCode⟩
  { id := digests.uuid5 key
    collectionEpochId := epochId
    collectorRunId := change.collectorRunId
    tokenId := change.schedule.tokenId
    idempotencyKey := key
    previousCoverageClass := change.previousCoverageClass
    newCoverageClass := projection.coverageClass
    lifecycleState := change.schedule.lifecycleState
    admittedAt := projection.admittedAt
    decidedAt := change.decidedAt
    coverageEffectiveAt := change.coverageEffectiveAt
    reasonCode := change.reasonCode
    policySha256 := digests.coverageSha256
    capacityDecisionId := change.capacityDecisionId
    targetIntervalSeconds := change.targetIntervalSeconds
    effectiveIntervalSeconds := change.effectiveIntervalSeconds
    nextDueAt := change.nextDueAt
    lifecycleStateDecidedAt := change.schedule.stateDecidedAt
    coverageNextTransitionAt := change.schedule.coverageNextTransitionAt
    context := change.context }

/-- Insert a coverage decision unless its identity is taken; a stored one must say the same,
its capacity decision apart. -/
def persistCoverageDecision (row : CoverageDecision) (table : Table CoverageDecision.id) :
    Except SchedulingError (Table CoverageDecision.id) :=
  let taken : CoverageDecision → Bool := fun stored =>
    stored.id = row.id || stored.idempotencyKey = row.idempotencyKey
  let table' := if table.rows.any taken then table else table.insertNew row
  match table'.rows.find? taken with
  | none => .error (.assertion "coverage decision insert did not resolve")
  | some stored =>
    if { stored with capacityDecisionId := row.capacityDecisionId } = row then .ok table'
    else .error (.integrity "coverage decision identity maps to different semantic content")

/-- `_record_coverage_decision`. -/
def recordCoverageDecision (digests : SchedulerDigests) (change : CoverageChange)
    (store : SchedulerStore) : Except SchedulingError SchedulerStore :=
  match change.schedule.coverage with
  | none => .error (.coverageReconstruction "coverage decision requires a mapped schedule")
  | some projection => do
    let epochId ← epochOfChange change store
    let table ← persistCoverageDecision (coverageDecisionRow digests change projection epochId)
      store.coverageDecisions
    return { store with coverageDecisions := table }

/-- Recording evidence changes the evidence table only. -/
theorem recordCoverageDecision_eq_ok {digests : SchedulerDigests} {change : CoverageChange}
    {store store' : SchedulerStore} (h : recordCoverageDecision digests change store = .ok store') :
    ∃ table, store' = { store with coverageDecisions := table } := by
  unfold recordCoverageDecision at h
  split at h
  · cases h
  · simp only [bind_eq_ok, pure_eq_ok] at h
    obtain ⟨_, _, table, _, rfl⟩ := h
    exact ⟨table, rfl⟩

/-! ### Refreshing one schedule -/

/-- A class boundary may cool future work, but a due obligation stays due. -/
def refreshedDue (scheduler : AdaptiveScheduler) (now : Int) (coverage : CoverageClass)
    (schedule : PollSchedule) : Option Int :=
  match scheduler.policy.intervalForCoverage coverage with
  | none => none
  | some interval =>
    let phase : Int := scheduler.digests.coveragePhase coverage schedule.tokenId %
      (interval * 1000000)
    match schedule.nextDueAt with
    | some due => if due ≤ now then some due else some (now + phase)
    | none => some (now + phase)

def refreshedTarget (scheduler : AdaptiveScheduler) (coverage : CoverageClass)
    (overlay : Option CandidateCoverage) : Option Nat :=
  match overlay with
  | none => scheduler.policy.intervalForCoverage coverage
  | some live => some (min (((scheduler.policy.intervalForCoverage coverage).filter (· ≠ 0)).getD
      live.intervalSeconds) live.intervalSeconds)

/-- The refreshed projection of a schedule, given its class and the class's own boundary. -/
def refreshedRow (scheduler : AdaptiveScheduler) (now : Int) (coverage : CoverageClass)
    (boundary : Option Int) (projection : CoverageProjection) (schedule : PollSchedule) :
    PollSchedule :=
  let overlay := liveOverlay now schedule
  { schedule with
    coverage := some { projection with
      coverageClass := coverage
      decidedAt := now
      policySha256 := scheduler.digests.coverageSha256 }
    coverageNextTransitionAt := earliest boundary (overlay.map (·.expiresAt))
    candidateCoverage := overlay
    priority := raisedPriority overlay coverage
    nextDueAt := refreshedDue scheduler now coverage schedule
    targetIntervalSeconds := refreshedTarget scheduler coverage overlay
    effectiveIntervalSeconds := refreshedTarget scheduler coverage overlay
    configurationSha256 := scheduler.digests.policySha256
    updatedAt := now }

/-- The projection already says what a refresh would say. -/
def Current (scheduler : AdaptiveScheduler) (now : Int) (coverage : CoverageClass)
    (boundary : Option Int) (projection : CoverageProjection) (schedule : PollSchedule) : Prop :=
  projection.coverageClass = coverage ∧
    projection.policySha256 = scheduler.digests.coverageSha256 ∧
    (∀ overlay ∈ schedule.candidateCoverage, ¬ overlay.expiresAt ≤ now) ∧
    schedule.coverageNextTransitionAt =
      earliest boundary ((liveOverlay now schedule).map (·.expiresAt))

instance decidableCurrent (scheduler : AdaptiveScheduler) (now : Int) (coverage : CoverageClass)
    (boundary : Option Int) (projection : CoverageProjection) (schedule : PollSchedule) :
    Decidable (Current scheduler now coverage boundary projection schedule) :=
  inferInstanceAs (Decidable (_ ∧ _ ∧ (∀ overlay ∈ schedule.candidateCoverage, _) ∧ _))

/-- `_refresh_one_coverage`. -/
def refreshOneCoverage (scheduler : AdaptiveScheduler) (now : Int) (reasonCode : String)
    (collectorRunId : Option Uuid) (schedule : PollSchedule) (store : SchedulerStore) :
    Except SchedulingError SchedulerStore :=
  match schedule.coverage with
  | none =>
    .error (.coverageReconstruction "legacy coverage must be reconstructed at epoch start")
  | some projection => do
    let coverage ← scheduler.policy.coverageClassFor schedule.lifecycleState projection.admittedAt
      schedule.stateDecidedAt now
    let boundary ← scheduler.policy.nextTransitionAt schedule.lifecycleState
      projection.admittedAt schedule.stateDecidedAt now
    if Current scheduler now coverage boundary projection schedule then return store
    else
      let row := refreshedRow scheduler now coverage boundary projection schedule
      recordCoverageDecision scheduler.digests
        { collectionEpochId := none
          collectorRunId := collectorRunId
          schedule := row
          previousCoverageClass := some projection.coverageClass
          decidedAt := now
          coverageEffectiveAt := schedule.coverageNextTransitionAt.getD now
          reasonCode := reasonCode
          capacityDecisionId := none
          targetIntervalSeconds := row.targetIntervalSeconds
          effectiveIntervalSeconds := row.targetIntervalSeconds
          nextDueAt := row.nextDueAt
          context := .none }
        { store with schedules := store.schedules.write [row] }

/-- The two results of refreshing a schedule: as it was, or with a new projection. -/
inductive Refreshed (scheduler : AdaptiveScheduler) (now : Int) (schedule : PollSchedule) :
    PollSchedule → Prop
  | kept : Refreshed scheduler now schedule schedule
  | renewed (projection : CoverageProjection) (coverage : CoverageClass) (boundary : Option Int)
      (mapped : schedule.coverage = some projection)
      (classified : scheduler.policy.coverageClassFor schedule.lifecycleState
        projection.admittedAt schedule.stateDecidedAt now = .ok coverage)
      (bounded : scheduler.policy.nextTransitionAt schedule.lifecycleState
        projection.admittedAt schedule.stateDecidedAt now = .ok boundary) :
      Refreshed scheduler now schedule
        (refreshedRow scheduler now coverage boundary projection schedule)

/-- A refresh writes one refreshed row and evidence, and nothing else. -/
theorem refreshOneCoverage_eq_ok {scheduler : AdaptiveScheduler} {now : Int} {reasonCode : String}
    {collectorRunId : Option Uuid} {schedule : PollSchedule} {store store' : SchedulerStore}
    (h : refreshOneCoverage scheduler now reasonCode collectorRunId schedule store = .ok store') :
    ∃ rows evidence, (∀ row ∈ rows, Refreshed scheduler now schedule row) ∧
      (∀ row ∈ rows, row.tokenId = schedule.tokenId) ∧
      store' = { store with
        schedules := store.schedules.write rows
        coverageDecisions := evidence } := by
  unfold refreshOneCoverage at h
  cases hm : schedule.coverage with
  | none =>
    rw [hm] at h
    cases h
  | some projection =>
    rw [hm] at h
    simp only [bind_eq_ok] at h
    obtain ⟨coverage, hcoverage, boundary, hboundary, h⟩ := h
    by_cases hcurrent : Current scheduler now coverage boundary projection schedule
    · rw [if_pos hcurrent, pure_eq_ok] at h
      subst h
      exact ⟨[], store.coverageDecisions, by simp, by simp, by rw [Table.write_nil]⟩
    · rw [if_neg hcurrent] at h
      obtain ⟨table, rfl⟩ := recordCoverageDecision_eq_ok h
      refine ⟨[refreshedRow scheduler now coverage boundary projection schedule], table, ?_, ?_,
        rfl⟩
      · intro row hrow
        rw [List.mem_singleton] at hrow
        subst hrow
        exact .renewed projection coverage boundary hm hcoverage hboundary
      · intro row hrow
        rw [List.mem_singleton] at hrow
        subst hrow
        rfl

/-! ### Advancing elapsed boundaries -/

/-- The stored boundary of a schedule has passed. -/
def TransitionDue (now : Int) (schedule : PollSchedule) : Prop :=
  ∃ t ∈ schedule.coverageNextTransitionAt, t ≤ now

instance decidableTransitionDue (now : Int) : DecidablePred (TransitionDue now) :=
  fun schedule => inferInstanceAs (Decidable (∃ t ∈ schedule.coverageNextTransitionAt, t ≤ now))

def transitionOrder (schedule : PollSchedule) : Int ×ₗ Nat :=
  toLex (schedule.coverageNextTransitionAt.getD 0, schedule.tokenId)

/-- One page of due schedules; rows locked by other transactions are skipped. -/
def dueTransitions (now : Int) (locked : List Uuid) (table : ScheduleTable) : List PollSchedule :=
  ((sortOn transitionOrder (table.rows.filter fun schedule => TransitionDue now schedule)).filter
    fun schedule => schedule.tokenId ∉ locked).take 1000

/-- The tokens of a page that are still due, in order. -/
def stalledTokens (now : Int) (page : List PollSchedule) (table : ScheduleTable) : List Uuid :=
  sortOn id ((table.rows.filter fun schedule =>
    schedule.tokenId ∈ page.map (·.tokenId) ∧ TransitionDue now schedule).map (·.tokenId))

/-- Refresh one page; a page that stays due makes no progress. -/
def advancePage (scheduler : AdaptiveScheduler) (now : Int) (collectorRunId : Option Uuid)
    (page : List PollSchedule) (store : SchedulerStore) :
    Except SchedulingError SchedulerStore := do
  let store' ← page.foldlM (fun store schedule =>
    refreshOneCoverage scheduler now "coverage_boundary_elapsed" collectorRunId schedule store)
    store
  let stalled := stalledTokens now page store'.schedules
  if stalled ≠ [] then
    throw (.coverageProgress ("coverage refresh made no progress for due schedules: " ++
      String.intercalate ", " ((stalled.take 10).map scheduler.digests.uuidString)))
  return store'

/-- The loop of `_advance_coverage_transitions`, for a number of pages. -/
def advancePages (scheduler : AdaptiveScheduler) (now : Int) (collectorRunId : Option Uuid)
    (locked : List Uuid) : Nat → SchedulerStore → Except SchedulingError (SchedulerStore × Nat)
  | 0, store => .ok (store, 0)
  | pages + 1, store =>
    match dueTransitions now locked store.schedules with
    | [] => .ok (store, 0)
    | schedule :: rest => do
      let store' ← advancePage scheduler now collectorRunId (schedule :: rest) store
      let (store'', advanced) ← advancePages scheduler now collectorRunId locked pages store'
      return (store'', (schedule :: rest).length + advanced)

/-- `_advance_coverage_transitions`. A page takes at least one schedule off the due ones, so
there are no more pages than schedules. -/
def advanceCoverageTransitions (scheduler : AdaptiveScheduler) (now : Int)
    (collectorRunId : Option Uuid) (locked : List Uuid) (store : SchedulerStore) :
    Except SchedulingError (SchedulerStore × Nat) :=
  advancePages scheduler now collectorRunId locked store.schedules.rows.length store

theorem mem_dueTransitions {now : Int} {locked : List Uuid} {table : ScheduleTable}
    {schedule : PollSchedule} (h : schedule ∈ dueTransitions now locked table) :
    schedule ∈ table.rows ∧ TransitionDue now schedule ∧ schedule.tokenId ∉ locked := by
  have hfilter := List.mem_filter.mp (List.mem_of_mem_take h)
  have hsort := List.mem_filter.mp ((mem_sortOn _ _ _).mp hfilter.1)
  exact ⟨hsort.1, of_decide_eq_true hsort.2, of_decide_eq_true hfilter.2⟩

theorem dueTransitions_eq_nil {now : Int} {locked : List Uuid} {table : ScheduleTable}
    (h : dueTransitions now locked table = []) :
    ∀ schedule ∈ table.rows, schedule.tokenId ∉ locked → ¬ TransitionDue now schedule := by
  intro schedule hmem hlocked hdue
  rw [dueTransitions, List.take_eq_nil_iff] at h
  cases h with
  | inl h => cases h
  | inr h =>
    have hfilter := List.filter_eq_nil_iff.mp h schedule
      ((mem_sortOn _ _ _).mpr (List.mem_filter.mpr ⟨hmem, decide_eq_true hdue⟩))
    exact hfilter (decide_eq_true hlocked)

/-- A page writes refreshed rows of its own schedules and evidence; none of them stays due. -/
theorem advancePage_eq_ok {scheduler : AdaptiveScheduler} {now : Int}
    {collectorRunId : Option Uuid} {page : List PollSchedule} {store store' : SchedulerStore}
    (h : advancePage scheduler now collectorRunId page store = .ok store') :
    (∃ rows evidence,
      (∀ row ∈ rows, ∃ old ∈ page, Refreshed scheduler now old row ∧ row.tokenId = old.tokenId) ∧
      store' = { store with
        schedules := store.schedules.write rows
        coverageDecisions := evidence }) ∧
    ∀ schedule ∈ store'.schedules.rows, schedule.tokenId ∈ page.map (·.tokenId) →
      ¬ TransitionDue now schedule := by
  simp only [advancePage, bind_eq_ok] at h
  obtain ⟨mid, hmid, h⟩ := h
  rw [guard_eq_ok, pure_eq_ok] at h
  obtain ⟨hstalled, rfl⟩ := h
  constructor
  · refine foldlM_invariant (fun done mid => ∃ rows evidence,
      (∀ row ∈ rows, ∃ old ∈ done, Refreshed scheduler now old row ∧ row.tokenId = old.tokenId) ∧
      mid = { store with
        schedules := store.schedules.write rows
        coverageDecisions := evidence }) ?_ hmid
      ⟨[], store.coverageDecisions, by simp, by rw [Table.write_nil]⟩
    intro done schedule s s' hs hstep
    obtain ⟨rows, evidence, hrows, rfl⟩ := hs
    obtain ⟨new, evidence', hnew, htoken, rfl⟩ := refreshOneCoverage_eq_ok hstep
    refine ⟨new ++ rows, evidence', ?_, by rw [Table.write_write]⟩
    intro row hrow
    cases List.mem_append.mp hrow with
    | inl hr => exact ⟨schedule, by simp, hnew row hr, htoken row hr⟩
    | inr hr =>
      obtain ⟨old, hold, hrest⟩ := hrows row hr
      exact ⟨old, List.mem_append_left _ hold, hrest⟩
  · intro schedule hmem hpage hdue
    apply hstalled
    intro hnil
    have hstays : schedule.tokenId ∈ stalledTokens now page mid.schedules := by
      rw [stalledTokens, mem_sortOn]
      exact List.mem_map_of_mem (List.mem_filter.mpr ⟨hmem, decide_eq_true ⟨hpage, hdue⟩⟩)
    rw [hnil] at hstays
    cases hstays

/-- What the advance leaves of the store: refreshed schedules and new evidence. -/
structure AdvancedStore (scheduler : AdaptiveScheduler) (now : Int)
    (store store' : SchedulerStore) : Prop where
  refreshed : Table.Related (Relation.ReflTransGen (Refreshed scheduler now)) store.schedules
    store'.schedules
  frame : store' = { store with
    schedules := store'.schedules
    coverageDecisions := store'.coverageDecisions }

theorem AdvancedStore.refl (scheduler : AdaptiveScheduler) (now : Int) (store : SchedulerStore) :
    AdvancedStore scheduler now store store :=
  ⟨Table.Related.refl (fun _ => .refl) _, rfl⟩

theorem AdvancedStore.trans {scheduler : AdaptiveScheduler} {now : Int}
    {store mid store' : SchedulerStore} (h : AdvancedStore scheduler now store mid)
    (h' : AdvancedStore scheduler now mid store') : AdvancedStore scheduler now store store' where
  refreshed := h.refreshed.trans (fun _ _ _ => .trans) h'.refreshed
  frame := by
    rw [h'.frame, h.frame]

theorem advancePage_store {scheduler : AdaptiveScheduler} {now : Int}
    {collectorRunId : Option Uuid} {page : List PollSchedule} {store store' : SchedulerStore}
    (hpage : ∀ schedule ∈ page, schedule ∈ store.schedules.rows)
    (h : advancePage scheduler now collectorRunId page store = .ok store') :
    AdvancedStore scheduler now store store' := by
  obtain ⟨⟨rows, evidence, hrows, rfl⟩, _⟩ := advancePage_eq_ok h
  refine ⟨Table.related_write (fun _ _ => .refl) ?_, rfl⟩
  intro row hrow b hb hkey
  obtain ⟨old, hold, href, htoken⟩ := hrows row hrow
  have hbold : b = old := store.schedules.eq_of_key_eq hb (hpage old hold) (hkey.trans htoken)
  exact .single (hbold ▸ href)

theorem advancePages_store {scheduler : AdaptiveScheduler} {now : Int}
    {collectorRunId : Option Uuid} {locked : List Uuid} {pages advanced : Nat}
    {store store' : SchedulerStore}
    (h : advancePages scheduler now collectorRunId locked pages store = .ok (store', advanced)) :
    AdvancedStore scheduler now store store' := by
  induction pages generalizing store advanced with
  | zero =>
    cases h
    exact .refl scheduler now _
  | succ pages ih =>
    unfold advancePages at h
    split at h
    · cases h
      exact .refl scheduler now _
    · next schedule rest hpage =>
      simp only [bind_eq_ok, pure_eq_ok] at h
      obtain ⟨mid, hmid, result, hrest, hresult⟩ := h
      cases hresult
      have hmem : ∀ s ∈ schedule :: rest, s ∈ store.schedules.rows :=
        fun s hs => (mem_dueTransitions (hpage ▸ hs)).1
      exact (advancePage_store hmem hmid).trans (ih hrest)

/-- Due schedules that a transaction may lock. -/
def dueCount (now : Int) (locked : List Uuid) (table : ScheduleTable) : Nat :=
  table.rows.countP fun schedule => TransitionDue now schedule ∧ schedule.tokenId ∉ locked

theorem dueCount_advancePage_lt {scheduler : AdaptiveScheduler} {now : Int}
    {collectorRunId : Option Uuid} {locked : List Uuid} {schedule : PollSchedule}
    {rest : List PollSchedule} {store store' : SchedulerStore}
    (hpage : dueTransitions now locked store.schedules = schedule :: rest)
    (h : advancePage scheduler now collectorRunId (schedule :: rest) store = .ok store') :
    dueCount now locked store'.schedules < dueCount now locked store.schedules := by
  obtain ⟨⟨rows, evidence, hrows, rfl⟩, hdone⟩ := advancePage_eq_ok h
  have hmem : ∀ s ∈ schedule :: rest,
      s ∈ store.schedules.rows ∧ TransitionDue now s ∧ s.tokenId ∉ locked :=
    fun s hs => mem_dueTransitions (hpage ▸ hs)
  -- rows that the page did not write are unchanged; the written ones are no longer due
  have hrel : Table.Related (fun a b => b.tokenId ∉ (schedule :: rest).map (·.tokenId) → a = b)
      store.schedules (store.schedules.write rows) := by
    refine Table.related_write (fun _ _ _ => rfl) ?_
    intro row hrow b _ _ hnot
    obtain ⟨old, hold, _, htoken⟩ := hrows row hrow
    exact absurd (List.mem_map.mpr ⟨old, hold, htoken.symm⟩) hnot
  have hhead := hmem schedule List.mem_cons_self
  obtain ⟨after, hafter, hkey, _⟩ := hrel.exists_after hhead.1
  have hafterPage : after.tokenId ∈ (schedule :: rest).map (·.tokenId) := by
    rw [← hkey]
    exact List.mem_map_of_mem List.mem_cons_self
  have hsplit : ∀ b ∈ (store.schedules.write rows).rows,
      TransitionDue now b → b.tokenId ∉ (schedule :: rest).map (·.tokenId) :=
    fun b hb hdue hin => hdone b hb hin hdue
  refine hrel.countP_lt (fun a b hb hR hp => ?_) hafter ?_ ?_
  · rw [decide_eq_true_eq] at hp ⊢
    rw [hR (hsplit b hb hp.1)]
    exact hp
  · rw [decide_eq_false_iff_not]
    exact fun hp => hdone after hafter hafterPage hp.1
  · intro a ha hk
    have heq : a = schedule := store.schedules.eq_of_key_eq ha hhead.1 (hk.trans hkey.symm)
    rw [heq, decide_eq_true_eq]
    exact hhead.2

theorem advancePages_done {scheduler : AdaptiveScheduler} {now : Int}
    {collectorRunId : Option Uuid} {locked : List Uuid} {pages advanced : Nat}
    {store store' : SchedulerStore} (hpages : dueCount now locked store.schedules ≤ pages)
    (h : advancePages scheduler now collectorRunId locked pages store = .ok (store', advanced)) :
    ∀ schedule ∈ store'.schedules.rows, schedule.tokenId ∉ locked →
      ¬ TransitionDue now schedule := by
  induction pages generalizing store advanced with
  | zero =>
    cases h
    intro schedule hmem hlocked hdue
    have hzero := Nat.le_zero.mp hpages
    have hnone := List.countP_eq_zero.mp hzero schedule hmem
    exact hnone (decide_eq_true ⟨hdue, hlocked⟩)
  | succ pages ih =>
    unfold advancePages at h
    split at h
    · next hpage =>
      cases h
      exact dueTransitions_eq_nil hpage
    · next schedule rest hpage =>
      simp only [bind_eq_ok, pure_eq_ok] at h
      obtain ⟨mid, hmid, result, hrest, hresult⟩ := h
      cases hresult
      have hlt := dueCount_advancePage_lt hpage hmid
      exact ih (by omega) hrest

/-- After the advance no schedule that could be locked has an elapsed boundary. -/
theorem advanceCoverageTransitions_done {scheduler : AdaptiveScheduler} {now : Int}
    {collectorRunId : Option Uuid} {locked : List Uuid} {advanced : Nat}
    {store store' : SchedulerStore}
    (h : advanceCoverageTransitions scheduler now collectorRunId locked store =
      .ok (store', advanced)) :
    ∀ schedule ∈ store'.schedules.rows, schedule.tokenId ∉ locked →
      ¬ TransitionDue now schedule :=
  advancePages_done List.countP_le_length h

/-! ### Capacity decisions -/

/-- A capacity plan that a scheduler process remembers for a time bucket. -/
structure CachedCapacity (policy : AdaptivePollingPolicy) where
  bucket : Int
  plan : CapacityPlan
  planned : ∃ counts, planCapacity policy counts = .ok plan

/-- `_CapacityDecision`. -/
structure CapacityDecision where
  id : Uuid
  decidedAt : Int
  plan : CapacityPlan

def capacityCounts (table : ScheduleTable) : Except SchedulingError (CoverageClass → Int) :=
  let unmapped := table.rows.countP fun schedule => schedule.coverage.isNone
  if unmapped ≠ 0 then
    .error (.coverageReconstruction
      (toString unmapped ++ " legacy schedules require epoch-start coverage reconstruction"))
  else .ok fun tier => table.rows.countP fun schedule => schedule.coverageClass = some tier

def freshPlan (policy : AdaptivePollingPolicy) (table : ScheduleTable) :
    Except SchedulingError CapacityPlan := do
  let counts ← capacityCounts table
  planCapacity policy counts

/-- The plan of a bucket: the remembered one, or one for the stored population. -/
def planFor (policy : AdaptivePollingPolicy) (bucket : Int)
    (cached : Option (CachedCapacity policy)) (table : ScheduleTable) :
    Except SchedulingError CapacityPlan :=
  match cached with
  | some remembered =>
    if remembered.bucket = bucket then .ok remembered.plan else freshPlan policy table
  | none => freshPlan policy table

def capacityDecisionRow (digests : SchedulerDigests) (decision : CapacityDecision) :
    SchedulerCapacityDecision where
  id := decision.id
  idempotencyKey := digests.capacityKey decision.decidedAt decision.plan
  decidedAt := decision.decidedAt
  capacityMode := decision.plan.mode
  policySha256 := digests.policySha256
  plan := decision.plan

/-- The columns of a stored decision that differ from the expected ones, by name. -/
def mismatchedFields (expected actual : SchedulerCapacityDecision) : List String :=
  ([("capacity_mode", decide (expected.capacityMode = actual.capacityMode)),
    ("decided_at", decide (expected.decidedAt = actual.decidedAt)),
    ("decision_snapshot", decide (expected.plan = actual.plan)),
    ("id", decide (expected.id = actual.id)),
    ("idempotency_key", decide (expected.idempotencyKey = actual.idempotencyKey)),
    ("policy_sha256", decide (expected.policySha256 = actual.policySha256))].filter
      fun field => !field.2).map (·.1)

/-- The text of `_raise_capacity_integrity_error`. -/
def capacityIntegrityError (digests : SchedulerDigests) (expected : SchedulerCapacityDecision)
    (reason : String) (fields : List String) : SchedulingError :=
  .integrity (reason ++ ": " ++
    (if fields = [] then "identity cardinality" else String.intercalate ", " fields) ++
    "; expected id=" ++ digests.uuidString expected.id ++ " idempotency_key=" ++
    expected.idempotencyKey)

/-- `_persist_capacity_decision`. -/
def persistCapacityDecision (digests : SchedulerDigests) (decision : CapacityDecision)
    (store : SchedulerStore) : Except SchedulingError SchedulerStore :=
  let expected := capacityDecisionRow digests decision
  let taken : SchedulerCapacityDecision → Bool := fun stored =>
    stored.id = expected.id || stored.idempotencyKey = expected.idempotencyKey
  let table := if store.capacityDecisions.rows.any taken then store.capacityDecisions
    else store.capacityDecisions.insertNew expected
  match table.rows.filter taken with
  | [stored] =>
    if mismatchedFields expected stored = [] then .ok { store with capacityDecisions := table }
    else .error (capacityIntegrityError digests expected
      "capacity identity maps to different semantic content" (mismatchedFields expected stored))
  | _ => .error (capacityIntegrityError digests expected
      "capacity identity resolved to an unexpected number of rows" [])

/-- `_capacity_decision`, once in a transaction. -/
def capacityDecision (scheduler : AdaptiveScheduler) (now : Int)
    (cached : Option (CachedCapacity scheduler.policy)) (store : SchedulerStore) :
    Except SchedulingError (SchedulerStore × CapacityDecision) := do
  let bucket := timeBucket now scheduler.policy.capacityRefresh
  let plan ← planFor scheduler.policy bucket cached store.schedules
  let decision : CapacityDecision :=
    ⟨scheduler.digests.uuid5 (scheduler.digests.capacityKey bucket plan), bucket, plan⟩
  let store' ← persistCapacityDecision scheduler.digests decision store
  return (store', decision)

theorem planFor_planned {policy : AdaptivePollingPolicy} {bucket : Int}
    {cached : Option (CachedCapacity policy)} {table : ScheduleTable} {plan : CapacityPlan}
    (h : planFor policy bucket cached table = .ok plan) :
    ∃ counts, planCapacity policy counts = .ok plan := by
  have hfresh : freshPlan policy table = .ok plan → ∃ counts, planCapacity policy counts = .ok plan := by
    intro hf
    simp only [freshPlan, bind_eq_ok] at hf
    obtain ⟨counts, _, hplan⟩ := hf
    exact ⟨counts, hplan⟩
  unfold planFor at h
  cases cached with
  | none => exact hfresh h
  | some remembered =>
    dsimp only at h
    split at h
    · cases h
      exact remembered.planned
    · exact hfresh h

/-- A capacity decision touches its own table only, and its plan is a plan of the policy. -/
theorem capacityDecision_eq_ok {scheduler : AdaptiveScheduler} {now : Int}
    {cached : Option (CachedCapacity scheduler.policy)} {store store' : SchedulerStore}
    {decision : CapacityDecision}
    (h : capacityDecision scheduler now cached store = .ok (store', decision)) :
    (∃ table, store' = { store with capacityDecisions := table }) ∧
      ∃ counts, planCapacity scheduler.policy counts = .ok decision.plan := by
  simp only [capacityDecision, bind_eq_ok, pure_eq_ok] at h
  obtain ⟨plan, hplan, mid, hmid, hresult⟩ := h
  cases hresult
  refine ⟨?_, planFor_planned hplan⟩
  unfold persistCapacityDecision at hmid
  dsimp only at hmid
  split at hmid
  · split at hmid
    · cases hmid
      exact ⟨_, rfl⟩
    · cases hmid
  · cases hmid

end PumpResearch.Scheduling
