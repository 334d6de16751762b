import PumpResearch.Collection.Epochs
import PumpResearch.Library.KeyedOrder

/-! The intervals of live work that reports and research derive from stored runs. -/
namespace PumpResearch.Collection
open KeyedOrder Results

structure CollectorRunBoundary where
  runId : Uuid
  startedAt : Int
  collectionStartedAt : Option Int
  finishedAt : Option Int
  status : RunStatus
deriving DecidableEq

structure LiveCollectionInterval where
  runId : Uuid
  start : Int
  stop : Int
deriving DecidableEq

def LiveCollectionInterval.Contains (interval : LiveCollectionInterval) (instant : Int) : Prop :=
  interval.start ≤ instant ∧ instant < interval.stop

inductive IntervalError where
  | scope
  | finishedBeforeCollection (runId : Uuid)
deriving DecidableEq

/-- The interval of one run within a scope, if it is known and not empty. -/
def liveInterval (start stop : Int) (boundary : CollectorRunBoundary) :
    Except IntervalError (Option LiveCollectionInterval) :=
  match boundary.collectionStartedAt with
  | none => .ok none
  | some collectionStartedAt =>
    let intervalStart := max start collectionStartedAt
    let intervalEnd := min stop (boundary.finishedAt.getD stop)
    if intervalEnd < collectionStartedAt then .error (.finishedBeforeCollection boundary.runId)
    else if intervalStart < intervalEnd then .ok (some ⟨boundary.runId, intervalStart, intervalEnd⟩)
    else .ok none

/-- `live_collection_intervals`. -/
def liveCollectionIntervals (boundaries : List CollectorRunBoundary) (start stop : Int) :
    Except IntervalError (List LiveCollectionInterval) := do
  if stop ≤ start then throw .scope
  let intervals ← boundaries.mapM (liveInterval start stop)
  return intervals.reduceOption

/-- What a scope shows of a run: its live instants within the scope, if there are any. -/
def ClippedRun (start stop : Int) (boundary : CollectorRunBoundary) :
    Option LiveCollectionInterval → Prop
  | none => ∀ known ∈ boundary.collectionStartedAt,
      Set.Ico known (boundary.finishedAt.getD stop) ∩ Set.Ico start stop = ∅
  | some interval => interval.runId = boundary.runId ∧ interval.start < interval.stop ∧
      ∃ known ∈ boundary.collectionStartedAt, Set.Ico interval.start interval.stop =
        Set.Ico known (boundary.finishedAt.getD stop) ∩ Set.Ico start stop

/-- The non-empty parts of runs within a scope, in the order of the runs. -/
def ClippedRuns (start stop : Int) (boundaries : List CollectorRunBoundary)
    (intervals : List LiveCollectionInterval) : Prop :=
  ∃ parts, List.Forall₂ (ClippedRun start stop) boundaries parts ∧ intervals = parts.reduceOption

section Clipped
variable {start stop : Int} {boundary : CollectorRunBoundary}

/-- Both ends of an intersection, where a run without an end lasts for the scope. -/
theorem clipped_instants (start stop known : Int) (finishedAt : Option Int) :
    Set.Ico known (finishedAt.getD stop) ∩ Set.Ico start stop =
      Set.Ico (max start known) (min stop (finishedAt.getD stop)) := by
  rw [Set.Ico_inter_Ico, sup_comm, inf_comm]

/-- A run that begins within the scope, or before it, is clipped. -/
theorem liveInterval_clipped (start : Int)
    (hordered : ∀ known ∈ boundary.collectionStartedAt, ∀ finished ∈ boundary.finishedAt,
      known ≤ finished)
    (hbegins : ∀ known ∈ boundary.collectionStartedAt, known ≤ stop) :
    ∃ part, liveInterval start stop boundary = .ok part ∧ ClippedRun start stop boundary part := by
  unfold liveInterval
  cases hknown : boundary.collectionStartedAt with
  | none =>
    refine ⟨none, rfl, fun known hstored => ?_⟩
    rw [hknown] at hstored
    cases hstored
  | some known =>
    have hend : ¬ min stop (boundary.finishedAt.getD stop) < known := by
      rw [not_lt, le_min_iff]
      refine ⟨hbegins known hknown, ?_⟩
      cases hfinished : boundary.finishedAt with
      | none => exact hbegins known hknown
      | some finished => exact hordered known hknown finished hfinished
    dsimp only
    rw [if_neg hend]
    have hinstants := clipped_instants start stop known boundary.finishedAt
    by_cases hopen : max start known < min stop (boundary.finishedAt.getD stop)
    · rw [if_pos hopen]
      exact ⟨_, rfl, rfl, hopen, known, hknown, hinstants.symm⟩
    · rw [if_neg hopen]
      refine ⟨none, rfl, fun other hother => ?_⟩
      rw [hknown] at hother
      cases hother
      rw [hinstants]
      exact Set.Ico_eq_empty hopen

/-- A run that begins behind the scope is taken for one that finished before it began. -/
theorem le_stop_of_liveInterval {part : Option LiveCollectionInterval}
    (h : liveInterval start stop boundary = .ok part) :
    ∀ known ∈ boundary.collectionStartedAt, known ≤ stop := by
  intro known hknown
  unfold liveInterval at h
  rw [Option.mem_def.mp hknown] at h
  dsimp only at h
  split at h
  · cases h
  · next hend => exact (not_lt.mp hend).trans (min_le_left _ _)

end Clipped

/-- In a scope of ordered runs, the intervals are the clipped runs exactly when no run begins
behind the scope. -/
theorem live_intervals_clipped_iff (boundaries : List CollectorRunBoundary) (start stop : Int)
    (hscope : start < stop)
    (hordered : ∀ boundary ∈ boundaries, ∀ known ∈ boundary.collectionStartedAt,
      ∀ finished ∈ boundary.finishedAt, known ≤ finished) :
    (∃ intervals, liveCollectionIntervals boundaries start stop = .ok intervals ∧
        ClippedRuns start stop boundaries intervals) ↔
      ∀ boundary ∈ boundaries, ∀ known ∈ boundary.collectionStartedAt, known ≤ stop := by
  constructor
  · intro h boundary hboundary
    obtain ⟨intervals, hintervals, _⟩ := h
    simp only [liveCollectionIntervals, guard_eq_ok, bind_eq_ok, pure_eq_ok] at hintervals
    obtain ⟨_, found, hfound, _⟩ := hintervals
    obtain ⟨part, _, hpart⟩ := RelatedLists.exists_related_right (mapM_eq_ok.mp hfound) hboundary
    exact le_stop_of_liveInterval hpart
  · intro hbegins
    have hparts : ∃ parts, boundaries.mapM (liveInterval start stop) = .ok parts ∧
        List.Forall₂ (ClippedRun start stop) boundaries parts := by
      induction boundaries with
      | nil => exact ⟨[], rfl, .nil⟩
      | cons boundary rest ih =>
        obtain ⟨part, hpart, hclipped⟩ := liveInterval_clipped start
          (hordered boundary List.mem_cons_self) (hbegins boundary List.mem_cons_self)
        obtain ⟨parts, hparts, hrest⟩ :=
          ih (fun b hb => hordered b (List.mem_cons_of_mem _ hb))
            (fun b hb => hbegins b (List.mem_cons_of_mem _ hb))
        refine ⟨part :: parts, ?_, .cons hclipped hrest⟩
        rw [List.mapM_cons, hpart, ok_bind, hparts]
        rfl
    obtain ⟨parts, hparts, hclipped⟩ := hparts
    refine ⟨parts.reduceOption, ?_, parts, hclipped, rfl⟩
    simp only [liveCollectionIntervals, guard_eq_ok, bind_eq_ok, pure_eq_ok]
    exact ⟨not_le.mpr hscope, parts, hparts, rfl⟩

/-- A finished run before the scope, one that straddles its start and one that is still open. -/
def scopedRuns : List CollectorRunBoundary :=
  [⟨1, 0, some 0, some 5, .stopped⟩, ⟨2, 8, some 8, some 20, .failed⟩,
    ⟨3, 25, some 30, none, .running⟩]

theorem live_intervals_clipped_scoped :
    (∃ intervals, liveCollectionIntervals scopedRuns 10 40 = .ok intervals ∧
        ClippedRuns 10 40 scopedRuns intervals) ↔
      ∀ boundary ∈ scopedRuns, ∀ known ∈ boundary.collectionStartedAt, known ≤ 40 :=
  live_intervals_clipped_iff scopedRuns 10 40 (by decide) (by decide)

/-- A run that begins behind the scope makes the call raise. -/
theorem live_intervals_not_clipped :
    ¬ ∀ (boundaries : List CollectorRunBoundary) (start stop : Int), start < stop →
      (∀ boundary ∈ boundaries, ∀ known ∈ boundary.collectionStartedAt,
        ∀ finished ∈ boundary.finishedAt, known ≤ finished) →
      ∃ intervals, liveCollectionIntervals boundaries start stop = .ok intervals ∧
        ClippedRuns start stop boundaries intervals := by
  intro h
  obtain ⟨intervals, hraised, _⟩ :=
    h [⟨1, 90, some 100, none, .running⟩] 0 50 (by decide) (by decide)
  cases hraised

end PumpResearch.Collection
