import PumpResearch.Scheduling.System

/-! Due times over all runs: a schedule is without one exactly while it is retired, so every
token is in the ordinary queue or in the control rotation. -/
namespace PumpResearch.Scheduling
open Candidates KeyedTable Results Runs
variable {d : Deployment}

/-- Mapped to a class, and without a due time exactly when retired. -/
structure DueUnlessRetired (schedule : PollSchedule) : Prop where
  mapped : schedule.coverage.isSome
  due : schedule.nextDueAt = none ↔ schedule.coverageClass = some .retiredControl

theorem refreshedDue_eq_none (scheduler : AdaptiveScheduler) (now : Int)
    (coverage : CoverageClass) (schedule : PollSchedule) :
    refreshedDue scheduler now coverage schedule = none ↔ coverage = .retiredControl := by
  unfold refreshedDue AdaptivePollingPolicy.intervalForCoverage
  by_cases hretired : coverage = .retiredControl
  · simp [hretired]
  · simp only [hretired, if_false, iff_false]
    cases schedule.nextDueAt with
    | none => simp
    | some due =>
      dsimp only
      split <;> simp

theorem acceleratedDue_eq_none (schedule : PollSchedule) (due : Int) :
    acceleratedDue schedule due = none ↔ schedule.coverageClass = some .retiredControl := by
  unfold acceleratedDue
  split
  · next h => simp [h]
  · next h => simp [h]

theorem rescheduled_due {policy : CandidatePolicy} {now : Int} {target : CandidateTier}
    {expires : Option Int} {tierEventId : Uuid} {schedule row : PollSchedule}
    (h : rescheduled policy now target expires tierEventId schedule = .ok row)
    (hdue : DueUnlessRetired schedule) : DueUnlessRetired row := by
  cases rescheduled_eq_ok h with
  | cleared => exact ⟨hdue.mapped, hdue.due⟩
  | renewed overlay until_eq => exact ⟨hdue.mapped, acceleratedDue_eq_none schedule _⟩
  | kept => exact ⟨hdue.mapped, hdue.due⟩

theorem dueUnlessRetired_rules (d : Deployment) : RowRules d DueUnlessRetired where
  refreshed now schedule row hrow hschedule := by
    cases hrow with
    | kept => exact hschedule
    | renewed projection coverage boundary mapped classified bounded =>
      refine ⟨rfl, ?_⟩
      simp only [refreshedRow, PollSchedule.coverageClass, Option.map_some, Option.some.injEq]
      exact refreshedDue_eq_none d.scheduler now coverage schedule
  leased _ _ _ hmember := ⟨hmember.mapped, hmember.due⟩
  polled completedAt task row hrow _ := by
    cases hrow with
    | mk batch intervals member coverage boundary projection mapped classified bounded =>
      refine ⟨rfl, ?_⟩
      by_cases hretired : coverage = .retiredControl
      · simp [polledRow, PollSchedule.coverageClass, hretired]
      · simp [polledRow, PollSchedule.coverageClass, hretired]
  rescheduled _ _ _ _ _ _ hrow hschedule := rescheduled_due hrow hschedule

theorem Rebased.dueUnlessRetired {scheduler : AdaptiveScheduler}
    {request : EpochRequest scheduler.policy} {store : SchedulerStore} {schedule row : PollSchedule}
    (h : Rebased scheduler request store schedule row) : DueUnlessRetired row := by
  cases h with
  | mk capacity admittedAt coverage boundary classified bounded admitted =>
    refine ⟨rfl, ?_⟩
    by_cases hretired : coverage = .retiredControl
    · simp [rebasedRow, rebasedDue, mappedRow, PollSchedule.coverageClass, hretired]
    · simp [rebasedRow, rebasedDue, mappedRow, PollSchedule.coverageClass, hretired]

theorem coverage_flushedRow (scheduler : AdaptiveScheduler)
    (request : LifecycleRequest scheduler.policy) (admission : Int) (coverage : CoverageClass)
    (boundary : Option Int) (task : Option PollSchedule) :
    (flushedRow scheduler request admission coverage boundary task).coverage =
      some ⟨coverage, admission, request.decidedAt, scheduler.digests.coverageSha256⟩ := by
  cases task with
  | none => rfl
  | some stored => rfl

theorem Placed.dueUnlessRetired {scheduler : AdaptiveScheduler}
    {request : LifecycleRequest scheduler.policy} {task : Option PollSchedule} {row : PollSchedule}
    (h : Placed scheduler request task row) : DueUnlessRetired row := by
  cases h with
  | mk capacity admission coverage boundary bounded mapped =>
    have hcoverage := coverage_flushedRow scheduler request admission coverage boundary task
    have hclass : (placedRow request capacity coverage (flushedRow scheduler request admission
        coverage boundary task)).coverageClass = some coverage := by
      rw [PollSchedule.coverageClass, placedRow, hcoverage]
      rfl
    refine ⟨by rw [placedRow, hcoverage]; rfl, ?_⟩
    rw [hclass, Option.some.injEq]
    by_cases hretired : coverage = .retiredControl
    · simp [placedRow, hretired]
    · simp [placedRow, hretired]

/-- The rows that epoch starts and lifecycle changes flush on the way are within the table's
constraint too. -/
theorem mappedRow_not_due (digests : SchedulerDigests) (startedAt admittedAt : Int)
    (coverage : CoverageClass) (boundary : Option Int) (schedule : PollSchedule) :
    (mappedRow digests startedAt admittedAt coverage boundary schedule).nextDueAt = none := rfl

theorem flushedRow_retired_not_due (scheduler : AdaptiveScheduler)
    (request : LifecycleRequest scheduler.policy) (admission : Int) (boundary : Option Int)
    (task : Option PollSchedule) :
    (flushedRow scheduler request admission .retiredControl boundary task).nextDueAt = none := by
  cases task with
  | none => rfl
  | some stored => rfl

def DueTimesConsistent (store : SchedulerStore) : Prop :=
  ∀ schedule ∈ store.schedules.rows, DueUnlessRetired schedule

theorem dueTimesConsistent_effect {candidates : CandidateStore} {store store' : SchedulerStore}
    {now : Int} {call : Call d} (h : DueTimesConsistent store)
    (heffect : Effect candidates store now call store') : DueTimesConsistent store' :=
  heffect.forall_rows (dueUnlessRetired_rules d) (fun _ _ _ _ _ hrow => hrow.dueUnlessRetired)
    (fun _ _ _ _ hrow => hrow.dueUnlessRetired) h

/-- A mapped schedule is claimable from some time on, as ordinary or as control work. -/
theorem DueUnlessRetired.eventually_eligible {schedule : PollSchedule}
    (h : DueUnlessRetired schedule) : ∃ t, ∀ now, t ≤ now →
      OrdinaryEligible now schedule ∨ ControlEligible now schedule := by
  obtain ⟨projection, hprojection⟩ := Option.isSome_iff_exists.mp h.mapped
  have hclass : schedule.coverageClass = some projection.coverageClass := by
    rw [PollSchedule.coverageClass, hprojection]
    rfl
  have hfree : ∃ t, ∀ now, t ≤ now → LeaseFree now schedule := by
    cases hl : schedule.lease with
    | none =>
      refine ⟨0, fun now _ lease hlease => ?_⟩
      rw [hl] at hlease
      cases hlease
    | some held =>
      refine ⟨held.expiresAt, fun now hnow lease hlease => ?_⟩
      rw [hl] at hlease
      cases hlease
      exact hnow
  obtain ⟨t, ht⟩ := hfree
  by_cases hretired : projection.coverageClass = .retiredControl
  · exact ⟨t, fun now hnow => .inr ⟨by rw [hclass, hretired], ht now hnow⟩⟩
  · cases hd : schedule.nextDueAt with
    | none =>
      have hin := h.due.mp hd
      rw [hclass, Option.some.injEq] at hin
      exact absurd hin hretired
    | some due =>
      refine ⟨max t due, fun now hnow => .inl ⟨⟨due, hd, ?_⟩, ⟨_, hclass, hretired⟩, ?_⟩⟩
      · exact (le_max_right t due).trans hnow
      · exact ht now ((le_max_left t due).trans hnow)

/-- From schedules mapped by an epoch start, in every state of every run: a schedule has no due
time exactly when it is retired, and is claimable from some time on. -/
theorem due_unless_retired (d : Deployment) (s : SchedulerSystem d) (before : SchedulerStore)
    (request : EpochRequest d.scheduler.policy) (count : Nat)
    (hstart : initializeEpoch d.scheduler request before = .ok (s.store, count))
    (actions : List (SystemAction d)) :
    Always systemStep (fun s => ∀ schedule ∈ s.store.schedules.rows,
      (schedule.nextDueAt = none ↔ schedule.coverageClass = some .retiredControl) ∧
      ∃ t, ∀ now, t ≤ now → OrdinaryEligible now schedule ∨ ControlEligible now schedule)
      s actions := by
  have hinitial : DueTimesConsistent s.store := by
    intro row hrow
    obtain ⟨schedule, _, _, hrebased⟩ := (initializeEpoch_eq_ok hstart).rebased.exists_before hrow
    exact hrebased.dueUnlessRetired
  refine (always_of_kept (I := fun s' : SchedulerSystem d => DueTimesConsistent s'.store)
    (store_invariant fun _ _ _ _ _ hstore heffect => dueTimesConsistent_effect hstore heffect)
    hinitial actions).mono fun s' h schedule hschedule => ?_
  exact ⟨(h schedule hschedule).due, (h schedule hschedule).eventually_eligible⟩

/-- An epoch starts over two active tokens; one of them goes dormant while a batch is polled. -/
theorem due_unless_retired_two :
    ∃ s : SchedulerSystem sampleDeployment,
      initializeEpoch sampleScheduler ⟨1, 1, 1000000, none⟩
        (run systemStep sampleSystem activateTwo).store = .ok (s.store, 2) ∧
      Always systemStep (fun s => ∀ schedule ∈ s.store.schedules.rows,
        (schedule.nextDueAt = none ↔ schedule.coverageClass = some .retiredControl) ∧
        ∃ t, ∀ now, t ≤ now → OrdinaryEligible now schedule ∨ ControlEligible now schedule)
        s ([.tick 60000000] ++ promptly (claimCall 11) ++ promptly (stateCall 2 .dormant 60000000) ++
          promptly (.completeBatch 11 .succeeded none none)) := by
  have hcount : ((initializeEpoch sampleScheduler ⟨1, 1, 1000000, none⟩
      (run systemStep sampleSystem activateTwo).store).map (·.2)).toOption = some 2 := by
    decide +kernel
  obtain ⟨store, hstore⟩ := exists_eq_ok hcount
  exact ⟨⟨1000000, [], store, noCandidates⟩, hstore,
    due_unless_retired sampleDeployment ⟨1000000, [], store, noCandidates⟩ _ _ 2 hstore _⟩

end PumpResearch.Scheduling
