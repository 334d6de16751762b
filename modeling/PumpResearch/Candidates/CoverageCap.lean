import PumpResearch.Candidates.Evaluation

/-! The cap on simultaneous coverage overrides. A call counts the overrides live at its own
evaluation time; what it admits fits the cap at every later time, unless it extends an override
that the evaluations committed before it had already outlived. -/
namespace PumpResearch.Candidates
open KeyedTable Runs Scheduling

/-- The store and the calls made so far. -/
structure CoverageSystem where
  store : CandidateStore
  calls : List EvaluationCall

section Cap
variable (ids : CandidateIdentities) (policy : CandidatePolicy)

/-- A call that raises leaves the store as it was. -/
def coverageStep (s : CoverageSystem) (call : EvaluationCall) : CoverageSystem where
  store := ((applyEvaluation ids policy s.store call).toOption.map (·.1)).getD s.store
  calls := s.calls ++ [call]

/-- At every instant not earlier than the latest evaluation time, the live overrides fit the
cap. -/
def CapKept (s : CoverageSystem) : Prop :=
  ∀ t, (∀ call ∈ s.calls, call.now ≤ t) →
    activeCoverage t s.store.schedules ≤ policy.maxActiveCoverage

/-- No call renews an override that is live at its own evaluation time but had ended by the
time of an earlier call. -/
def NoLateRenewal (s : CoverageSystem) (call : EvaluationCall) : Prop :=
  ∀ planned ∈ plannedTransition ids policy s.store call,
    (renewedUntil policy s.store call planned.1 planned.2).isSome →
    ∀ schedule ∈ s.store.schedules.find? call.evidence.tokenId,
      ∀ overlay ∈ schedule.candidateCoverage, call.now < overlay.expiresAt →
        ∀ before ∈ s.calls, before.now < overlay.expiresAt

end Cap

section Rules
variable {ids : CandidateIdentities} {policy : CandidatePolicy}

theorem activeCoverage_antitone (schedules : ScheduleTable) {s t : Int} (h : s ≤ t) :
    activeCoverage t schedules ≤ activeCoverage s schedules := by
  apply List.countP_mono_left
  intro schedule _ hactive
  rw [decide_eq_true_eq] at hactive ⊢
  obtain ⟨overlay, hmem, hlt⟩ := hactive
  exact ⟨overlay, hmem, h.trans_lt hlt⟩

/-- Dropping or keeping an override adds nothing. -/
theorem activeCoverage_write_le {schedules : ScheduleTable} {schedule schedule' : PollSchedule}
    (hmem : schedule ∈ schedules.rows) (hid : schedule'.tokenId = schedule.tokenId) {t : Int}
    (h : schedule'.OverlayActive t → schedule.OverlayActive t) :
    activeCoverage t (schedules.write [schedule']) ≤ activeCoverage t schedules := by
  apply Table.countP_write_le
  intro new hnew hactive old hold hkey
  rw [List.mem_singleton] at hnew
  subst hnew
  have hsame : old = schedule := schedules.eq_of_key_eq hold hmem (hkey.trans hid)
  rw [hsame, decide_eq_true_eq]
  exact h (of_decide_eq_true hactive)

/-- Between an instant at which an override is live and one at which it is not, the count
drops. -/
theorem activeCoverage_lt {schedules : ScheduleTable} {schedule : PollSchedule} {s t : Int}
    (hmem : schedule ∈ schedules.rows) (hst : s ≤ t) (hs : schedule.OverlayActive s)
    (ht : ¬ schedule.OverlayActive t) : activeCoverage t schedules < activeCoverage s schedules := by
  refine Table.countP_lt_of_mem ?_ hmem (decide_eq_false ht) (decide_eq_true hs)
  intro other _ hactive
  rw [decide_eq_true_eq] at hactive ⊢
  obtain ⟨overlay, hoverlay, hlt⟩ := hactive
  exact ⟨overlay, hoverlay, hst.trans_lt hlt⟩

/-- An admitted override leaves the cap intact at every instant from the call on. -/
theorem cap_admitted {s : CoverageSystem} {call : EvaluationCall} {schedule schedule' : PollSchedule}
    {target : CandidateTier} {t : Int} (hcap : CapKept policy s)
    (found : s.store.schedules.find? call.evidence.tokenId = some schedule)
    (hid : schedule'.tokenId = schedule.tokenId)
    (hadmitted : coverageAdmitted policy s.store call target)
    (hrenew : ∀ overlay ∈ schedule.candidateCoverage, call.now < overlay.expiresAt →
      ∀ before ∈ s.calls, before.now < overlay.expiresAt)
    (ht : ∀ before ∈ s.calls, before.now ≤ t) (hnow : call.now ≤ t) :
    activeCoverage t (s.store.schedules.write [schedule']) ≤ policy.maxActiveCoverage := by
  have hmem : schedule ∈ s.store.schedules.rows := (Table.find?_eq_some_iff.mp found).1
  have hone : activeCoverage t (s.store.schedules.write [schedule']) ≤
      activeCoverage t s.store.schedules + 1 := Table.countP_write_singleton_le _ _ _
  by_cases hlive : schedule.OverlayActive t
  · have hle := activeCoverage_write_le (t := t) hmem hid fun _ => hlive
    exact hle.trans (hcap t ht)
  · simp only [coverageAdmitted, found, decide_eq_true_eq] at hadmitted
    cases hadmitted.2 with
    | inr hfree =>
      have hle := activeCoverage_antitone s.store.schedules hnow
      omega
    | inl hactive =>
      -- The override is live at the call but not at `t`: it is still live just before it ends,
      -- which is no earlier than any call made so far.
      obtain ⟨overlay, hoverlay, hlt⟩ := hactive
      have hbefore := hrenew overlay hoverlay hlt
      have hended : overlay.expiresAt ≤ t := by
        by_contra hlater
        exact hlive ⟨overlay, hoverlay, not_le.mp hlater⟩
      have hlast : activeCoverage t s.store.schedules <
          activeCoverage (overlay.expiresAt - 1) s.store.schedules :=
        activeCoverage_lt hmem (by omega) ⟨overlay, hoverlay, by omega⟩ hlive
      have hfull := hcap (overlay.expiresAt - 1) fun before hb => by
        have := hbefore before hb
        omega
      omega

theorem capKept_step (s : CoverageSystem) (call : EvaluationCall) (hcap : CapKept policy s)
    (hrenew : NoLateRenewal ids policy s call) :
    CapKept policy (coverageStep ids policy s call) := by
  intro t ht
  have hcalls : ∀ before ∈ s.calls, before.now ≤ t :=
    fun before hb => ht before (List.mem_append_left _ hb)
  have hnow : call.now ≤ t := ht call (List.mem_append_right _ (List.mem_singleton_self call))
  cases happly : applyEvaluation ids policy s.store call with
  | error e =>
    have hsame : (coverageStep ids policy s call).store = s.store := by
      simp [coverageStep, happly, Except.toOption]
    rw [hsame]
    exact hcap t hcalls
  | ok outcome =>
    obtain ⟨store', result⟩ := outcome
    have hstore : (coverageStep ids policy s call).store = store' := by
      simp [coverageStep, happly, Except.toOption]
    rw [hstore]
    have heffect := applyEvaluation_effect happly
    generalize store'.schedules = schedules' at heffect
    cases heffect with
    | kept => exact hcap t hcalls
    | rescheduled decision target tierEventId schedule schedule' planned found written =>
      have hmem : schedule ∈ s.store.schedules.rows := (Table.find?_eq_some_iff.mp found).1
      obtain ⟨hid, hoverlay⟩ := (rescheduled_eq_ok written).overlay
      rcases hoverlay with hnone | hsame | ⟨overlay, _, huntil⟩
      · refine (activeCoverage_write_le hmem hid ?_).trans (hcap t hcalls)
        simp [PollSchedule.OverlayActive, hnone]
      · refine (activeCoverage_write_le hmem hid ?_).trans (hcap t hcalls)
        simp [PollSchedule.OverlayActive, hsame]
      · have hadmitted : coverageAdmitted policy s.store call target := by
          by_contra hdenied
          simp [renewedUntil, hdenied] at huntil
        have hlate := hrenew (decision, target) planned (by simp [huntil]) schedule found
        exact cap_admitted hcap found hid hadmitted hlate hcalls hnow

/-- In every state of a run without late renewals, the live overrides fit the cap at every
instant not earlier than the latest evaluation. -/
theorem coverage_cap_kept (ids : CandidateIdentities) (policy : CandidatePolicy)
    (store : CandidateStore) (calls : List EvaluationCall)
    (hfresh : ∀ schedule ∈ store.schedules.rows, schedule.candidateCoverage = none)
    (h : Steps (coverageStep ids policy) (NoLateRenewal ids policy) ⟨store, []⟩ calls) :
    Always (coverageStep ids policy) (CapKept policy) ⟨store, []⟩ calls := by
  refine always_of_invariant capKept_step h ?_
  intro t _
  have hzero : activeCoverage t store.schedules = 0 := by
    rw [activeCoverage, List.countP_eq_zero]
    intro schedule hmem
    simp [PollSchedule.OverlayActive, hfresh schedule hmem]
  simp [hzero]

end Rules

/-! ### An override renewed after it had ended -/

/-- Calls as the service makes them: evaluated at their own time, watermarks of one token never
going back, and decided by the policy for the stored tier. -/
def ServiceCall (divide : ℚ → ℚ → ℚ) (ids : CandidateIdentities) (policy : CandidatePolicy)
    (s : CoverageSystem) (call : EvaluationCall) : Prop :=
  call.now = call.evidence.evaluatedAt ∧
    (∀ before ∈ s.calls, before.evidence.tokenId = call.evidence.tokenId →
      before.evidence.watermark ≤ call.evidence.watermark) ∧
    call.decision = policy.evaluate divide ids.evidenceSha256 call.evidence
      (previousTier (currentOf s.store call))

instance decidableServiceCall (divide : ℚ → ℚ → ℚ) (ids : CandidateIdentities)
    (policy : CandidatePolicy) (s : CoverageSystem) (call : EvaluationCall) :
    Decidable (ServiceCall divide ids policy s call) :=
  inferInstanceAs (Decidable (_ ∧ (∀ before ∈ s.calls, _ → _) ∧ _))

instance decidableNoLateRenewal (ids : CandidateIdentities) (policy : CandidatePolicy)
    (s : CoverageSystem) (call : EvaluationCall) : Decidable (NoLateRenewal ids policy s call) :=
  inferInstanceAs (Decidable (∀ planned ∈ plannedTransition ids policy s.store call, _ →
    ∀ schedule ∈ s.store.schedules.find? call.evidence.tokenId,
      ∀ overlay ∈ schedule.candidateCoverage, _ → ∀ before ∈ s.calls, _))

/-- Identities for evaluating the model: evidence is told apart by its evaluation second. -/
def secondIdentities : CandidateIdentities where
  evidenceSha256 e := String.ofList (List.replicate (e.evaluatedAt / 1000000).toNat 'e')
  policySha256 _ := "policy"
  candidateKey semantic := semantic.evidenceSha256
  tierKey semantic := semantic.evidence
  taskKey semantic := semantic.analysisType ++ semantic.input
  uuid5 := String.length

/-- The default policy with coverage of one minute and room for one override. -/
def oneOverride : CandidatePolicy where
  minimumLiquidityUsd := 10000
  minimumTransactionsM5 := 20
  minimumVolumeLiquidityRatio := 5 / 100
  tier2MinimumLiquidityUsd := 50000
  tier2MinimumTransactionsM5 := 50
  tier2MinimumVolumeLiquidityRatio := 10 / 100
  tier1Ttl := seconds 60
  tier2Ttl := seconds 60
  coverageInterval := seconds 15
  securityFreshness := seconds 21600
  tasksPerMinute := 12
  expensiveSlotsPerMinute := 2
  boostWakeupsPerMinute := 5
  maxActiveCoverage := 1
  tier3Ttl := seconds 3600
  maxTier3Candidates := 20
  tier3HolderTop10Pct := 60
  tier3MaxUniqueTraders := 20
  tier3MinTotalTrades := 100
  tier3CommonFunderSharePct := 25
  tier3LiquidityRemovalPct := 30

/-- An active market of a token with fresh security facts. -/
def activeEvidence (token : Uuid) (second : Nat) : CandidateEvidence where
  tokenId := token
  evaluatedAt := seconds second
  watermark := seconds second
  lifecycleState := "ACTIVE"
  coverageClass := "PROTECTED_ACTIVE"
  admittedAt := 0
  observationId := none
  observationReceivedAt := none
  liquidityUsd := some 100000
  volumeM5Usd := some 20000
  buysM5 := some 50
  sellsM5 := some 50
  securityReceivedAt := some 0
  watermark_le := le_rfl
  received_le := by
    have h : (0 : Int) ≤ seconds second := by
      unfold seconds
      omega
    simpa [EvidenceFields.receiptTimes] using h

def activeCall (token : Uuid) (second : Nat) (tier : CandidateTier) : EvaluationCall where
  collectionEpochId := 1
  collectorRunId := none
  evidence := activeEvidence token second
  decision := oneOverride.evaluate (· / ·) secondIdentities.evidenceSha256
    (activeEvidence token second) tier
  now := seconds second

def polledToken (token : Uuid) : PollSchedule where
  tokenId := token
  lifecycleState := .active
  stateDecidedAt := 0
  coverage := some ⟨.protectedActive, 0, 0, "coverage"⟩
  coverageNextTransitionAt := none
  candidateCoverage := none
  priority := 0
  nextDueAt := some 0
  lastDueAt := none
  lastStartedAt := none
  lastCompletedAt := none
  attemptCount := 0
  lastControlScanAt := none
  controlScanCount := 0
  lease := none
  capacityDecisionId := none
  targetIntervalSeconds := none
  effectiveIntervalSeconds := none
  configurationSha256 := "scheduler"
  updatedAt := 0

def twoPolled : CandidateStore where
  policies := Table.empty
  currentStates := Table.empty
  schedules := ⟨[polledToken 1, polledToken 2], by decide⟩
  candidateEvents := Table.empty
  tierEvents := Table.empty
  tasks := Table.empty

/-- Evaluations in time order keep to one override: the second token waits for the first. -/
theorem coverage_cap_kept_two :
    Always (coverageStep secondIdentities oneOverride) (CapKept oneOverride) ⟨twoPolled, []⟩
      [activeCall 1 10 .tier0Universal, activeCall 2 20 .tier0Universal] :=
  coverage_cap_kept secondIdentities oneOverride twoPolled
    [activeCall 1 10 .tier0Universal, activeCall 2 20 .tier0Universal] (by decide)
    (by decide +kernel)

/-- Token 1 is covered from 10 s to 70 s and token 2 from 100 s to 160 s; the evaluation of
token 1 at 50 s commits last and extends its override to 110 s. -/
theorem late_renewal_exceeds_cap :
    ¬ ∀ (divide : ℚ → ℚ → ℚ) (ids : CandidateIdentities) (policy : CandidatePolicy)
      (store : CandidateStore) (calls : List EvaluationCall),
      (∀ schedule ∈ store.schedules.rows, schedule.candidateCoverage = none) →
      Steps (coverageStep ids policy) (ServiceCall divide ids policy) ⟨store, []⟩ calls →
      Always (coverageStep ids policy) (CapKept policy) ⟨store, []⟩ calls := by
  intro h
  have hkept := (h (· / ·) secondIdentities oneOverride twoPolled
    [activeCall 1 10 .tier0Universal, activeCall 2 100 .tier0Universal,
      activeCall 1 50 .tier1Interesting] (by decide) (by decide +kernel)).final
  have hcap := hkept (seconds 100) (by decide +kernel)
  exact absurd hcap (by decide +kernel)

end PumpResearch.Candidates
