import PumpResearch.Scheduling.ControlScans

/-! Runs of control batches: every token is reached within as many batches as the population fills,
and the scans are even when batches fill it exactly. -/
namespace PumpResearch.Scheduling
open KeyedOrder KeyedTable Results Rotation

/-- Other work between control batches leaves the schedules of the population as they are. -/
structure OtherWork (population : List Uuid) (store store' : SchedulerStore) : Prop where
  kept : ∀ token ∈ population, store'.schedules.find? token = store.schedules.find? token
  consistent : LeasesConsistent store → LeasesConsistent store'

/-- Control batches one after the other, each with its tokens and its completion time. -/
inductive ControlRun (scheduler : AdaptiveScheduler) (population : List Uuid) (chain : String) :
    SchedulerStore → List (List Uuid × Int) → SchedulerStore → Prop
  | nil (store : SchedulerStore) (hpopulation : ControlPopulation population chain store) :
      ControlRun scheduler population chain store [] store
  | cons {store start next last : SchedulerStore} {picked : List Uuid} {completedAt : Int}
      {rounds : List (List Uuid × Int)}
      (hother : OtherWork population store start)
      (hpopulation : ControlPopulation population chain start)
      (hround : ControlRound scheduler start next picked completedAt)
      (hrest : ControlRun scheduler population chain next rounds last) :
      ControlRun scheduler population chain store ((picked, completedAt) :: rounds) last

/-! ### Runs -/

section Runs
variable {scheduler : AdaptiveScheduler} {store store' last : SchedulerStore}
  {population : List Uuid} {chain : String} {rounds : List (List Uuid × Int)}

theorem OtherWork.idle (h : OtherWork population store store') (hidle : Idle population store) :
    Idle population store' where
  consistent := h.consistent hidle.consistent
  unleased token htoken schedule hschedule :=
    hidle.unleased token htoken schedule (h.kept token htoken ▸ hschedule)

theorem OtherWork.scanKey_eq (h : OtherWork population store store') {token : Uuid}
    (htoken : token ∈ population) : scanKey store' token = scanKey store token := by
  rw [scanKey, scanKey, h.kept token htoken]

theorem OtherWork.scanRank_eq (h : OtherWork population store store') {token : Uuid}
    (htoken : token ∈ population) : scanRank store' token = scanRank store token := by
  rw [scanRank, scanRank, h.kept token htoken]

theorem OtherWork.scannedBefore (h : OtherWork population store store') {instant : Int}
    (hbefore : ScannedBefore population store instant) :
    ScannedBefore population store' instant :=
  fun token htoken schedule hschedule =>
    hbefore token htoken schedule (h.kept token htoken ▸ hschedule)

theorem ControlRun.nodup (h : ControlRun scheduler population chain store rounds last) :
    population.Nodup := by
  cases h with
  | nil _ hpopulation => exact hpopulation.nodup
  | cons _ hpopulation _ _ => exact hpopulation.nodup

theorem ControlRun.find? (h : ControlRun scheduler population chain store rounds last)
    {token : Uuid} (htoken : token ∈ population) :
    ∃ schedule, store.schedules.find? token = some schedule := by
  cases h with
  | nil _ hpopulation => exact hpopulation.find? htoken
  | cons hother hpopulation _ _ =>
    rw [← hother.kept token htoken]
    exact hpopulation.find? htoken

/-- A run of control batches at increasing times is a run of rounds. -/
theorem ControlRun.service (h : ControlRun scheduler population chain store rounds last)
    (hidle : Idle population store)
    (hbefore : ∀ round ∈ rounds, ScannedBefore population store round.2)
    (htimes : rounds.Pairwise fun earlier later => earlier.2 < later.2)
    {rank : Uuid → Int ×ₗ Nat} (hrank : ∀ token ∈ population, scanRank store token = rank token) :
    ∃ key, Rounds population rank scheduler.policy.controlScanTokensPerMinute (scanKey store)
      (rounds.map Prod.fst) key := by
  induction h with
  | nil store _ => exact ⟨scanKey store, .nil _⟩
  | @cons store start next last picked completedAt rounds hother hpopulation hround _ ih =>
    rw [List.pairwise_cons] at htimes
    have hstart := hother.idle hidle
    have hscans := hround.scans hpopulation hstart
    have hbeforeStart : ∀ round ∈ (picked, completedAt) :: rounds,
        ScannedBefore population start round.2 := fun round hmem =>
      hother.scannedBefore (hbefore round hmem)
    have hrankStart : ∀ token ∈ population, scanRank start token = rank token :=
      fun token htoken => (hother.scanRank_eq htoken).trans (hrank token htoken)
    have hserved := hscans.served hpopulation (hbeforeStart _ List.mem_cons_self) hrankStart
    obtain ⟨key, hrest⟩ := ih (hscans.idle hpopulation hstart)
      (fun round hmem => hscans.scannedBefore hpopulation
        (hbeforeStart round (List.mem_cons_of_mem _ hmem)) (htimes.1 round hmem))
      htimes.2
      (fun token htoken => (hscans.scanRank_eq hpopulation htoken).trans (hrankStart token htoken))
    exact ⟨key, .cons (hserved.congr_key hpopulation.nodup fun token htoken =>
      (hother.scanKey_eq htoken).symm) hrest⟩

/-- No token of the population was ever scanned. -/
def Unscanned (population : List Uuid) (store : SchedulerStore) : Prop :=
  ∀ token ∈ population, ∀ schedule ∈ store.schedules.find? token,
    schedule.lastControlScanAt = none ∧ schedule.controlScanCount = 0

theorem Unscanned.scannedBefore (h : Unscanned population store) (instant : Int) :
    ScannedBefore population store instant := by
  intro token htoken schedule hschedule scannedAt hscan
  rw [(h token htoken schedule hschedule).1] at hscan
  cases hscan

/-- The scan count of a token. -/
def scanCount (store : SchedulerStore) (token : Uuid) : Nat :=
  (store.schedules.find? token).elim 0 (·.controlScanCount)

theorem ControlRun.scanCount_eq (h : ControlRun scheduler population chain store rounds last)
    (hidle : Idle population store) {token : Uuid} (htoken : token ∈ population) :
    scanCount last token = scanCount store token + services (rounds.map Prod.fst) token := by
  induction h with
  | nil store _ => rfl
  | @cons store start next last picked completedAt rounds hother hpopulation hround _ ih =>
    have hstart := hother.idle hidle
    have hscans := hround.scans hpopulation hstart
    have hcount : scanCount next token = scanCount store token +
        if token ∈ picked then 1 else 0 := by
      obtain ⟨task, htask⟩ := hpopulation.find? htoken
      have hnext : ∃ row, next.schedules.find? token = some row := by
        by_cases hpicked : token ∈ picked
        · obtain ⟨row, hrow, _⟩ := hscans.scanned token hpicked task htask
          exact ⟨row, hrow⟩
        · exact ⟨task, (hscans.kept token htoken hpicked).trans htask⟩
      obtain ⟨row, hrow⟩ := hnext
      rw [scanCount, scanCount, ← hother.kept token htoken, htask, hrow]
      exact hscans.controlScanCount_eq htoken htask hrow
    rw [ih (hscans.idle hpopulation hstart), hcount, List.map_cons, services_cons]
    dsimp only
    omega

end Runs

/-! ### Evaluation -/

section Evaluation
variable {scheduler : AdaptiveScheduler} {store store' last : SchedulerStore}
  {population : List Uuid} {chain : String}

instance decidableControlPopulation (population : List Uuid) (chain : String)
    (store : SchedulerStore) : Decidable (ControlPopulation population chain store) :=
  decidable_of_iff ((controlTokens store).Perm population ∧
    ∀ token ∈ population, ∃ row ∈ store.tokens.find? token, row.chain = chain)
    ⟨fun h => ⟨h.1, h.2⟩, fun h => ⟨h.tokens, h.chain⟩⟩

/-- A control batch under the capacity decision of its moment, claimed and completed. -/
def claimAndComplete (scheduler : AdaptiveScheduler) (batchId : Uuid) (now completedAt : Int)
    (store : SchedulerStore) : Except SchedulingError (Option (SchedulerStore × List Uuid)) := do
  let decided ← capacityDecision scheduler now none store
  let granted ← claimControlBatch scheduler ⟨now, none, none, [], batchId⟩ decided.2 decided.1
  match granted.2 with
  | none => return none
  | some claim =>
    let completed ← completeBatch scheduler ⟨completedAt, batchId, .succeeded, none, none⟩ granted.1
    return some (completed.1, claim.members.map (·.tokenId))

theorem claimAndComplete_round {batchId : Uuid} {now completedAt : Int} {picked : List Uuid}
    (h : claimAndComplete scheduler batchId now completedAt store = .ok (some (store', picked))) :
    ∃ start, (∃ table, start = { store with capacityDecisions := table }) ∧
      ControlRound scheduler start store' picked completedAt := by
  simp only [claimAndComplete, bind_eq_ok] at h
  obtain ⟨decided, hdecided, granted, hgranted, h⟩ := h
  obtain ⟨claimed, claim⟩ := granted
  cases claim with
  | none => cases h
  | some claim =>
    simp only [bind_eq_ok, pure_eq_ok] at h
    obtain ⟨completed, hcompleted, hresult⟩ := h
    cases hresult
    obtain ⟨_, _, _, _, _, hid, _⟩ := claimControlBatch_some hgranted
    exact ⟨decided.1, (capacityDecision_eq_ok hdecided).1,
      .mk _ decided.2 claimed claim _ completed.2 (by simp) hgranted rfl hid.symm rfl hcompleted⟩

/-- Control batches at given moments, while the population is the same. -/
def runControl (scheduler : AdaptiveScheduler) (population : List Uuid) (chain : String) :
    List (Uuid × Int × Int) → SchedulerStore → Option (SchedulerStore × List (List Uuid × Int))
  | [], store => if ControlPopulation population chain store then some (store, []) else none
  | (batchId, now, completedAt) :: moments, store =>
    if ControlPopulation population chain store then
      match claimAndComplete scheduler batchId now completedAt store with
      | .ok (some (next, picked)) =>
        (runControl scheduler population chain moments next).map fun result =>
          (result.1, (picked, completedAt) :: result.2)
      | _ => none
    else none

theorem runControl_run {moments : List (Uuid × Int × Int)} {rounds : List (List Uuid × Int)}
    (h : runControl scheduler population chain moments store = some (last, rounds)) :
    ControlRun scheduler population chain store rounds last := by
  induction moments generalizing store rounds with
  | nil =>
    rw [runControl] at h
    split at h
    · next hpopulation =>
      cases h
      exact .nil _ hpopulation
    · cases h
  | cons moment moments ih =>
    rw [runControl] at h
    split at h
    · next hpopulation =>
      split at h
      · next next picked hround =>
        obtain ⟨result, hrest, hresult⟩ := Option.map_eq_some_iff.mp h
        cases hresult
        obtain ⟨start, hstart, hround⟩ := claimAndComplete_round hround
        have hother : OtherWork population store start := by
          obtain ⟨table, rfl⟩ := hstart
          exact ⟨fun _ _ => rfl, fun hc => hc.kept rfl rfl rfl (.refl _)⟩
        have hpopulation' : ControlPopulation population chain start := by
          obtain ⟨table, rfl⟩ := hstart
          exact ⟨hpopulation.tokens, hpopulation.chain⟩
        exact .cons hother hpopulation' hround (ih hrest)
      · cases h
    · cases h

end Evaluation

/-- A dormant schedule, admitted at the start. -/
def retiredSchedule (token : Uuid) (lastControlScanAt : Option Int) : PollSchedule where
  tokenId := token
  lifecycleState := .dormant
  stateDecidedAt := 0
  coverage := some ⟨.retiredControl, 0, 0, "coverage"⟩
  coverageNextTransitionAt := none
  candidateCoverage := none
  priority := 0
  nextDueAt := none
  lastDueAt := none
  lastStartedAt := none
  lastCompletedAt := none
  attemptCount := 0
  lastControlScanAt := lastControlScanAt
  controlScanCount := 0
  lease := none
  capacityDecisionId := none
  targetIntervalSeconds := none
  effectiveIntervalSeconds := none
  configurationSha256 := "policy"
  updatedAt := 0

/-- Retired tokens on one chain, with a history of scans. -/
def retiredStore (tokens : List Uuid) (distinct : tokens.Nodup) (scans : Uuid → Option Int) :
    SchedulerStore :=
  { twoTokens with
    tokens := ⟨tokens.map fun token => ⟨token, "solana", String.ofList (List.replicate token 'A')⟩,
      by simpa [List.map_map, Function.comp_def] using distinct⟩
    schedules := ⟨tokens.map fun token => retiredSchedule token (scans token),
      by simpa [List.map_map, Function.comp_def, retiredSchedule] using distinct⟩ }

theorem mem_retiredStore {tokens : List Uuid} {distinct : tokens.Nodup} {scans : Uuid → Option Int}
    {schedule : PollSchedule} (h : schedule ∈ (retiredStore tokens distinct scans).schedules.rows) :
    ∃ token, schedule = retiredSchedule token (scans token) := by
  obtain ⟨token, _, rfl⟩ := List.mem_map.mp h
  exact ⟨token, rfl⟩

theorem retiredStore_idle (tokens : List Uuid) (distinct : tokens.Nodup)
    (scans : Uuid → Option Int) : Idle tokens (retiredStore tokens distinct scans) where
  consistent := by
    refine Unclaimed.consistent ⟨rfl, rfl, rfl, fun schedule hschedule => ?_⟩
    obtain ⟨token, rfl⟩ := mem_retiredStore hschedule
    exact ⟨rfl, rfl⟩
  unleased token _ schedule hschedule := by
    obtain ⟨token, rfl⟩ := mem_retiredStore (Table.find?_eq_some_iff.mp hschedule).1
    rfl

theorem retiredStore_unscanned (tokens : List Uuid) (distinct : tokens.Nodup) :
    Unscanned tokens (retiredStore tokens distinct fun _ => none) := by
  intro token _ schedule hschedule
  obtain ⟨token, rfl⟩ := mem_retiredStore (Table.find?_eq_some_iff.mp hschedule).1
  exact ⟨rfl, rfl⟩

/-- A batch in each minute, completed ten seconds later. -/
def minutes (count : Nat) : List (Uuid × Int × Int) :=
  (List.range count).map fun minute =>
    (minute + 1, seconds (60 * (minute + 1)), seconds (60 * (minute + 1) + 10))

/-! ### Everyone is reached, and when service is even -/

section Results
variable {scheduler : AdaptiveScheduler} {store last : SchedulerStore}
  {population : List Uuid} {chain : String} {rounds : List (List Uuid × Int)}

/-- Everyone is reached: as many consecutive control batches as the population fills contain every
token, from any history of scans before them. -/
theorem control_rotation_reaches {before window after : List (List Uuid × Int)}
    (hlimit : 0 < scheduler.policy.controlScanTokensPerMinute)
    (hidle : Idle population store)
    (hhistory : ∀ round ∈ before ++ window ++ after, ScannedBefore population store round.2)
    (htimes : (before ++ window ++ after).Pairwise fun earlier later => earlier.2 < later.2)
    (hrun : ControlRun scheduler population chain store (before ++ window ++ after) last)
    (hlength : window.length =
      population.length ⌈/⌉ scheduler.policy.controlScanTokensPerMinute) :
    ∀ token ∈ population, ∃ round ∈ window, token ∈ round.1 := by
  intro token htoken
  obtain ⟨key, hrounds⟩ := hrun.service hidle hhistory htimes fun _ _ => rfl
  rw [List.map_append, List.map_append] at hrounds
  have hfull : population.length ≤
      (window.map Prod.fst).length * scheduler.policy.controlScanTokensPerMinute := by
    rw [List.length_map, hlength, Nat.mul_comm]
    exact le_smul_ceilDiv hlimit
  obtain ⟨picked, hpicked, hin⟩ := hrounds.window_covers hrun.nodup hfull token htoken
  obtain ⟨round, hround, rfl⟩ := List.mem_map.mp hpicked
  exact ⟨round, hround, hin⟩

/-- Two batches of two reach three tokens. -/
theorem control_rotation_reaches_three : ∃ last,
    ControlRun sampleScheduler [1, 2, 3] "solana"
      (retiredStore [1, 2, 3] (by decide) fun _ => none)
      [([1, 2], seconds 70), ([3, 1], seconds 130)] last ∧
    ∀ token ∈ [1, 2, 3], ∃ round ∈ [([1, 2], seconds 70), ([3, 1], seconds 130)],
      token ∈ round.1 := by
  have hrounds : (runControl sampleScheduler [1, 2, 3] "solana" (minutes 2)
      (retiredStore [1, 2, 3] (by decide) fun _ => none)).map Prod.snd =
        some [([1, 2], seconds 70), ([3, 1], seconds 130)] := by decide +kernel
  obtain ⟨⟨last, rounds⟩, hresult, rfl⟩ := Option.map_eq_some_iff.mp hrounds
  have hrun : ControlRun sampleScheduler [1, 2, 3] "solana"
      (retiredStore [1, 2, 3] (by decide) fun _ => none)
      ([] ++ [([1, 2], seconds 70), ([3, 1], seconds 130)] ++ []) last := runControl_run hresult
  exact ⟨last, hrun, control_rotation_reaches (by decide) (retiredStore_idle _ _ _)
    (fun _ _ => (retiredStore_unscanned _ _).scannedBefore _) (by decide) hrun (by decide)⟩

/-- A scan that is later than the completions keeps its token out of all of them. -/
theorem control_rotation_later_scan : ∃ last,
    Idle [1, 2, 3] (retiredStore [1, 2, 3] (by decide)
      fun token => if token = 1 then some (seconds 1000) else none) ∧
    ControlRun sampleScheduler [1, 2, 3] "solana" (retiredStore [1, 2, 3] (by decide)
      fun token => if token = 1 then some (seconds 1000) else none)
      [([2, 3], seconds 70), ([2, 3], seconds 130)] last ∧
    [1, 2, 3].length ⌈/⌉ sampleScheduler.policy.controlScanTokensPerMinute = 2 ∧
    ¬ ∃ round ∈ [([2, 3], seconds 70), ([2, 3], seconds 130)], 1 ∈ round.1 := by
  have hrounds : (runControl sampleScheduler [1, 2, 3] "solana" (minutes 2)
      (retiredStore [1, 2, 3] (by decide)
        fun token => if token = 1 then some (seconds 1000) else none)).map Prod.snd =
      some [([2, 3], seconds 70), ([2, 3], seconds 130)] := by decide +kernel
  obtain ⟨⟨last, rounds⟩, hresult, rfl⟩ := Option.map_eq_some_iff.mp hrounds
  exact ⟨last, retiredStore_idle _ _ _, runControl_run hresult, by decide, by decide⟩

/-- Balance: with batches that fill the population exactly, from a population that was never
scanned, no token is ever two scans ahead of another. -/
theorem control_rotation_balanced
    (hidle : Idle population store)
    (hunscanned : Unscanned population store)
    (htimes : rounds.Pairwise fun earlier later => earlier.2 < later.2)
    (hrun : ControlRun scheduler population chain store rounds last)
    (hwhole : scheduler.policy.controlScanTokensPerMinute ∣ population.length) :
    ∀ a ∈ population, ∀ b ∈ population, scanCount last a ≤ scanCount last b + 1 := by
  intro a ha b hb
  have hhistory : ∀ round ∈ rounds, ScannedBefore population store round.2 := fun _ _ =>
    hunscanned.scannedBefore _
  have hfresh : ∀ a ∈ population, ∀ b ∈ population,
      scanRank store a < scanRank store b → scanKey store a < scanKey store b := by
    intro a ha b hb hlt
    obtain ⟨taskA, hfoundA⟩ := hrun.find? ha
    obtain ⟨taskB, hfoundB⟩ := hrun.find? hb
    have hscanA := (hunscanned a ha taskA hfoundA).1
    have hscanB := (hunscanned b hb taskB hfoundB).1
    rw [scanRank_of_find? hfoundA, scanRank_of_find? hfoundB] at hlt
    rw [scanKey_of_find? hfoundA, scanKey_of_find? hfoundB, controlOrder, controlOrder, hscanA,
      hscanB, Prod.Lex.toLex_lt_toLex]
    refine .inr ⟨rfl, ?_⟩
    rw [Prod.Lex.toLex_lt_toLex]
    exact .inr ⟨rfl, hlt⟩
  have hzero : ∀ token ∈ population, scanCount store token = 0 := by
    intro token htoken
    obtain ⟨task, hfound⟩ := hrun.find? htoken
    rw [scanCount, hfound]
    exact (hunscanned token htoken task hfound).2
  obtain ⟨key, hrounds⟩ := hrun.service hidle hhistory htimes fun _ _ => rfl
  have hbalanced := hrounds.balanced hrun.nodup
    (fun a _ b _ heq => scanRank_injective store heq) hfresh hwhole a ha b hb
  rw [hrun.scanCount_eq hidle ha, hrun.scanCount_eq hidle hb, hzero a ha, hzero b hb]
  omega

/-- Two batches of two over four tokens. -/
theorem control_rotation_balanced_four : ∃ last,
    ControlRun sampleScheduler [1, 2, 3, 4] "solana"
      (retiredStore [1, 2, 3, 4] (by decide) fun _ => none)
      [([1, 2], seconds 70), ([3, 4], seconds 130)] last ∧
    ∀ a ∈ [1, 2, 3, 4], ∀ b ∈ [1, 2, 3, 4], scanCount last a ≤ scanCount last b + 1 := by
  have hrounds : (runControl sampleScheduler [1, 2, 3, 4] "solana" (minutes 2)
      (retiredStore [1, 2, 3, 4] (by decide) fun _ => none)).map Prod.snd =
        some [([1, 2], seconds 70), ([3, 4], seconds 130)] := by decide +kernel
  obtain ⟨⟨last, rounds⟩, hresult, rfl⟩ := Option.map_eq_some_iff.mp hrounds
  have hrun := runControl_run hresult
  exact ⟨last, hrun, control_rotation_balanced (retiredStore_idle _ _ _)
    (retiredStore_unscanned _ _) (by decide) hrun (by decide)⟩

/-- With batches of two over three tokens, the first is in every batch: ties of a batch are broken
by admission again and again. -/
theorem control_rotation_unbalanced : ∃ last,
    Idle [1, 2, 3] (retiredStore [1, 2, 3] (by decide) fun _ => none) ∧
    Unscanned [1, 2, 3] (retiredStore [1, 2, 3] (by decide) fun _ => none) ∧
    sampleScheduler.policy.controlScanTokensPerMinute ≤ [1, 2, 3].length ∧
    ControlRun sampleScheduler [1, 2, 3] "solana"
      (retiredStore [1, 2, 3] (by decide) fun _ => none)
      [([1, 2], seconds 70), ([3, 1], seconds 130), ([2, 1], seconds 190)] last ∧
    scanCount last 1 = 3 ∧ scanCount last 3 = 1 := by
  have hrounds : (runControl sampleScheduler [1, 2, 3] "solana" (minutes 3)
      (retiredStore [1, 2, 3] (by decide) fun _ => none)).map (fun result =>
        (result.2, scanCount result.1 1, scanCount result.1 3)) =
      some ([([1, 2], seconds 70), ([3, 1], seconds 130), ([2, 1], seconds 190)], 3, 1) := by
    decide +kernel
  obtain ⟨⟨last, rounds⟩, hresult, hcounts⟩ := Option.map_eq_some_iff.mp hrounds
  obtain ⟨rfl, hfirst, hthird⟩ := by simpa only [Prod.mk.injEq] using hcounts
  exact ⟨last, retiredStore_idle _ _ _, retiredStore_unscanned _ _, by decide,
    runControl_run hresult, hfirst, hthird⟩

end Results

end PumpResearch.Scheduling
