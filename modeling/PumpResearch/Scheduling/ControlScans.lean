import PumpResearch.Library.Rotation
import PumpResearch.Scheduling.LeaseProtocol

/-! Control scans of a static population of retired schedules: a control batch takes the schedules
whose scan is longest ago, and its completion puts them behind all others. -/
namespace PumpResearch.Scheduling
open KeyedOrder KeyedTable Results Rotation

def controlTokens (store : SchedulerStore) : List Uuid :=
  (store.schedules.rows.filter fun schedule =>
    schedule.coverageClass = some .retiredControl).map (·.tokenId)

/-- The population is all there is to scan, on one chain. -/
structure ControlPopulation (population : List Uuid) (chain : String) (store : SchedulerStore) :
    Prop where
  tokens : (controlTokens store).Perm population
  chain : ∀ token ∈ population, ∃ row, store.tokens.find? token = some row ∧ row.chain = chain

/-- No batch is under way, and stored batches are consistent, as they are in every run. -/
structure Idle (population : List Uuid) (store : SchedulerStore) : Prop where
  consistent : LeasesConsistent store
  unleased : ∀ token ∈ population, ∀ schedule ∈ store.schedules.find? token, schedule.lease = none

/-- A control batch that is claimed and completed. -/
inductive ControlRound (scheduler : AdaptiveScheduler) (store store' : SchedulerStore)
    (picked : List Uuid) (completedAt : Int) : Prop
  | mk (request : PollClaimRequest scheduler.policy) (capacity : CapacityDecision)
      (claimed : SchedulerStore) (claim : PollBatchClaim) (completion : PollCompletionRequest)
      (result : PollCompletion)
      (unlocked : ∀ token ∈ controlTokens store, token ∉ request.locked)
      (hclaim : claimControlBatch scheduler request capacity store = .ok (claimed, some claim))
      (hpicked : claim.members.map (·.tokenId) = picked)
      (hbatch : completion.batchId = claim.batchId)
      (htime : completion.completedAt = completedAt)
      (hcomplete : completeBatch scheduler completion claimed = .ok (store', result)) :
      ControlRound scheduler store store' picked completedAt

/-! ### The order of scans -/

/-- The place of a token in the order of control scans. -/
def scanKey (store : SchedulerStore) (token : Uuid) : Nat ×ₗ Int ×ₗ Int ×ₗ Nat :=
  ((store.schedules.find? token).map controlOrder).getD
    (toLex (0, toLex (0, toLex (0, token))))

/-- The order among tokens of equal scans: admission, then token. -/
def scanRank (store : SchedulerStore) (token : Uuid) : Int ×ₗ Nat :=
  toLex (((store.schedules.find? token).bind fun schedule =>
    schedule.coverage.map (·.admittedAt)).getD 0, token)

section Keys
variable {store : SchedulerStore} {token : Uuid} {schedule : PollSchedule}

theorem scanKey_of_find? (h : store.schedules.find? token = some schedule) :
    scanKey store token = controlOrder schedule := by
  rw [scanKey, h]
  rfl

theorem scanKey_token (store : SchedulerStore) (token : Uuid) :
    (ofLex (ofLex (ofLex (scanKey store token)).2).2).2 = token := by
  rw [scanKey]
  cases hfound : store.schedules.find? token with
  | none => rfl
  | some schedule => exact (Table.find?_eq_some_iff.mp hfound).2

theorem scanKey_injective (store : SchedulerStore) {a b : Uuid}
    (h : scanKey store a = scanKey store b) : a = b := by
  rw [← scanKey_token store a, h, scanKey_token]

theorem scanRank_of_find? (h : store.schedules.find? token = some schedule) :
    scanRank store token =
      toLex ((schedule.coverage.map (·.admittedAt)).getD 0, schedule.tokenId) := by
  rw [scanRank, h, (Table.find?_eq_some_iff.mp h).2]
  rfl

theorem scanRank_injective (store : SchedulerStore) {a b : Uuid}
    (h : scanRank store a = scanRank store b) : a = b :=
  congrArg (fun rank => (ofLex rank).2) h

theorem mem_controlTokens : token ∈ controlTokens store ↔
    ∃ schedule, store.schedules.find? token = some schedule ∧
      schedule.coverageClass = some .retiredControl := by
  rw [controlTokens, List.mem_map]
  constructor
  · intro h
    obtain ⟨schedule, hschedule, rfl⟩ := h
    obtain ⟨hmem, hclass⟩ := List.mem_filter.mp hschedule
    exact ⟨schedule, Table.find?_key hmem, of_decide_eq_true hclass⟩
  · intro h
    obtain ⟨schedule, hfound, hclass⟩ := h
    obtain ⟨hmem, hkey⟩ := Table.find?_eq_some_iff.mp hfound
    exact ⟨schedule, List.mem_filter.mpr ⟨hmem, decide_eq_true hclass⟩, hkey⟩

theorem controlTokens_nodup (store : SchedulerStore) : (controlTokens store).Nodup :=
  store.schedules.nodup.sublist (List.filter_sublist.map _)

end Keys

/-! ### What a control claim picks -/

section Claim
variable {scheduler : AdaptiveScheduler} {store : SchedulerStore} {population : List Uuid}
  {chain : String}

theorem ControlPopulation.mem_iff (h : ControlPopulation population chain store) {token : Uuid} :
    token ∈ population ↔ ∃ schedule, store.schedules.find? token = some schedule ∧
      schedule.coverageClass = some .retiredControl := by
  rw [← h.tokens.mem_iff, mem_controlTokens]

theorem ControlPopulation.nodup (h : ControlPopulation population chain store) :
    population.Nodup := h.tokens.nodup_iff.mp (controlTokens_nodup store)

/-- The rows that a control claim can take. -/
def controlRows (now : Int) (store : SchedulerStore) : List (PollSchedule × Token) :=
  (scheduledTokens store).filter fun row => ControlEligible now row.1

theorem mem_controlRows {now : Int} {row : PollSchedule × Token} (h : row ∈ controlRows now store) :
    store.schedules.find? row.1.tokenId = some row.1 ∧
      store.tokens.find? row.1.tokenId = some row.2 ∧
        row.1.coverageClass = some .retiredControl := by
  obtain ⟨hjoined, heligible⟩ := List.mem_filter.mp h
  obtain ⟨schedule, hschedule, hjoin⟩ := List.mem_filterMap.mp hjoined
  obtain ⟨token, htoken, rfl⟩ := Option.map_eq_some_iff.mp hjoin
  exact ⟨Table.find?_key hschedule, htoken, (of_decide_eq_true heligible).1⟩

theorem controlRows_nodup (now : Int) (store : SchedulerStore) :
    ((controlRows now store).map fun row => row.1.tokenId).Nodup :=
  (scheduledTokens_nodup store).sublist
    ((List.filter_sublist (p := fun row : PollSchedule × Token => ControlEligible now row.1)).map
      fun row : PollSchedule × Token => row.1.tokenId)

/-- They are the population. -/
theorem controlRows_perm (hpopulation : ControlPopulation population chain store)
    (hidle : Idle population store) (now : Int) :
    ((controlRows now store).map fun row => row.1.tokenId).Perm population := by
  rw [List.perm_ext_iff_of_nodup (controlRows_nodup now store) hpopulation.nodup]
  intro token
  rw [List.mem_map, hpopulation.mem_iff]
  constructor
  · intro h
    obtain ⟨row, hrow, rfl⟩ := h
    exact ⟨row.1, (mem_controlRows hrow).1, (mem_controlRows hrow).2.2⟩
  · intro h
    obtain ⟨schedule, hfound, hclass⟩ := h
    have hmember := hpopulation.mem_iff.mpr ⟨schedule, hfound, hclass⟩
    obtain ⟨row, hrow, _⟩ := hpopulation.chain token hmember
    obtain ⟨hmem, hkey⟩ := Table.find?_eq_some_iff.mp hfound
    refine ⟨(schedule, row), List.mem_filter.mpr ⟨?_, ?_⟩, hkey⟩
    · exact List.mem_filterMap.mpr ⟨schedule, hmem, by rw [hkey, hrow]; rfl⟩
    · refine decide_eq_true ⟨hclass, fun lease hlease => ?_⟩
      rw [hidle.unleased token hmember schedule hfound] at hlease
      cases hlease

/-- In the order of scans they are the population in that order. -/
theorem sortOn_controlRows (hpopulation : ControlPopulation population chain store)
    (hidle : Idle population store) (now : Int) :
    sortOn (scanKey store) population =
      (sortOn (fun row => controlOrder row.1) (controlRows now store)).map
        fun row => row.1.tokenId := by
  have hperm := sortOn_perm (fun row : PollSchedule × Token => controlOrder row.1)
    (controlRows now store)
  refine sortOn_eq_of_perm ((hperm.map _).trans (controlRows_perm hpopulation hidle now)) ?_
  have hdistinct := (hperm.map fun row => row.1.tokenId).nodup_iff.mpr (controlRows_nodup now store)
  rw [List.nodup_iff_pairwise_ne, List.pairwise_map] at hdistinct
  rw [List.pairwise_map]
  refine ((sortOn_pairwise _ _).and hdistinct).imp_of_mem fun {a b} ha hb hab => ?_
  have hfound : ∀ row ∈ sortOn (fun row => controlOrder row.1) (controlRows now store),
      scanKey store row.1.tokenId = controlOrder row.1 := fun row hrow =>
    scanKey_of_find? (mem_controlRows ((mem_sortOn _ _ _).mp hrow)).1
  refine lt_of_le_of_ne ?_ fun heq => hab.2 (scanKey_injective store heq)
  rw [hfound a ha, hfound b hb]
  exact hab.1

/-- A control claim takes the first tokens of the population in the order of scans. -/
theorem selectRows_control (hpopulation : ControlPopulation population chain store)
    (hidle : Idle population store) {now : Int} {limit : Nat} {locked : List Uuid}
    (hunlocked : ∀ token ∈ controlTokens store, token ∉ locked) {found : String}
    {rows : List (PollSchedule × Token)}
    (h : selectRows (ControlEligible now ·) controlOrder limit locked store = some (found, rows)) :
    rows.map (fun row => row.1.tokenId) = (sortOn (scanKey store) population).take limit := by
  have hperm := controlRows_perm hpopulation hidle now
  have hmember : ∀ row ∈ controlRows now store, row.1.tokenId ∈ population := fun row hrow =>
    hperm.mem_iff.mp (List.mem_map_of_mem hrow)
  have hchain : ∀ row ∈ controlRows now store, row.2.chain = chain := by
    intro row hrow
    obtain ⟨token, htoken, hon⟩ := hpopulation.chain _ (hmember row hrow)
    rw [(mem_controlRows hrow).2.1, Option.some.injEq] at htoken
    exact htoken ▸ hon
  have hordered : orderedRows controlOrder locked (controlRows now store) =
      sortOn (fun row => controlOrder row.1) (controlRows now store) := by
    refine List.filter_eq_self.mpr fun row hrow => decide_eq_true ?_
    have hin := (mem_sortOn _ _ _).mp hrow
    exact hunlocked _ (hpopulation.tokens.mem_iff.mpr (hmember row hin))
  unfold selectRows at h
  dsimp only at h
  split at h
  · cases h
  · next head rest hhead =>
    have hin : head ∈ controlRows now store := by
      have hfirst : head ∈ orderedRows controlOrder locked (controlRows now store) :=
        hhead ▸ List.mem_cons_self
      rw [hordered] at hfirst
      exact (mem_sortOn _ _ _).mp hfirst
    have hall : (controlRows now store).filter (fun row => row.2.chain = head.2.chain) =
        controlRows now store :=
      List.filter_eq_self.mpr fun row hrow =>
        decide_eq_true ((hchain row hrow).trans (hchain head hin).symm)
    obtain ⟨_, hrows⟩ := Prod.mk.inj (Option.some.inj h)
    rw [← hrows, List.map_take, sortOn_controlRows hpopulation hidle now, ← hordered]
    exact congrArg (fun rows => ((orderedRows controlOrder locked rows).map
      fun row => row.1.tokenId).take limit) hall

theorem claimControlBatch_some {request : PollClaimRequest scheduler.policy}
    {capacity : CapacityDecision} {claimed : SchedulerStore} {claim : PollBatchClaim}
    (h : claimControlBatch scheduler request capacity store = .ok (claimed, some claim)) :
    ∃ found rows batch,
      selectRows (ControlEligible request.now ·) controlOrder
        scheduler.policy.controlScanTokensPerMinute request.locked store = some (found, rows) ∧
      Granted scheduler request store claimed batch capacity
        (rows.map (controlMember request.now)) ∧
      claim.batchId = request.batchId ∧
      claim.members.map (·.tokenId) = rows.map fun row => row.1.tokenId := by
  unfold claimControlBatch at h
  split at h
  · cases h
  · split at h
    · cases h
    · cases h
    · next found row rest hselect =>
      simp only [bind_eq_ok, pure_eq_ok] at h
      obtain ⟨granted, hgranted, hresult⟩ := h
      cases hresult
      have hmember : ∀ member ∈ (row :: rest).map (controlMember request.now),
          member.schedule ∈ store.schedules.rows ∧ LeaseFree request.now member.schedule := by
        intro member hmember
        obtain ⟨selected, hselected, rfl⟩ := List.mem_map.mp hmember
        have hrow := mem_selectRows hselect hselected
        exact ⟨hrow.1, (of_decide_eq_true hrow.2.1).2⟩
      have hdistinct : (((row :: rest).map (controlMember request.now)).map
          fun member => member.schedule.tokenId).Nodup := by
        rw [List.map_map]
        exact selectRows_nodup hselect
      obtain ⟨batch, hgrant⟩ := grantBatch_granted (fun member hin => (hmember member hin).1)
        (fun member hin => (hmember member hin).2) hdistinct hgranted
      refine ⟨found, row :: rest, batch, hselect, hgrant, ?_⟩
      unfold grantBatch at hgranted
      split at hgranted
      · cases hgranted
        exact ⟨rfl, by rw [List.map_map, List.map_map]; rfl⟩
      · cases hgranted
      · cases hgranted

end Claim

/-! ### What a completion of a control batch does -/

/-- A schedule after a control scan. -/
structure Scanned (completedAt : Int) (before after : PollSchedule) : Prop where
  at_completion : after.lastControlScanAt = some completedAt
  counted : after.controlScanCount = before.controlScanCount + 1
  unleased : after.lease = none
  admitted : after.coverage.map (·.admittedAt) = before.coverage.map (·.admittedAt)

section Completion
variable {scheduler : AdaptiveScheduler} {store store' : SchedulerStore} {batch : PollBatch}

theorem completeMember_scanned {completedAt : Int} {intervals : CompletionIntervals}
    {pair : PollSchedule × PollBatchMember}
    (h : completeMember scheduler completedAt batch intervals store pair = .ok store') :
    ∃ row evidence, (pair.2.coverageClass = some .retiredControl →
        Scanned completedAt pair.1 row) ∧ row.tokenId = pair.1.tokenId ∧
      store' = { store with
        schedules := store.schedules.write [row]
        coverageDecisions := evidence } := by
  unfold completeMember at h
  dsimp only at h
  cases hmapped : pair.1.coverage with
  | none =>
    rw [hmapped] at h
    cases h
  | some projection =>
    rw [hmapped] at h
    simp only [bind_eq_ok] at h
    obtain ⟨coverage, _, boundary, _, h⟩ := h
    have hscanned : pair.2.coverageClass = some .retiredControl → Scanned completedAt pair.1
        (polledRow scheduler completedAt batch intervals pair.2 coverage boundary projection
          pair.1) := by
      intro hcontrol
      refine ⟨if_pos hcontrol, if_pos hcontrol, rfl, ?_⟩
      rw [hmapped]
      rfl
    split at h
    · rw [pure_eq_ok] at h
      exact ⟨_, store.coverageDecisions, hscanned, rfl, h.symm⟩
    · obtain ⟨table, rfl⟩ := recordCoverageDecision_eq_ok h
      exact ⟨_, table, hscanned, rfl, rfl⟩

/-- A first completion scans the tokens that the batch holds as control members. -/
theorem completeBatch_scans {request : PollCompletionRequest} {result : PollCompletion}
    (hfound : store.batches.find? request.batchId = some batch)
    (hopen : store.outcomes.find? request.batchId = none)
    (hcontrol : ∀ member ∈ batchMembers batch store, member.coverageClass = some .retiredControl)
    (h : completeBatch scheduler request store = .ok (store', result)) :
    ∀ member ∈ batchMembers batch store, ∀ task ∈ store.schedules.find? member.tokenId,
      ∃ row, store'.schedules.find? member.tokenId = some row ∧
        Scanned request.completedAt task row := by
  unfold completeBatch at h
  rw [hfound] at h
  dsimp only at h
  rw [hopen] at h
  simp only [completeOwnedBatch, guard_eq_ok, bind_eq_ok, pure_eq_ok] at h
  obtain ⟨effective, _, target, _, _, outcome, _, mid, hmid, hresult⟩ := h
  cases hresult
  obtain ⟨rows, evidence, hrows, hall, rfl⟩ := completeMembers_rows completeMember_scanned hmid
  intro member hmember task htask
  obtain ⟨hstored, hkey⟩ := Table.find?_eq_some_iff.mp htask
  have hlocked : task ∈ completionSchedules
      ((batchMembers batch store).map (·.tokenId)) store.schedules :=
    mem_completionSchedules.mpr ⟨hstored, hkey ▸ List.mem_map_of_mem hmember⟩
  obtain ⟨pair, hpair, rfl⟩ := exists_memberPair hlocked hmember hkey.symm
  obtain ⟨row, hrow, hrowKey⟩ := hall pair hpair
  have hfind : (store.schedules.write rows).find? member.tokenId =
      some (Table.written PollSchedule.tokenId rows pair.1) := by
    rw [Table.find?_write, htask, Option.map_some]
  refine ⟨_, hfind, ?_⟩
  cases Table.written_mem_or PollSchedule.tokenId rows pair.1 with
  | inr huntouched => exact absurd hrowKey (huntouched.2 row hrow)
  | inl hnew =>
    obtain ⟨source, hsource, hsourceKey, hscanned⟩ := hrows _ hnew
    obtain ⟨hsourceLocked, hsourceMember, _⟩ := mem_memberPairs hsource
    have hsame : source.1 = pair.1 :=
      store.schedules.eq_of_key_eq (mem_completionSchedules.mp hsourceLocked).1 hstored
        (hsourceKey.symm.trans (Table.key_written rows pair.1))
    rw [← hsame] at hscanned ⊢
    exact hscanned (hcontrol source.2 hsourceMember)

end Completion

/-! ### Rounds -/

/-- What a control batch does to the population. -/
structure Scans (population : List Uuid) (limit : Nat) (store store' : SchedulerStore)
    (picked : List Uuid) (completedAt : Int) : Prop where
  first : picked = (sortOn (scanKey store) population).take limit
  consistent : LeasesConsistent store'
  scanned : ∀ token ∈ picked, ∀ task ∈ store.schedules.find? token,
    ∃ row, store'.schedules.find? token = some row ∧ Scanned completedAt task row
  kept : ∀ token ∈ population, token ∉ picked →
    store'.schedules.find? token = store.schedules.find? token

section Rounds
variable {scheduler : AdaptiveScheduler} {store store' : SchedulerStore} {population : List Uuid}
  {chain : String} {picked : List Uuid} {completedAt : Int}

/-- The members of a new batch are those it was granted. -/
theorem Granted.mem_batchMembers {request : PollClaimRequest scheduler.policy}
    {batch : PollBatch} {capacity : CapacityDecision} {members : List GrantedMember}
    (h : Granted scheduler request store store' batch capacity members)
    (hconsistent : LeasesConsistent store) {member : PollBatchMember} :
    member ∈ batchMembers batch store' ↔
      ∃ granted ∈ members, member = memberRow batch capacity granted := by
  rw [batchMembers, mem_sortOn, List.mem_filter, decide_eq_true_eq, h.memberRows]
  constructor
  · intro hmember
    obtain ⟨hstored, hbatch, _⟩ := hmember
    cases List.mem_append.mp hstored with
    | inl hold =>
      obtain ⟨old, hfound, _⟩ := hconsistent.memberBatch member hold
      exact absurd hbatch (h.find?_old hfound).2
    | inr hnew =>
      obtain ⟨granted, hgranted, rfl⟩ := List.mem_map.mp hnew
      exact ⟨granted, hgranted, rfl⟩
  · intro hmember
    obtain ⟨granted, hgranted, rfl⟩ := hmember
    exact ⟨List.mem_append_right _ (List.mem_map_of_mem hgranted), rfl, rfl⟩

/-- A new batch has no outcome. -/
theorem Granted.outcome_none {request : PollClaimRequest scheduler.policy}
    {batch : PollBatch} {capacity : CapacityDecision} {members : List GrantedMember}
    (h : Granted scheduler request store store' batch capacity members)
    (hconsistent : LeasesConsistent store) : store'.outcomes.find? request.batchId = none := by
  rw [h.outcomes_eq, Table.find?_eq_none_iff]
  intro outcome houtcome heq
  obtain ⟨old, hold⟩ := hconsistent.outcomeBatch outcome houtcome
  rw [heq, h.fresh] at hold
  cases hold

/-- A control batch scans the tokens whose scan is longest ago and no others. -/
theorem ControlRound.scans (h : ControlRound scheduler store store' picked completedAt)
    (hpopulation : ControlPopulation population chain store) (hidle : Idle population store) :
    Scans population scheduler.policy.controlScanTokensPerMinute store store' picked
      completedAt := by
  cases h with
  | mk request capacity claimed claim completion result unlocked hclaim hpicked hbatch htime
      hcomplete =>
    obtain ⟨found, rows, batch, hselect, hgrant, hid, hmembers⟩ := claimControlBatch_some hclaim
    have htokens : rows.map (fun row => row.1.tokenId) = picked := hmembers.symm.trans hpicked
    have hconsistent := hidle.consistent.granted hgrant
    have hnew : claimed.batches.find? completion.batchId = some batch := by
      rw [hbatch, hid, ← hgrant.batch_id]
      exact hgrant.find?_new
    have hopen : claimed.outcomes.find? completion.batchId = none := by
      rw [hbatch, hid]
      exact hgrant.outcome_none hidle.consistent
    have hmember : ∀ token, (∃ member ∈ batchMembers batch claimed, member.tokenId = token) ↔
        token ∈ picked := by
      intro token
      rw [← htokens, List.mem_map]
      constructor
      · intro hex
        obtain ⟨member, hin, rfl⟩ := hex
        obtain ⟨granted, hgranted, rfl⟩ := (hgrant.mem_batchMembers hidle.consistent).mp hin
        obtain ⟨row, hrow, rfl⟩ := List.mem_map.mp hgranted
        exact ⟨row, hrow, rfl⟩
      · intro hex
        obtain ⟨row, hrow, rfl⟩ := hex
        exact ⟨_, (hgrant.mem_batchMembers hidle.consistent).mpr
          ⟨_, List.mem_map_of_mem hrow, rfl⟩, rfl⟩
    have hcontrol : ∀ member ∈ batchMembers batch claimed,
        member.coverageClass = some .retiredControl := by
      intro member hin
      obtain ⟨granted, hgranted, rfl⟩ := (hgrant.mem_batchMembers hidle.consistent).mp hin
      obtain ⟨row, _, rfl⟩ := List.mem_map.mp hgranted
      rfl
    have hleased : claimed.schedules = store.schedules.write
        ((rows.map (controlMember request.now)).map (leasedRow batch capacity)) := by
      rw [hgrant.frame]
    refine ⟨?_, ?_, ?_, ?_⟩
    · rw [← htokens]
      exact selectRows_control hpopulation hidle unlocked hselect
    · cases completeBatch_eq_ok hcomplete with
      | inl hexisting =>
        obtain ⟨_, _, rfl, _⟩ := hexisting
        exact hconsistent
      | inr hfirst =>
        obtain ⟨_, _, _, hcompleted⟩ := hfirst
        exact hconsistent.completed hcompleted
    · intro token htoken task htask
      rw [← htokens, List.mem_map] at htoken
      obtain ⟨row, hrow, rfl⟩ := htoken
      have hgranted := List.mem_map_of_mem (f := controlMember request.now) hrow
      obtain rfl : row.1 = task := Option.some.inj
        ((Table.find?_key (hgrant.selected _ hgranted)).symm.trans htask)
      have hafter : claimed.schedules.find? row.1.tokenId =
          some (leasedRow batch capacity (controlMember request.now row)) := by
        rw [hleased]
        refine Table.find?_write_of_mem (a := leasedRow batch capacity _) ?_
          (List.mem_map_of_mem hgranted) htask
        rw [List.map_map]
        exact hgrant.distinct
      obtain ⟨member, hin, hkey⟩ := (hmember row.1.tokenId).mpr
        (htokens ▸ List.mem_map_of_mem (f := fun row => row.1.tokenId) hrow)
      obtain ⟨last, hlast, hscanned⟩ :=
        completeBatch_scans hnew hopen hcontrol hcomplete member hin _ (hkey ▸ hafter)
      rw [hkey] at hlast
      exact ⟨last, hlast, htime ▸ hscanned.at_completion, hscanned.counted, hscanned.unleased,
        hscanned.admitted⟩
    · intro token _ hnot
      have hclaimed : claimed.schedules.find? token = store.schedules.find? token := by
        rw [hleased]
        refine Table.find?_write_of_ne fun after hafter heq => ?_
        obtain ⟨granted, hgranted, rfl⟩ := List.mem_map.mp hafter
        obtain ⟨row, hrow, rfl⟩ := List.mem_map.mp hgranted
        refine hnot ?_
        rw [← htokens, ← heq]
        exact List.mem_map_of_mem (f := fun row : PollSchedule × Token => row.1.tokenId) hrow
      rw [← hclaimed]
      cases completeBatch_eq_ok hcomplete with
      | inl hexisting =>
        obtain ⟨_, _, rfl, _⟩ := hexisting
        rfl
      | inr hfirst =>
        obtain ⟨owner, _, written, hcompleted⟩ := hfirst
        obtain rfl : batch = owner := Option.some.inj (hnew.symm.trans hcompleted.found)
        rw [hcompleted.frame]
        refine Table.find?_write_of_ne fun after hafter heq => ?_
        obtain ⟨task, htask, hkey, _⟩ := hcompleted.polled after hafter
        obtain ⟨member, hin, hmemberKey⟩ := (hcompleted.members task htask).mp ⟨after, hafter, hkey⟩
        exact hnot ((hmember token).mp ⟨member, hin, hmemberKey.trans (hkey.symm.trans heq)⟩)

/-- An earlier scan, or none, comes first. -/
theorem controlOrder_lt_of_scan {a b : PollSchedule} (hb : b.lastControlScanAt = some completedAt)
    (ha : ∀ scannedAt ∈ a.lastControlScanAt, scannedAt < completedAt) :
    controlOrder a < controlOrder b := by
  rw [controlOrder, controlOrder, Prod.Lex.toLex_lt_toLex]
  cases hscan : a.lastControlScanAt with
  | none => exact .inl (by simp [hb])
  | some scannedAt =>
    refine .inr ⟨by simp [hb], ?_⟩
    rw [Prod.Lex.toLex_lt_toLex]
    exact .inl (by simpa [hb] using ha scannedAt hscan)

/-- The scans of the population lie before an instant. -/
def ScannedBefore (population : List Uuid) (store : SchedulerStore) (instant : Int) : Prop :=
  ∀ token ∈ population, ∀ schedule ∈ store.schedules.find? token,
    ∀ scannedAt ∈ schedule.lastControlScanAt, scannedAt < instant

theorem ControlPopulation.find? (h : ControlPopulation population chain store) {token : Uuid}
    (htoken : token ∈ population) : ∃ schedule, store.schedules.find? token = some schedule := by
  obtain ⟨schedule, hfound, _⟩ := h.mem_iff.mp htoken
  exact ⟨schedule, hfound⟩

section Scan
variable {limit : Nat}

theorem Scans.mem_population (h : Scans population limit store store' picked completedAt)
    {token : Uuid} (htoken : token ∈ picked) : token ∈ population := by
  rw [h.first] at htoken
  exact (mem_sortOn _ _ _).mp (List.mem_of_mem_take htoken)

/-- A scan keeps the order of admission. -/
theorem Scans.scanRank_eq (h : Scans population limit store store' picked completedAt)
    (hpopulation : ControlPopulation population chain store) {token : Uuid}
    (htoken : token ∈ population) : scanRank store' token = scanRank store token := by
  by_cases hpicked : token ∈ picked
  · obtain ⟨task, htask⟩ := hpopulation.find? htoken
    obtain ⟨row, hrow, hscanned⟩ := h.scanned token hpicked task htask
    rw [scanRank, scanRank, hrow, htask, Option.bind_some, Option.bind_some, hscanned.admitted]
  · rw [scanRank, scanRank, h.kept token htoken hpicked]

theorem Scans.idle (h : Scans population limit store store' picked completedAt)
    (hpopulation : ControlPopulation population chain store) (hidle : Idle population store) :
    Idle population store' := by
  refine ⟨h.consistent, fun token htoken schedule hschedule => ?_⟩
  by_cases hpicked : token ∈ picked
  · obtain ⟨task, htask⟩ := hpopulation.find? htoken
    obtain ⟨row, hrow, hscanned⟩ := h.scanned token hpicked task htask
    rw [hrow] at hschedule
    cases hschedule
    exact hscanned.unleased
  · rw [h.kept token htoken hpicked] at hschedule
    exact hidle.unleased token htoken schedule hschedule

theorem Scans.scannedBefore (h : Scans population limit store store' picked completedAt)
    (hpopulation : ControlPopulation population chain store) {instant : Int}
    (hbefore : ScannedBefore population store instant) (hlater : completedAt < instant) :
    ScannedBefore population store' instant := by
  intro token htoken schedule hschedule scannedAt hscan
  by_cases hpicked : token ∈ picked
  · obtain ⟨task, htask⟩ := hpopulation.find? htoken
    obtain ⟨row, hrow, hscanned⟩ := h.scanned token hpicked task htask
    rw [hrow] at hschedule
    cases hschedule
    rw [hscanned.at_completion] at hscan
    cases hscan
    exact hlater
  · rw [h.kept token htoken hpicked] at hschedule
    exact hbefore token htoken schedule hschedule scannedAt hscan

/-- Counts grow by one for the tokens of the batch. -/
theorem Scans.controlScanCount_eq (h : Scans population limit store store' picked completedAt)
    {token : Uuid} (htoken : token ∈ population) {task row : PollSchedule}
    (htask : store.schedules.find? token = some task)
    (hrow : store'.schedules.find? token = some row) :
    row.controlScanCount = task.controlScanCount + if token ∈ picked then 1 else 0 := by
  by_cases hpicked : token ∈ picked
  · obtain ⟨after, hafter, hscanned⟩ := h.scanned token hpicked task htask
    obtain rfl : row = after := Option.some.inj (hrow.symm.trans hafter)
    rw [if_pos hpicked, hscanned.counted]
  · rw [h.kept token htoken hpicked, htask] at hrow
    cases hrow
    rw [if_neg hpicked, Nat.add_zero]

/-- A control batch is a round of service. -/
theorem Scans.served (h : Scans population limit store store' picked completedAt)
    (hpopulation : ControlPopulation population chain store)
    (hbefore : ScannedBefore population store completedAt) {rank : Uuid → Int ×ₗ Nat}
    (hrank : ∀ token ∈ population, scanRank store token = rank token) :
    Served population rank limit (scanKey store) (scanKey store') picked := by
  have hscanned : ∀ token ∈ picked, ∃ row, store'.schedules.find? token = some row ∧
      row.lastControlScanAt = some completedAt ∧ scanKey store' token = controlOrder row := by
    intro token htoken
    obtain ⟨task, htask⟩ := hpopulation.find? (h.mem_population htoken)
    obtain ⟨row, hrow, hscan⟩ := h.scanned token htoken task htask
    exact ⟨row, hrow, hscan.at_completion, scanKey_of_find? hrow⟩
  refine ⟨fun a _ b _ heq => scanKey_injective store heq, h.first, ?_, ?_, ?_⟩
  · intro token htoken hnot
    rw [scanKey, scanKey, h.kept token htoken hnot]
  · intro a ha hnot b hb
    obtain ⟨task, htask⟩ := hpopulation.find? ha
    obtain ⟨row, _, hscan, hkey⟩ := hscanned b hb
    rw [scanKey_of_find? ((h.kept a ha hnot).trans htask), hkey]
    exact controlOrder_lt_of_scan hscan fun scannedAt hscan => hbefore a ha task htask scannedAt hscan
  · intro a ha b hb hlt
    obtain ⟨rowA, hfoundA, hscanA, hkeyA⟩ := hscanned a ha
    obtain ⟨rowB, hfoundB, hscanB, hkeyB⟩ := hscanned b hb
    have hrankOf : ∀ token ∈ picked, rank token = scanRank store' token := fun token htoken =>
      ((h.scanRank_eq hpopulation (h.mem_population htoken)).trans
        (hrank token (h.mem_population htoken))).symm
    rw [hrankOf a ha, hrankOf b hb, scanRank_of_find? hfoundA, scanRank_of_find? hfoundB] at hlt
    rw [hkeyA, hkeyB, controlOrder, controlOrder, hscanA, hscanB, Prod.Lex.toLex_lt_toLex]
    refine .inr ⟨rfl, ?_⟩
    rw [Prod.Lex.toLex_lt_toLex]
    exact .inr ⟨rfl, hlt⟩

end Scan

end Rounds

end PumpResearch.Scheduling
