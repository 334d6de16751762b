import PumpResearch.Discovery.PumpPortalMessage
import PumpResearch.Instants
import PumpResearch.Library.KeyedTable
import PumpResearch.Library.Results

/-! Observations of one API response, one for each pair, and the evidence of those that were
delivered before. -/
namespace PumpResearch.Collection
open Discovery KeyedTable RelatedLists Results

/-! ### Rows -/

section Recording
variable {Facts : Type}

/-- The market facts of a pair are passed on as they are. -/
structure ObservationCreate (Facts : Type) where
  pairId : Uuid
  sourceObservedAt : Option IsoDatetime
  facts : Facts

structure Observation (Facts : Type) where
  receivedAt : Int
  apiRequestLogId : Uuid
  pairId : Uuid
  sourceObservedAt : Option Int
  facts : Facts

/-- The columns of `uq_observations_request_pair`. -/
structure ObservationKey where
  receivedAt : Int
  apiRequestLogId : Uuid
  pairId : Uuid
deriving DecidableEq

def Observation.key (row : Observation Facts) : ObservationKey :=
  ⟨row.receivedAt, row.apiRequestLogId, row.pairId⟩

/-- The key of a conflict stands for the digest of its parts. -/
structure DeduplicationConflict where
  recordType : String
  idempotencyKey : ObservationKey
  occurredAt : Int
deriving DecidableEq

structure ReceivedRequest where
  id : Uuid
  receivedAt : Option Int

structure ObservationStore (Facts : Type) where
  observations : Table (@Observation.key Facts)
  conflicts : List DeduplicationConflict

inductive ObservationError where
  | value (message : String)
  | overflow
  | data
deriving DecidableEq

/-! ### Recording -/

/-- `_normalize_utc`. -/
def normalizeUtc (fieldName : String) : Option IsoDatetime → Except ObservationError (Option Int)
  | none => .ok none
  | some ⟨_, none⟩ => .error (.value (fieldName ++ " must be timezone-aware"))
  | some ⟨wallClock, some utcoffset⟩ =>
    if minInstant ≤ wallClock - utcoffset ∧ wallClock - utcoffset ≤ maxInstant then
      .ok (some (wallClock - utcoffset))
    else .error .overflow

/-- The values of one observation. -/
def observationRow (receivedAt : Int) (requestId : Uuid) (observation : ObservationCreate Facts) :
    Except ObservationError (Observation Facts) := do
  let sourceObservedAt ← normalizeUtc "source_observed_at" observation.sourceObservedAt
  return ⟨receivedAt, requestId, observation.pairId, sourceObservedAt, observation.facts⟩

def observationConflict (row : Observation Facts) : DeduplicationConflict where
  recordType := "observation"
  idempotencyKey := row.key
  occurredAt := row.receivedAt

variable (accepts : Observation Facts → Bool)

/-- `ObservationRepository.record_many`. The statement fails as a whole when the database does not
accept the columns of one row. -/
def recordMany (request : ReceivedRequest) (observations : List (ObservationCreate Facts))
    (store : ObservationStore Facts) : Except ObservationError (ObservationStore Facts × Nat) :=
  match request.receivedAt with
  | none =>
    .error (.value "Observations require an API request with a received_at timestamp")
  | some receivedAt =>
    if observations.isEmpty then .ok (store, 0)
    else do
      let values ← observations.mapM (observationRow receivedAt request.id)
      if values.all accepts then
        let insertedPairIds := ((store.observations.added values).map (·.pairId)).toFinset
        let inserted := insertedPairIds.card
        let conflicts :=
          if inserted ≠ values.length then
            (values.filter fun value => value.pairId ∉ insertedPairIds).map observationConflict
          else []
        .ok (⟨values.foldl Table.insertNew store.observations, store.conflicts ++ conflicts⟩,
          inserted)
      else .error .data

/-! ### Accounting -/

/-- Every element was inserted or left a conflict. -/
structure Accounted (receivedAt : Int) (requestId : Uuid)
    (observations : List (ObservationCreate Facts)) (store store' : ObservationStore Facts)
    (inserted : Nat) : Prop where
  split : ∃ (kept rejected : List (ObservationCreate Facts)) (rows : List (Observation Facts)),
    (kept ++ rejected).Perm observations ∧
    store'.observations.rows = store.observations.rows ++ rows ∧
    (rows.map Observation.key).Perm
      (kept.map fun observation => ⟨receivedAt, requestId, observation.pairId⟩) ∧
    store'.conflicts = store.conflicts ++ rejected.map fun observation =>
      ⟨"observation", ⟨receivedAt, requestId, observation.pairId⟩, receivedAt⟩
  insertions : store'.observations.rows.length = store.observations.rows.length + inserted
  counted : inserted + (store'.conflicts.length - store.conflicts.length) = observations.length

/-- The call goes through, and no pair that is new under the request is delivered twice. -/
def DeliveredOnce (receivedAt : Int) (requestId : Uuid)
    (observations : List (ObservationCreate Facts)) (store : ObservationStore Facts) : Prop :=
  (∀ observation ∈ observations, ∃ row, observationRow receivedAt requestId observation = .ok row ∧
    accepts row = true) ∧
  ∀ pairId, store.observations.find? ⟨receivedAt, requestId, pairId⟩ = none →
    observations.countP (fun observation => observation.pairId = pairId) ≤ 1

section Values
variable {accepts} {receivedAt : Int} {requestId : Uuid}
  {observations : List (ObservationCreate Facts)} {store : ObservationStore Facts}
  {values : List (Observation Facts)}

theorem observationRow_eq_ok {observation : ObservationCreate Facts} {row : Observation Facts}
    (h : observationRow receivedAt requestId observation = .ok row) :
    row.pairId = observation.pairId ∧
      row.key = ⟨receivedAt, requestId, observation.pairId⟩ ∧
      observationConflict row =
        ⟨"observation", ⟨receivedAt, requestId, observation.pairId⟩, receivedAt⟩ := by
  simp only [observationRow, bind_eq_ok, pure_eq_ok] at h
  obtain ⟨_, _, rfl⟩ := h
  exact ⟨rfl, rfl, rfl⟩

/-- The values are those of the observations, one by one. -/
theorem filter_values (hvalues : List.Forall₂
      (fun observation row => observationRow receivedAt requestId observation = .ok row)
      observations values) (p : Uuid → Bool) :
    List.Forall₂ (fun observation row => observationRow receivedAt requestId observation = .ok row)
      (observations.filter fun observation => p observation.pairId)
      (values.filter fun row => p row.pairId) := by
  induction hvalues with
  | nil => exact .nil
  | @cons observation row _ _ hrow _ ih =>
    have hpair := (observationRow_eq_ok hrow).1
    rw [List.filter_cons, List.filter_cons, hpair]
    split
    · exact .cons hrow ih
    · exact ih

end Values

section Insertion
variable {receivedAt : Int} {requestId : Uuid} {values : List (Observation Facts)}
  {table : Table (@Observation.key Facts)}

theorem mem_of_mem_added {row : Observation Facts} (h : row ∈ table.added values) : row ∈ values :=
  (table.added_append_skipped_perm values).mem_iff.mp (List.mem_append_left _ h)

variable (hkeys : ∀ row ∈ values, row.key = ⟨receivedAt, requestId, row.pairId⟩)
include hkeys

theorem keys_added : (table.added values).map Observation.key =
    ((table.added values).map (·.pairId)).map fun pairId => ⟨receivedAt, requestId, pairId⟩ := by
  rw [List.map_map]
  exact List.map_congr_left fun row hrow => hkeys row (mem_of_mem_added hrow)

/-- A request inserts a pair once. -/
theorem nodup_addedPairs : ((table.added values).map (·.pairId)).Nodup := by
  have hnodup := table.nodup_added values
  rw [List.map_append, keys_added hkeys] at hnodup
  exact (List.nodup_append.mp hnodup).2.1.of_map

theorem mem_addedPairs {pairId : Uuid} : pairId ∈ (table.added values).map (·.pairId) ↔
    pairId ∈ values.map (·.pairId) ∧ table.find? ⟨receivedAt, requestId, pairId⟩ = none := by
  have hinjective : Function.Injective fun pairId : Uuid =>
      (⟨receivedAt, requestId, pairId⟩ : ObservationKey) := fun a b h => by
    cases h
    rfl
  have hvalues : values.map Observation.key =
      (values.map (·.pairId)).map fun pairId => ⟨receivedAt, requestId, pairId⟩ := by
    rw [List.map_map]
    exact List.map_congr_left hkeys
  have hmem : ⟨receivedAt, requestId, pairId⟩ ∈ (table.added values).map Observation.key ↔
      ⟨receivedAt, requestId, pairId⟩ ∈ values.map Observation.key ∧
        table.find? ⟨receivedAt, requestId, pairId⟩ = none := Table.mem_keys_added
  rw [keys_added hkeys, hvalues, List.mem_map_of_injective hinjective,
    List.mem_map_of_injective hinjective] at hmem
  exact hmem

/-- The inserted pairs name no row that was skipped exactly when no new pair occurs twice. -/
theorem skipped_iff_once :
    (∀ row ∈ table.skipped values, row.pairId ∉ (table.added values).map (·.pairId)) ↔
      ∀ pairId, table.find? ⟨receivedAt, requestId, pairId⟩ = none →
        values.countP (fun row => row.pairId = pairId) ≤ 1 := by
  have hcount (pairId : Uuid) : values.countP (fun row => row.pairId = pairId) =
      ((table.added values).map (·.pairId)).count pairId +
        (table.skipped values).countP (fun row => row.pairId = pairId) := by
    rw [← (table.added_append_skipped_perm values).countP_eq, List.countP_append, List.count,
      List.countP_map]
    exact congrArg (· + _) (List.countP_congr fun row _ => by simp)
  constructor
  · intro hskipped pairId hfree
    have hone : ((table.added values).map (·.pairId)).count pairId ≤ 1 :=
      List.nodup_iff_count_le_one.mp (nodup_addedPairs hkeys) pairId
    have hnone : (table.skipped values).countP (fun row => row.pairId = pairId) = 0 := by
      rw [List.countP_eq_zero]
      intro row hrow heq
      rw [decide_eq_true_eq] at heq
      refine hskipped row hrow ((mem_addedPairs hkeys).mpr ⟨?_, heq ▸ hfree⟩)
      exact List.mem_map.mpr ⟨row, (table.added_append_skipped_perm values).mem_iff.mp
        (List.mem_append_right _ hrow), rfl⟩
    rw [hcount, hnone]
    exact hone
  · intro honce row hrow hadded
    have hle := honce row.pairId ((mem_addedPairs hkeys).mp hadded).2
    have hfirst : 0 < ((table.added values).map (·.pairId)).count row.pairId :=
      List.count_pos_iff.mpr hadded
    have hsecond : 0 < (table.skipped values).countP (fun other => other.pairId = row.pairId) :=
      List.countP_pos_iff.mpr ⟨row, hrow, decide_eq_true rfl⟩
    rw [hcount] at hle
    omega

end Insertion

section Claim
variable {accepts} {request : ReceivedRequest} {receivedAt : Int}
  {observations : List (ObservationCreate Facts)} {store store' : ObservationStore Facts}
  {inserted : Nat}

/-- The conflicts of a call: rows of pairs that it did not insert. -/
def rejectedRows (table : Table (@Observation.key Facts))
    (values : List (Observation Facts)) : List (Observation Facts) :=
  values.filter fun value => value.pairId ∉ (table.added values).map (·.pairId)

/-- They are the skipped rows, less those whose pair was inserted. -/
theorem rejectedRows_perm (table : Table (@Observation.key Facts))
    (values : List (Observation Facts)) :
    (rejectedRows table values).Perm ((table.skipped values).filter fun value =>
      value.pairId ∉ (table.added values).map (·.pairId)) := by
  have hperm := (table.added_append_skipped_perm values).symm.filter fun value =>
    decide (value.pairId ∉ (table.added values).map (·.pairId))
  have hadded : (table.added values).filter (fun value =>
      decide (value.pairId ∉ (table.added values).map (·.pairId))) = [] := by
    rw [List.filter_eq_nil_iff]
    intro value hvalue
    have hmem : value.pairId ∈ (table.added values).map (·.pairId) :=
      List.mem_map.mpr ⟨value, hvalue, rfl⟩
    simpa using hmem
  rw [List.filter_append, hadded, List.nil_append] at hperm
  exact hperm

theorem key_values {values : List (Observation Facts)} {requestId : Uuid}
    (hvalues : List.Forall₂
      (fun observation row => observationRow receivedAt requestId observation = .ok row)
      observations values) : ∀ row ∈ values, row.key = ⟨receivedAt, requestId, row.pairId⟩ := by
  intro row hrow
  obtain ⟨observation, _, hok⟩ := exists_related_left hvalues hrow
  obtain ⟨hpair, hkey, _⟩ := observationRow_eq_ok hok
  rw [hkey, hpair]

theorem recordMany_eq {values : List (Observation Facts)}
    (hreceived : request.receivedAt = some receivedAt)
    (hvalues : List.Forall₂
      (fun observation row => observationRow receivedAt request.id observation = .ok row)
      observations values) (haccepts : ∀ row ∈ values, accepts row = true) :
    recordMany accepts request observations store =
      .ok (⟨values.foldl Table.insertNew store.observations, store.conflicts ++
          (rejectedRows store.observations values).map observationConflict⟩,
        (store.observations.added values).length) := by
  have hkeys := key_values hvalues
  unfold recordMany
  rw [hreceived]
  dsimp only
  cases hvalues with
  | nil => simp [rejectedRows, Table.added]
  | @cons observation row observations values hrow hrest =>
    have hall : (row :: values).all accepts = true := List.all_eq_true.mpr haccepts
    have hcard : (((store.observations.added (row :: values)).map (·.pairId)).toFinset).card =
        (store.observations.added (row :: values)).length := by
      rw [List.toFinset_card_of_nodup (nodup_addedPairs hkeys), List.length_map]
    rw [List.isEmpty_cons, if_neg (by simp), mapM_eq_ok.mpr (List.Forall₂.cons hrow hrest), ok_bind,
      if_pos hall, hcard]
    have hconflicts : (if (store.observations.added (row :: values)).length ≠ (row :: values).length
        then ((row :: values).filter fun value => value.pairId ∉
          ((store.observations.added (row :: values)).map (·.pairId)).toFinset).map
            observationConflict
        else []) =
        (rejectedRows store.observations (row :: values)).map observationConflict := by
      split
      · simp [rejectedRows]
      · next hlength =>
        rw [not_not] at hlength
        have hperm := store.observations.added_append_skipped_perm (row :: values)
        have hnone : store.observations.skipped (row :: values) = [] := by
          have hsum := hperm.length_eq
          rw [List.length_append] at hsum
          exact List.eq_nil_of_length_eq_zero (by omega)
        rw [hnone, List.append_nil] at hperm
        have hempty : rejectedRows store.observations (row :: values) = [] := by
          rw [rejectedRows, List.filter_eq_nil_iff]
          intro value hvalue
          have hmem : value.pairId ∈
              (store.observations.added (row :: values)).map (·.pairId) :=
            List.mem_map.mpr ⟨value, hperm.mem_iff.mpr hvalue, rfl⟩
          simpa using hmem
        rw [hempty, List.map_nil]
    rw [hconflicts]

theorem values_of_recordMany (hreceived : request.receivedAt = some receivedAt)
    (h : recordMany accepts request observations store = .ok (store', inserted)) :
    ∃ values, List.Forall₂
        (fun observation row => observationRow receivedAt request.id observation = .ok row)
        observations values ∧ ∀ row ∈ values, accepts row = true := by
  unfold recordMany at h
  rw [hreceived] at h
  dsimp only at h
  split at h
  · next hempty =>
    rw [List.isEmpty_iff] at hempty
    exact ⟨[], hempty ▸ .nil, by simp⟩
  · rw [bind_eq_ok] at h
    obtain ⟨values, hvalues, h⟩ := h
    split at h
    · next hall => exact ⟨values, mapM_eq_ok.mp hvalues, List.all_eq_true.mp hall⟩
    · cases h

/-- A batch is accounted for exactly when it names no new pair twice. -/
theorem observations_accounted_iff (accepts : Observation Facts → Bool) (request : ReceivedRequest)
    (observations : List (ObservationCreate Facts)) (store : ObservationStore Facts) :
    (∃ receivedAt store' inserted, request.receivedAt = some receivedAt ∧
      recordMany accepts request observations store = .ok (store', inserted) ∧
      Accounted receivedAt request.id observations store store' inserted) ↔
    ∃ receivedAt, request.receivedAt = some receivedAt ∧
      DeliveredOnce accepts receivedAt request.id observations store := by
  have hcounts {receivedAt : Int} {values : List (Observation Facts)}
      (hvalues : List.Forall₂
        (fun observation row => observationRow receivedAt request.id observation = .ok row)
        observations values) (pairId : Uuid) :
      values.countP (fun row => row.pairId = pairId) =
        observations.countP fun observation => observation.pairId = pairId := by
    rw [List.countP_eq_length_filter, List.countP_eq_length_filter]
    exact (filter_values hvalues fun other => other = pairId).length_eq.symm
  constructor
  · intro h
    obtain ⟨receivedAt, store', inserted, hreceived, hok, haccounted⟩ := h
    obtain ⟨values, hvalues, haccepts⟩ := values_of_recordMany hreceived hok
    have hkeys := key_values hvalues
    rw [recordMany_eq hreceived hvalues haccepts] at hok
    cases hok
    refine ⟨receivedAt, hreceived, ?_, ?_⟩
    · intro observation hobservation
      obtain ⟨row, hrow, hrowOk⟩ := exists_related_right hvalues hobservation
      exact ⟨row, hrowOk, haccepts row hrow⟩
    · -- nothing was skipped but what left a conflict
      have hcounted := haccounted.counted
      have hlength := (store.observations.added_append_skipped_perm values).length_eq
      have hrejected := (rejectedRows_perm store.observations values).length_eq
      rw [List.length_append, List.length_map, hvalues.length_eq] at hcounted
      rw [List.length_append] at hlength
      have hall := List.length_filter_eq_length_iff.mp (hrejected.symm.trans (by omega))
      have honce := (skipped_iff_once hkeys).mp fun row hrow => of_decide_eq_true (hall row hrow)
      intro pairId hfree
      rw [← hcounts hvalues]
      exact honce pairId hfree
  · intro h
    obtain ⟨receivedAt, hreceived, hrows, honce⟩ := h
    obtain ⟨values, hrelated⟩ := exists_related_list hrows
    have hvalues := hrelated.imp fun _ _ h => h.1
    have haccepts : ∀ row ∈ values, accepts row = true := fun row hrow =>
      (exists_related_left hrelated hrow).choose_spec.2.2
    have hkeys := key_values hvalues
    have hskipped : ∀ row ∈ store.observations.skipped values,
        row.pairId ∉ (store.observations.added values).map (·.pairId) := by
      refine (skipped_iff_once hkeys).mpr fun pairId hfree => ?_
      rw [hcounts hvalues]
      exact honce pairId hfree
    -- the elements whose pair is inserted are kept, the others are rejected
    let p (pairId : Uuid) : Bool :=
      decide (pairId ∈ (store.observations.added values).map (·.pairId))
    have hkept := filter_values hvalues p
    have hrejected := filter_values hvalues fun pairId => !p pairId
    have hrows : rejectedRows store.observations values =
        values.filter fun row => !p row.pairId := by
      simp only [rejectedRows, p, decide_not]
    have hadded : (store.observations.added values).Perm (values.filter fun row => p row.pairId) := by
      have hperm := (store.observations.added_append_skipped_perm values).filter
        fun row => p row.pairId
      have hfirst : (store.observations.added values).filter (fun row => p row.pairId) =
          store.observations.added values :=
        List.filter_eq_self.mpr fun row hrow => decide_eq_true (List.mem_map.mpr ⟨row, hrow, rfl⟩)
      have hsecond : (store.observations.skipped values).filter (fun row => p row.pairId) = [] :=
        List.filter_eq_nil_iff.mpr fun row hrow h => hskipped row hrow (of_decide_eq_true h)
      rw [List.filter_append, hfirst, hsecond, List.append_nil] at hperm
      exact hperm
    refine ⟨receivedAt, _, _, hreceived, recordMany_eq hreceived hvalues haccepts, ?_, ?_, ?_⟩
    · refine ⟨_, _, store.observations.added values,
        List.filter_append_perm (fun observation => p observation.pairId) observations,
        Table.rows_foldl_insertNew _ _, ?_, ?_⟩
      · have hmap := map_eq_of_forall₂ hkept fun observation row hrow =>
          (observationRow_eq_ok hrow).2.1.symm
        rw [hmap]
        exact hadded.map _
      · have hmap := map_eq_of_forall₂ hrejected fun observation row hrow =>
          (observationRow_eq_ok hrow).2.2.symm
        rw [hmap, hrows]
    · dsimp only
      rw [Table.rows_foldl_insertNew, List.length_append]
    · dsimp only
      have hlength := hvalues.length_eq
      have hsplit := (List.filter_append_perm (fun row => p row.pairId) values).length_eq
      rw [List.length_append, ← hadded.length_eq, ← hrows] at hsplit
      rw [List.length_append, List.length_map]
      omega

/-- Two records of one new pair: one is inserted, and the other leaves no trace. -/
theorem repeated_pair_unaccounted : ¬ ∃ receivedAt store' inserted,
    (⟨1, some 0⟩ : ReceivedRequest).receivedAt = some receivedAt ∧
    recordMany (fun _ : Observation Nat => true) ⟨1, some 0⟩ [⟨7, none, 10⟩, ⟨7, none, 20⟩]
      ⟨.empty, []⟩ = .ok (store', inserted) ∧
    Accounted receivedAt 1 [⟨7, none, 10⟩, ⟨7, none, 20⟩] ⟨.empty, []⟩ store' inserted := by
  intro h
  obtain ⟨receivedAt, store', inserted, hreceived, hok, haccounted⟩ := h
  have hrun : (recordMany (fun _ : Observation Nat => true) ⟨1, some 0⟩
      [⟨7, none, 10⟩, ⟨7, none, 20⟩] ⟨.empty, []⟩).map
        (fun result => (result.1.conflicts.length, result.2)) = .ok (0, 1) := by rfl
  rw [hok] at hrun
  have hcounted := haccounted.counted
  simp only [Except.map, Except.ok.injEq, Prod.mk.injEq] at hrun
  rw [hrun.1, hrun.2] at hcounted
  simp at hcounted

end Claim

end Recording
end PumpResearch.Collection
