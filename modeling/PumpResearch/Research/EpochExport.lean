import PumpResearch.Library.Results
import PumpResearch.Research.EpochContent

/-! Exporting a range of a closed epoch to one manifest: its family rows, and the identity and
relation checks without which no manifest is verified. -/
namespace PumpResearch.Research
open ConsecutiveRanges Results

def microsecondsPerDay : Int := 86400000000

/-- The loop of `_daily_ranges`: up to the next midnight, at most so many times. -/
def dailyRangesFrom : Nat → Timestamp → Timestamp → List (Timestamp × Timestamp)
  | 0, _, _ => []
  | fuel + 1, cursor, finish =>
    if cursor < finish then
      (cursor, min ((cursor / microsecondsPerDay + 1) * microsecondsPerDay) finish) ::
        dailyRangesFrom fuel (min ((cursor / microsecondsPerDay + 1) * microsecondsPerDay) finish)
          finish
    else []

/-- `_daily_ranges`. -/
def dailyRanges (start finish : Timestamp) : List (Timestamp × Timestamp) :=
  dailyRangesFrom ((finish / microsecondsPerDay - start / microsecondsPerDay).toNat + 1) start
    finish

/-- One verified scope with the rows of its files. Its location is given by its scope. -/
structure EpochManifest where
  epoch : Int
  epochId : String
  epochDataValid : Bool
  startAt : Timestamp
  endAt : Timestamp
  tokens : List TokenRow
  pairs : List PairRow
  runs : List CollectorRunRow
  rows : (family : FactFamily) → List (FamilyRow family)
  contexts : List MarketContextRow

section Export
variable (db : ResearchDatabase) (epochId : String) (range : Timestamp × Timestamp)

/-- A row of a family that belongs to an epoch and lies in a range. -/
def ResearchDatabase.selects (family : FactFamily) (row : FamilyRow family) : Bool :=
  db.inEpoch epochId family row.reference && within range (family.time row.fact)

/-- The queries of the daily families. -/
def ResearchDatabase.familyRows (family : FactFamily) : List (FamilyRow family) :=
  (dailyRanges range.1 range.2).flatMap fun part =>
    (db.rows family).filter (db.selects epochId part family)

def ResearchDatabase.contextRows : List MarketContextRow :=
  (dailyRanges range.1 range.2).flatMap fun part =>
    db.contexts.filter fun row => row.collectionEpochId = epochId && within part row.fact.receivedAt

/-- The families whose rows make a token part of a scope. -/
def tokenFamilies : List FactFamily :=
  [.discoveries, .observations, .lifecycle, .coverage, .boosts, .metadata, .security]

/-- The `EXISTS` conditions of the tokens query. -/
def ResearchDatabase.tokenReferenced (token : TokenRow) : Bool :=
  tokenFamilies.any fun family =>
    (db.rows family).any fun row => db.names family row token && db.selects epochId range family row

/-- The `EXISTS` conditions of the pairs query. -/
def ResearchDatabase.pairReferenced (pair : PairRow) : Bool :=
  (db.rows .observations).any (fun row =>
    row.subject = pair.id && db.selects epochId range .observations row) ||
  (db.rows .pairFacts).any (fun row =>
    row.subject = pair.id && db.selects epochId range .pairFacts row) ||
  (db.rows .boosts).any (fun row =>
    row.reference.pairId = some pair.id && db.selects epochId range .boosts row)

def ResearchDatabase.scopeRuns : List CollectorRunRow :=
  db.runs.filter fun run => run.collectionEpochId = epochId && run.startedAt < range.2

end Export

/-- What is exported of a range of an epoch. -/
def ResearchDatabase.scopeManifest (db : ResearchDatabase) (epoch : EpochRow)
    (start finish : Timestamp) : EpochManifest where
  epoch := epoch.number
  epochId := epoch.id
  epochDataValid := epoch.dataValid
  startAt := start
  endAt := finish
  tokens := db.tokens.filter (db.tokenReferenced epoch.id (start, finish))
  pairs := db.pairs.filter (db.pairReferenced epoch.id (start, finish))
  runs := db.scopeRuns epoch.id (start, finish)
  rows := db.familyRows epoch.id (start, finish)
  contexts := db.contextRows epoch.id (start, finish)

/-! ### Verification -/

def EpochManifest.hasUniqueKeys (manifest : EpochManifest) : Bool :=
  decide (manifest.tokens.map (·.id)).Nodup && decide (manifest.pairs.map (·.id)).Nodup &&
  decide (manifest.runs.map (·.id)).Nodup &&
  decide (manifest.contexts.map (·.fact.id)).Nodup &&
  FactFamily.all.all fun family =>
    decide ((manifest.rows family).map fun row => family.key row.fact).Nodup

/-- Rows of a family whose subject is not among the identities. -/
def EpochManifest.missing (manifest : EpochManifest) (family : FactFamily) (ids : List String) :
    Nat :=
  (manifest.rows family).countP fun row => row.subject ∉ ids

/-- The relations of `_duckdb_integrity`, each with its missing rows. -/
def EpochManifest.relations (manifest : EpochManifest) : List (String × Nat) :=
  let pairIds := manifest.pairs.map (·.id)
  let tokenIds := manifest.tokens.map (·.id)
  [("observations_missing_pair", manifest.missing .observations pairIds),
    ("pairs_missing_token", manifest.pairs.countP fun pair => pair.tokenId ∉ tokenIds),
    ("lifecycle_missing_token", manifest.missing .lifecycle tokenIds),
    ("pair_facts_missing_pair", manifest.missing .pairFacts pairIds),
    ("boosts_missing_token", manifest.missing .boosts tokenIds),
    ("metadata_missing_token", manifest.missing .metadata tokenIds),
    ("security_missing_token", manifest.missing .security tokenIds)]

/-- `verify_archive` on files as they were exported. -/
def verifyArchive (manifest : EpochManifest) : Except ResearchError Unit := do
  if manifest.hasUniqueKeys = false then
    throw (.integrity "archive contains duplicate primary identities")
  match manifest.relations.find? fun relation => relation.2 ≠ 0 with
  | some relation =>
    throw (.integrity ("archive referential integrity failed: " ++ relation.1 ++ "=" ++
      toString relation.2))
  | none => return ()

/-- `export_epoch_range` of a scope that nobody has exported. -/
def ResearchDatabase.exportEpochRange (db : ResearchDatabase) (epochNumber : Int)
    (start finish now : Timestamp) : Except ResearchError EpochManifest :=
  if ¬ start < finish then .error (.value "archive range must have start_at < end_at")
  else if now < finish then .error (.value "archive range cannot extend into the future")
  else
    match db.epochs.find? fun epoch => epoch.number = epochNumber with
    | none => .error (.integrity ("collection epoch " ++ toString epochNumber ++ " does not exist"))
    | some epoch =>
      if epoch.status = .planned ∨ epoch.status = .running then
        .error (.value "production archive scopes require a closed epoch")
      else if ¬ epoch.startedAt.any (· ≤ start) then
        .error (.value "archive range begins before the epoch start")
      else if ¬ epoch.endedAt.any (finish ≤ ·) then
        .error (.value "archive range ends after the epoch end")
      else (verifyArchive (db.scopeManifest epoch start finish)).map fun _ =>
        db.scopeManifest epoch start finish

/-- A manifest that an export of the database returned. -/
def ResearchDatabase.Exported (db : ResearchDatabase) (manifest : EpochManifest) : Prop :=
  ∃ now, db.exportEpochRange manifest.epoch manifest.startAt manifest.endAt now = .ok manifest

/-! ### What a manifest holds -/

theorem dailyRangesFrom_consecutive {fuel : Nat} {cursor finish : Timestamp} (hle : cursor ≤ finish)
    (hfuel : finish / microsecondsPerDay - cursor / microsecondsPerDay < fuel) :
    Consecutive cursor (dailyRangesFrom fuel cursor finish) finish := by
  induction fuel generalizing cursor with
  | zero =>
    unfold microsecondsPerDay at hfuel
    lia
  | succ fuel ih =>
    unfold dailyRangesFrom
    by_cases hlt : cursor < finish
    · rw [if_pos hlt]
      refine ⟨rfl, ?_, ?_⟩
      · simp only [microsecondsPerDay]
        lia
      · by_cases hlast : finish ≤ (cursor / microsecondsPerDay + 1) * microsecondsPerDay
        · rw [min_eq_right hlast]
          cases fuel with
          | zero => rfl
          | succ fuel =>
            rw [dailyRangesFrom, if_neg (lt_irrefl finish)]
            rfl
        · rw [min_eq_left (not_le.mp hlast).le]
          apply ih
          · exact (not_le.mp hlast).le
          · unfold microsecondsPerDay at hlast hfuel ⊢
            lia
    · rw [if_neg hlt]
      exact le_antisymm hle (not_lt.mp hlt)

theorem dailyRanges_consecutive {start finish : Timestamp} (h : start ≤ finish) :
    Consecutive start (dailyRanges start finish) finish := by
  apply dailyRangesFrom_consecutive h
  lia

theorem dailyRangesFrom_days (fuel : Nat) (cursor finish : Timestamp) :
    (dailyRangesFrom fuel cursor finish).Pairwise (fun range later =>
        range.1 / microsecondsPerDay < later.1 / microsecondsPerDay) ∧
      ∀ range ∈ dailyRangesFrom fuel cursor finish,
        cursor < finish ∧ cursor / microsecondsPerDay ≤ range.1 / microsecondsPerDay := by
  induction fuel generalizing cursor with
  | zero => exact ⟨.nil, fun range h => by cases h⟩
  | succ fuel ih =>
    unfold dailyRangesFrom
    by_cases hlt : cursor < finish
    · rw [if_pos hlt]
      obtain ⟨hdays, hrest⟩ :=
        ih (min ((cursor / microsecondsPerDay + 1) * microsecondsPerDay) finish)
      have hnext : ∀ range ∈ dailyRangesFrom fuel
          (min ((cursor / microsecondsPerDay + 1) * microsecondsPerDay) finish) finish,
          cursor / microsecondsPerDay < range.1 / microsecondsPerDay := by
        intro range hrange
        obtain ⟨hbefore, hle⟩ := hrest range hrange
        have hboundary : (cursor / microsecondsPerDay + 1) * microsecondsPerDay < finish := by
          by_contra hlast
          rw [min_eq_right (not_lt.mp hlast)] at hbefore
          exact lt_irrefl finish hbefore
        rw [min_eq_left hboundary.le] at hle
        unfold microsecondsPerDay at hle ⊢
        lia
      refine ⟨List.pairwise_cons.mpr ⟨hnext, hdays⟩, fun range hrange => ⟨hlt, ?_⟩⟩
      cases List.mem_cons.mp hrange with
      | inl heq => rw [heq]
      | inr hin => exact (hnext range hin).le
    · rw [if_neg hlt]
      exact ⟨.nil, fun range h => by cases h⟩

/-- The ranges start on different days. -/
theorem dailyRanges_days (start finish : Timestamp) :
    (dailyRanges start finish).Pairwise fun range later =>
      range.1 / microsecondsPerDay < later.1 / microsecondsPerDay :=
  (dailyRangesFrom_days _ start finish).1

section Rows
variable (db : ResearchDatabase) (epochId : String) {start finish : Timestamp}

/-- Days apart or at once, the rows of a range are the same. -/
theorem familyRows_perm (h : start ≤ finish) (family : FactFamily) :
    (db.familyRows epochId (start, finish) family).Perm
      ((db.rows family).filter (db.selects epochId (start, finish) family)) :=
  (dailyRanges_consecutive h).flatMap_filter_perm _ _ _

theorem contextRows_perm (h : start ≤ finish) :
    (db.contextRows epochId (start, finish)).Perm (db.contexts.filter fun row =>
      row.collectionEpochId = epochId && within (start, finish) row.fact.receivedAt) :=
  (dailyRanges_consecutive h).flatMap_filter_perm _ _ _

end Rows

section Inversion
variable {db : ResearchDatabase} {manifest : EpochManifest}

/-- An exported manifest is the verified content of a range of a closed epoch. -/
theorem exported_scope (h : db.Exported manifest) :
    ∃ epoch, db.epochs.find? (fun epoch => epoch.number = manifest.epoch) = some epoch ∧
      manifest = db.scopeManifest epoch manifest.startAt manifest.endAt ∧
      manifest.startAt < manifest.endAt ∧ verifyArchive manifest = .ok () := by
  obtain ⟨now, h⟩ := h
  unfold ResearchDatabase.exportEpochRange at h
  by_cases hlt : manifest.startAt < manifest.endAt
  · rw [if_neg (not_not.mpr hlt)] at h
    split at h
    · cases h
    · split at h
      · cases h
      · next epoch hfound =>
        split at h
        · cases h
        · split at h
          · cases h
          · split at h
            · cases h
            · obtain ⟨_, hverified, heq⟩ := map_eq_ok.mp h
              exact ⟨epoch, hfound, heq.symm, hlt, heq ▸ hverified⟩
  · rw [if_pos hlt] at h
    cases h

end Inversion

end PumpResearch.Research
