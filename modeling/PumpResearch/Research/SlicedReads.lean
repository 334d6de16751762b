import PumpResearch.Research.PostgresReads

/-! Queries of the stored sources beside one read of a whole epoch: the filters that a query pushes
into SQL return what slicing the full histories would. -/
namespace PumpResearch.Research
open KeyedOrder Results

/-! ### Filters -/

theorem dedup_filter {α : Type} [DecidableEq α] (p : α → Bool) (xs : List α) :
    (xs.filter p).dedup = xs.dedup.filter p := by
  induction xs with
  | nil => rfl
  | cons x xs ih =>
    by_cases hp : p x = true
    · rw [List.filter_cons_of_pos hp]
      by_cases hx : x ∈ xs
      · rw [List.dedup_cons_of_mem (List.mem_filter.mpr ⟨hx, hp⟩), List.dedup_cons_of_mem hx, ih]
      · have hnew : x ∉ xs.filter p := fun h => hx (List.mem_filter.mp h).1
        rw [List.dedup_cons_of_notMem hnew, List.dedup_cons_of_notMem hx,
          List.filter_cons_of_pos hp, ih]
    · rw [List.filter_cons_of_neg hp, ih]
      by_cases hx : x ∈ xs
      · rw [List.dedup_cons_of_mem hx]
      · rw [List.dedup_cons_of_notMem hx, List.filter_cons_of_neg hp]

/-- A filter before a join, given what each item is joined with after it. -/
theorem flatMap_filter_of {α β : Type} {p : α → Bool} {f g : α → List β} {xs : List α}
    (h : ∀ x ∈ xs, g x = if p x then f x else []) : (xs.filter p).flatMap f = xs.flatMap g := by
  induction xs with
  | nil => rfl
  | cons x xs ih =>
    have htail := ih fun y hy => h y (List.mem_cons_of_mem _ hy)
    have hhead := h x List.mem_cons_self
    by_cases hp : p x = true
    · rw [if_pos hp] at hhead
      rw [List.filter_cons_of_pos hp, List.flatMap_cons, List.flatMap_cons, hhead, htail]
    · rw [if_neg hp] at hhead
      rw [List.filter_cons_of_neg hp, List.flatMap_cons, hhead, htail, List.nil_append]

theorem map_sortOn {α β κ : Type} [LinearOrder κ] {key : α → κ} {key' : β → κ} (f : α → β)
    (hkey : ∀ a, key' (f a) = key a) (xs : List α) :
    (sortOn key xs).map f = sortOn key' (xs.map f) :=
  List.map_insertionSort _ _ f xs fun a _ b _ => by rw [hkey, hkey]

/-! ### Restricted rows -/

/-- `_slice_history`, with a lower bound of its own for the families of decisions. -/
def sliceHistoryFrom (history : TokenHistory) (decidedFrom startAt endAt : Option Timestamp) :
    TokenHistory :=
  { sliceHistory history startAt endAt with
    lifecycle := history.lifecycle.filter fun item => included decidedFrom endAt item.decidedAt
    coverage := history.coverage.filter fun item => included decidedFrom endAt item.decidedAt }

/-- Slicing afterwards gives the plain slice: no family is cut too early. -/
theorem sliceHistory_sliceHistoryFrom (history : TokenHistory) (startAt endAt : Option Timestamp) :
    sliceHistory (sliceHistoryFrom history none startAt endAt) startAt endAt =
      sliceHistory history startAt endAt := by
  have hnarrow (t : Timestamp) :
      (included startAt endAt t && included none endAt t) = included startAt endAt t := by
    rw [Bool.eq_iff_iff]
    simp [included]
  simp only [sliceHistoryFrom, sliceHistory, List.filter_filter, Bool.and_self, hnarrow]

/-- The time condition on the rows of a family. -/
def FactFamily.bounded (decidedFrom startAt endAt : Option Timestamp) :
    FactFamily → Timestamp → Bool
  | .lifecycle, t | .coverage, t => included decidedFrom endAt t
  | _, t => included startAt endAt t

/-- The rows of a query are those of the full read that it wants, in the same order. -/
structure Restricted (query : ResearchQuery) (decidedFrom : Option Timestamp)
    (rows full : HistoryRows) : Prop where
  tokens : rows.tokens = full.tokens.filter query.wants
  facts : ∀ family, rows.rows family = (full.rows family).filter fun row =>
    query.wants row.1 &&
      family.bounded decidedFrom query.startAt query.endAt (family.time row.2)
  contexts : rows.contexts = full.contexts.filter fun fact =>
    included query.startAt query.endAt fact.receivedAt

/-- Every row is joined with the token that it names. -/
def HistoryRows.OfTokens (rows : HistoryRows) : Prop :=
  ∀ family, ∀ row ∈ rows.rows family, ∀ token ∈ rows.tokens, row.1.id = token.id → row.1 = token

section Restriction
variable {query : ResearchQuery} {decidedFrom : Option Timestamp} {rows full : HistoryRows}
  {token : TokenRow}

theorem Restricted.factsOf (h : Restricted query decidedFrom rows full) (hof : full.OfTokens)
    (htoken : token ∈ full.tokens) (hwants : query.wants token = true) (family : FactFamily) :
    factsOf (rows.rows family) token.id =
      (factsOf (full.rows family) token.id).filter fun fact =>
        family.bounded decidedFrom query.startAt query.endAt (family.time fact) := by
  unfold Research.factsOf
  rw [h.facts, List.filter_filter, List.filter_map, List.filter_filter]
  congr 1
  refine List.filter_congr fun row hrow => ?_
  by_cases hid : row.1.id = token.id
  · have hsame : row.1 = token := hof family row hrow token htoken hid
    simp [hsame, hwants]
  · simp [hid]

theorem filter_renamed (facts : List SelectiveSecurityFact) (name : String)
    (p : Timestamp → Bool) :
    (facts.map fun fact => { fact with family := name }).filter (fun item => p item.receivedAt) =
      (facts.filter fun fact => p fact.receivedAt).map fun fact => { fact with family := name } :=
  List.filter_map

/-- The history of a wanted token is the slice of its full history. -/
theorem Restricted.history (h : Restricted query decidedFrom rows full) (hof : full.OfTokens)
    (htoken : token ∈ full.tokens) (hwants : query.wants token = true) (epoch : HistoryEpoch) :
    rows.history epoch token =
      sliceHistoryFrom (full.history epoch token) decidedFrom query.startAt query.endAt := by
  have hfamily := h.factsOf hof htoken hwants
  have hselective : rows.selectiveSecurity token.id =
      (full.selectiveSecurity token.id).filter fun item =>
        included query.startAt query.endAt item.receivedAt := by
    unfold HistoryRows.selectiveSecurity
    rw [List.filter_flatMap]
    congr 1
    funext kind
    rw [hfamily (.selective kind)]
    exact (filter_renamed _ kind.name _).symm
  exact (TokenHistory.mk.injEq ..).mpr ⟨rfl, rfl, rfl, rfl, rfl, rfl, hfamily .discoveries,
    hfamily .observations, hfamily .lifecycle, hfamily .pairFacts, hfamily .boosts,
    hfamily .metadata, hfamily .security, h.contexts, hfamily .coverage, hfamily .candidates,
    hfamily .candidateTiers, hselective, rfl⟩

/-- What is assembled from restricted rows are slices of what is assembled from all rows. -/
theorem Restricted.assembled (h : Restricted query decidedFrom rows full) (hof : full.OfTokens)
    (hids : (full.tokens.map (·.id)).Nodup) {epoch : HistoryEpoch} {histories : List TokenHistory}
    (hfull : assembleHistories full epoch = .ok histories)
    (hnumber : epoch.epochNumber = query.epochNumber)
    (hvalid : (epoch.epochValid || query.allowInvalidEpoch) = true) :
    assembleHistories rows epoch = .ok ((selectHistories histories query).map fun history =>
      sliceHistoryFrom history decidedFrom query.startAt query.endAt) := by
  obtain ⟨hnodup, rfl⟩ := assembleHistories_eq_ok.mp hfull
  refine assembleHistories_eq_ok.mpr ⟨fun family => ?_, ?_⟩
  · rw [h.facts]
    exact (hnodup family).sublist (List.filter_sublist.map _)
  · have hkept : (rows.tokens.map (·.id)).Nodup := by
      rw [h.tokens]
      exact hids.sublist (List.filter_sublist.map _)
    have hselects : (fun token => query.wants token) = fun token =>
        decide ((full.history epoch token).epochNumber = query.epochNumber) &&
          (query.tokenAddresses.isEmpty ||
            decide ((full.history epoch token).address ∈ query.tokenAddresses)) &&
          ((full.history epoch token).epochDataValid || query.allowInvalidEpoch) := by
      funext token
      show query.wants token = (decide (epoch.epochNumber = query.epochNumber) &&
        (query.tokenAddresses.isEmpty || decide (token.address ∈ query.tokenAddresses)) &&
        (epoch.epochValid || query.allowInvalidEpoch))
      rw [hvalid, decide_eq_true hnumber, Bool.true_and, Bool.and_true]
      rfl
    have hselected : selectHistories
        (sortOn (·.address) ((distinctBy (·.id) [] full.tokens).map (full.history epoch))) query =
          sortOn (·.address) ((full.tokens.filter query.wants).map (full.history epoch)) := by
      unfold selectHistories
      rw [filter_sortOn, sortOn_eq_self (sortOn_pairwise _ _), distinctBy_eq_self hids (by simp),
        List.filter_map]
      exact congrArg (fun p => sortOn _ (List.map _ (full.tokens.filter p))) hselects.symm
    have hslices : rows.tokens.map (rows.history epoch) =
        ((full.tokens.filter query.wants).map (full.history epoch)).map fun history =>
          sliceHistoryFrom history decidedFrom query.startAt query.endAt := by
      rw [h.tokens, List.map_map]
      refine List.map_congr_left fun token htoken => ?_
      obtain ⟨hmem, hwants⟩ := List.mem_filter.mp htoken
      exact h.history hof hmem hwants epoch
    rw [distinctBy_eq_self hkept (by simp), hslices, hselected]
    apply map_sortOn
    intro history
    rfl

/-- No history of an invalid epoch is selected, unless it is asked for. -/
theorem selectHistories_of_invalid {histories : List TokenHistory}
    (hinvalid : ∀ history ∈ histories, history.epochDataValid = false)
    (hallow : query.allowInvalidEpoch = false) : selectHistories histories query = [] := by
  have hfilter : histories.filter (fun history =>
      decide (history.epochNumber = query.epochNumber) &&
        (query.tokenAddresses.isEmpty || decide (history.address ∈ query.tokenAddresses)) &&
        (history.epochDataValid || query.allowInvalidEpoch)) = [] := by
    rw [List.filter_eq_nil_iff]
    intro history hhistory
    simp [hinvalid history hhistory, hallow]
  rw [selectHistories, hfilter]
  rfl

theorem assembled_dataValid {rows : HistoryRows} {epoch : HistoryEpoch}
    {histories : List TokenHistory} (h : assembleHistories rows epoch = .ok histories) :
    ∀ history ∈ histories, history.epochDataValid = epoch.epochValid := by
  obtain ⟨_, rfl⟩ := assembleHistories_eq_ok.mp h
  intro history hhistory
  obtain ⟨token, _, rfl⟩ := List.mem_map.mp ((mem_sortOn _ _ _).mp hhistory)
  rfl

/-- A read of restricted rows, beside a successful read of all rows. -/
theorem Restricted.read (h : Restricted query decidedFrom rows full) (hof : full.OfTokens)
    (hids : (full.tokens.map (·.id)).Nodup) {epoch : HistoryEpoch} {histories : List TokenHistory}
    {boundaries : Except ResearchError Unit}
    (hfull : (boundaries >>= fun _ => assembleHistories full epoch) = .ok histories)
    (hnumber : epoch.epochNumber = query.epochNumber) :
    (if epoch.epochValid = false ∧ query.allowInvalidEpoch = false then .ok []
      else boundaries >>= fun _ => assembleHistories rows epoch) =
        .ok ((selectHistories histories query).map fun history =>
          sliceHistoryFrom history decidedFrom query.startAt query.endAt) := by
  obtain ⟨_, hboundaries, hassembled⟩ := bind_eq_ok.mp hfull
  by_cases hvalid : epoch.epochValid = false ∧ query.allowInvalidEpoch = false
  · have hnone : selectHistories histories query = [] := by
      refine selectHistories_of_invalid (fun history hhistory => ?_) hvalid.2
      exact (assembled_dataValid hassembled history hhistory).trans hvalid.1
    rw [if_pos hvalid, hnone]
    rfl
  · rw [if_neg hvalid]
    refine bind_eq_ok.mpr ⟨_, hboundaries, h.assembled hof hids hassembled hnumber ?_⟩
    cases hdata : epoch.epochValid with
    | true => rfl
    | false => simpa [hdata] using hvalid

end Restriction

/-! ### The cold source -/

theorem time_joined {family : FactFamily} (pair : Option PairRow) (fact : family.Fact) :
    family.time (family.joined pair fact) = family.time fact := by
  cases family <;> rfl

/-- The query of a whole epoch. -/
def ResearchQuery.wholeEpoch (epochNumber : Int) : ResearchQuery :=
  { epochNumber, allowInvalidEpoch := true }

theorem wants_wholeEpoch (epochNumber : Int) (token : TokenRow) :
    (ResearchQuery.wholeEpoch epochNumber).wants token = true := rfl

section Sources
variable {db : ResearchDatabase} {view : ArchiveView} {query : ResearchQuery} {epochNumber : Int}

theorem ofTokens_of (db : ResearchDatabase) {rows : HistoryRows}
    (htokens : ∀ token ∈ rows.tokens, token ∈ db.tokens)
    (hrows : ∀ family, ∀ row ∈ rows.rows family, row.1 ∈ db.tokens) : rows.OfTokens :=
  fun family row hrow _ htoken hid =>
    eq_of_unique db.tokens_unique (hrows family row hrow) (htokens _ htoken) hid

theorem mem_familyFacts {family : FactFamily} {joined : TokenRow × family.Fact}
    (h : joined ∈ view.familyFacts query family) : joined.1 ∈ view.tokens := by
  obtain ⟨row, _, hjoined⟩ := List.mem_flatMap.mp h
  obtain ⟨subject, hsubject, rfl⟩ := List.mem_map.mp hjoined
  exact (mem_subjects.mp (List.mem_filter.mp hsubject).1).1

theorem historyRows_ofTokens (hview : view.Of db) : (view.historyRows query).OfTokens := by
  refine ofTokens_of db (fun token htoken => ?_) fun family row hrow => ?_
  · have hin := List.mem_dedup.mp ((mem_sortOn _ _ _).mp htoken)
    exact hview.tokens token (List.mem_filter.mp hin).1
  · exact hview.tokens _ (mem_familyFacts hrow)

theorem historyRows_restricted (view : ArchiveView) (query : ResearchQuery) (epochNumber : Int) :
    Restricted query query.startAt (view.historyRows query)
      (view.historyRows (.wholeEpoch epochNumber)) where
  tokens := by
    show sortOn _ (view.tokens.filter query.wants).dedup =
      (sortOn _ (view.tokens.filter (ResearchQuery.wholeEpoch epochNumber).wants).dedup).filter _
    rw [filter_sortOn, ← dedup_filter, List.filter_filter]
    simp only [wants_wholeEpoch, Bool.and_true]
  facts family := by
    show (view.rows family).flatMap _ = ((view.rows family).flatMap _).filter _
    rw [List.filter_flatMap]
    congr 1
    funext row
    rw [List.filter_map, List.filter_filter]
    congr 1
    refine List.filter_congr fun subject _ => ?_
    simp only [ResearchQuery.admits, wants_wholeEpoch, Function.comp_apply, time_joined]
    cases family <;> simp [FactFamily.bounded, ResearchQuery.wholeEpoch, included]
  contexts := by
    show List.filter _ _ = List.filter _ (List.filter _ _)
    rw [List.filter_filter]
    refine List.filter_congr fun fact _ => ?_
    simp [ResearchQuery.wholeEpoch, included]

theorem postgresRows_ofTokens (epochId : String) : (db.postgresRows epochId query).OfTokens := by
  refine ofTokens_of db (fun token htoken => (mem_postgresRows_tokens.mp htoken).1) ?_
  intro family row hrow
  obtain ⟨found, _, hjoined⟩ := List.mem_flatMap.mp hrow
  obtain ⟨subject, hsubject, rfl⟩ := List.mem_map.mp hjoined
  exact (mem_subjects.mp (List.mem_filter.mp hsubject).1).1

theorem postgresIncluded_eq (query : ResearchQuery) (family : FactFamily) (t : Timestamp) :
    query.postgresIncluded family t = family.bounded none query.startAt query.endAt t := by
  cases family <;> simp [ResearchQuery.postgresIncluded, FactFamily.bounded, included]

theorem postgresIncluded_wholeEpoch (epochNumber : Int) (family : FactFamily) (t : Timestamp) :
    (ResearchQuery.wholeEpoch epochNumber).postgresIncluded family t = true := by
  cases family <;> simp [ResearchQuery.postgresIncluded, ResearchQuery.wholeEpoch, included]

theorem postgresRows_restricted (db : ResearchDatabase) (epochId : String) (query : ResearchQuery)
    (epochNumber : Int) :
    Restricted query none (db.postgresRows epochId query)
      (db.postgresRows epochId (.wholeEpoch epochNumber)) where
  tokens := by
    show sortOn _ _ = (sortOn _ _).filter _
    rw [filter_sortOn, List.filter_filter]
    simp only [wants_wholeEpoch, Bool.and_comm (query.wants _), Bool.and_true]
  facts family := by
    show ((db.rows family).filter _).flatMap _ = (((db.rows family).filter _).flatMap _).filter _
    have hselects : db.postgresSelects epochId query family = fun row =>
        family.bounded none query.startAt query.endAt (family.time row.fact) &&
          db.postgresSelects epochId (.wholeEpoch epochNumber) family row := by
      funext row
      simp only [ResearchDatabase.postgresSelects, postgresIncluded_eq query,
        postgresIncluded_wholeEpoch, Bool.and_true, Bool.and_comm (family.bounded _ _ _ _)]
    rw [List.filter_flatMap, hselects, ← List.filter_filter]
    refine flatMap_filter_of fun row _ => ?_
    rw [List.filter_map, List.filter_filter]
    simp only [Function.comp_def, wants_wholeEpoch, Bool.and_true, time_joined]
    cases family.bounded none query.startAt query.endAt (family.time row.fact) with
    | true => simp
    | false => simp
  contexts := by
    show List.map _ (List.filter _ _) = List.filter _ (List.map _ (List.filter _ _))
    rw [List.filter_map, List.filter_filter]
    congr 1
    refine List.filter_congr fun row _ => ?_
    simp [ResearchQuery.wholeEpoch, included, Bool.and_comm]

/-- No histories of an epoch that no manifest is about. -/
theorem coldSource_of_none (query : ResearchQuery) {manifests : List EpochManifest}
    {histories : List TokenHistory}
    (hnone : ∀ manifest ∈ manifests, manifest.epoch ≠ query.epochNumber) :
    coldSource manifests query = .ok histories ↔
      histories = [] ∧ manifests ≠ [] ∧ ∃ checked, manifests.mapM verifyArchive = .ok checked := by
  have hfilter : manifests.filter (fun manifest => manifest.epoch = query.epochNumber) = [] := by
    rw [List.filter_eq_nil_iff]
    exact fun manifest hmanifest heq => hnone manifest hmanifest (of_decide_eq_true heq)
  unfold coldSource
  by_cases hempty : manifests = []
  · simp [hempty]
  · rw [if_neg (by simpa using hempty), hfilter]
    cases hverified : manifests.mapM verifyArchive with
    | error error => simp
    | ok checked =>
      rw [ok_bind]
      simp [hempty, pure, Except.pure, eq_comm]

end Sources

/-- A query of the cold source returns the slices of its read of the whole epoch, whatever the
manifests of the database it is opened with. -/
theorem cold_reads_sliced {db : ResearchDatabase} {manifests : List EpochManifest}
    (hexported : ∀ manifest ∈ manifests, db.Exported manifest) (query : ResearchQuery)
    {histories : List TokenHistory}
    (hfull : coldSource manifests (.wholeEpoch query.epochNumber) = .ok histories) :
    coldSource manifests query = .ok ((selectHistories histories query).map fun history =>
      sliceHistory history query.startAt query.endAt) := by
  by_cases hsome : ∃ manifest ∈ manifests, manifest.epoch = query.epochNumber
  · obtain ⟨whole, hwhole, hepoch⟩ := hsome
    have hread (asked : ResearchQuery) (hasked : asked.epochNumber = query.epochNumber) :=
      coldSource_eq hexported (hexported whole hwhole)
        (hasked.trans hepoch.symm : asked.epochNumber = whole.epoch) ⟨whole, hwhole, rfl⟩
    have hview : (archiveView (openedManifests manifests)).Of db :=
      archiveView_of fun manifest hmanifest => hexported manifest (mem_distinctBy hmanifest).1
    rw [hread (.wholeEpoch query.epochNumber) rfl, if_neg (by simp [ResearchQuery.wholeEpoch])]
      at hfull
    rw [hread query rfl]
    exact (historyRows_restricted _ query query.epochNumber).read (historyRows_ofTokens hview)
      (historyRows_tokens_nodup hview) hfull rfl
  · have hnone : ∀ manifest ∈ manifests, manifest.epoch ≠ query.epochNumber :=
      fun manifest hmanifest heq => hsome ⟨manifest, hmanifest, heq⟩
    obtain ⟨rfl, hne, hverified⟩ :=
      (coldSource_of_none (.wholeEpoch query.epochNumber) hnone).mp hfull
    exact (coldSource_of_none query hnone).mpr ⟨rfl, hne, hverified⟩

/-- From the second instant on nothing is left of the event. -/
theorem cold_reads_sliced_one_day : ∃ histories,
    coldSource [oneDayArchive] (.wholeEpoch 1) = .ok histories ∧
      coldSource [oneDayArchive] { epochNumber := 1, startAt := some 2 } =
        .ok ((selectHistories histories { epochNumber := 1, startAt := some 2 }).map fun history =>
          sliceHistory history (some 2) none) := by
  have hread : (coldSource [oneDayArchive] (.wholeEpoch 1)).isOk = true := by decide +kernel
  cases hfull : coldSource [oneDayArchive] (.wholeEpoch 1) with
  | error error =>
    rw [hfull] at hread
    cases hread
  | ok histories =>
    have hexported : ∀ manifest ∈ [oneDayArchive], oneDay.Exported manifest :=
      fun manifest hmanifest => List.mem_singleton.mp hmanifest ▸ oneDay_exported
    exact ⟨histories, rfl,
      cold_reads_sliced hexported { epochNumber := 1, startAt := some 2 } hfull⟩

/-- A query of PostgreSQL returns the slices of its read of the whole epoch, but with every
lifecycle and coverage decision before its end; sliced again, nothing else is left of them. -/
theorem postgres_reads_sliced {db : ResearchDatabase} (query : ResearchQuery)
    {histories : List TokenHistory}
    (hfull : postgresSource db (.wholeEpoch query.epochNumber) = .ok histories) :
    ∃ found, postgresSource db query = .ok found ∧
      found = ((selectHistories histories query).map fun history =>
        sliceHistoryFrom history none query.startAt query.endAt) ∧
      found.map (fun history => sliceHistory history query.startAt query.endAt) =
        (selectHistories histories query).map fun history =>
          sliceHistory history query.startAt query.endAt := by
  refine ⟨_, ?_, rfl, ?_⟩
  · unfold postgresSource at hfull ⊢
    have hnumber : (ResearchQuery.wholeEpoch query.epochNumber).epochNumber =
        query.epochNumber := rfl
    rw [hnumber] at hfull
    cases hepoch : db.epochs.find? fun epoch => epoch.number = query.epochNumber with
    | none =>
      rw [hepoch] at hfull
      cases hfull
      rfl
    | some epoch =>
      simp only [hepoch] at hfull ⊢
      rw [if_neg (by simp [ResearchQuery.wholeEpoch])] at hfull
      exact (postgresRows_restricted db epoch.id query query.epochNumber).read
        (postgresRows_ofTokens epoch.id) postgresRows_tokens_nodup hfull rfl
  · rw [List.map_map]
    exact List.map_congr_left fun history _ => sliceHistory_sliceHistoryFrom history _ _

/-- From the second instant on the event is still read, and only slicing drops it. -/
theorem postgres_reads_sliced_one_day : ∃ histories,
    postgresSource oneDay (.wholeEpoch 1) = .ok histories ∧
      ∃ found, postgresSource oneDay { epochNumber := 1, startAt := some 2 } = .ok found ∧
        found = ((selectHistories histories { epochNumber := 1, startAt := some 2 }).map
          fun history => sliceHistoryFrom history none (some 2) none) ∧
        found.map (fun history => sliceHistory history (some 2) none) =
          (selectHistories histories { epochNumber := 1, startAt := some 2 }).map fun history =>
            sliceHistory history (some 2) none := by
  have hread : (postgresSource oneDay (.wholeEpoch 1)).isOk = true := by decide +kernel
  cases hfull : postgresSource oneDay (.wholeEpoch 1) with
  | error error =>
    rw [hfull] at hread
    cases hread
  | ok histories =>
    exact ⟨histories, rfl, postgres_reads_sliced { epochNumber := 1, startAt := some 2 } hfull⟩

end PumpResearch.Research
