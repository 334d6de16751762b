import PumpResearch.Research.EpochExport
import PumpResearch.Research.Sources

/-! The cold source: views over the files of several manifests, and the histories that are
assembled from what its queries return. -/
namespace PumpResearch.Research
open KeyedOrder Results

/-- The first item under every key that has not been seen. -/
def distinctBy {α κ : Type} [DecidableEq κ] (key : α → κ) : List κ → List α → List α
  | _, [] => []
  | seen, item :: rest =>
    if key item ∈ seen then distinctBy key seen rest
    else item :: distinctBy key (key item :: seen) rest

/-! ### Assembling histories -/

/-- The rows that the queries of a source return, joined with their tokens. -/
structure HistoryRows where
  tokens : List TokenRow
  rows : (family : FactFamily) → List (TokenRow × family.Fact)
  contexts : List MarketContextFact

/-- The epoch that histories are assembled for. -/
structure HistoryEpoch where
  epochId : String
  epochNumber : Int
  epochValid : Bool
  descriptor : SourceDescriptor

/-- `_reject_duplicate_ids`. -/
def hasDuplicateIds {family : FactFamily} (rows : List (TokenRow × family.Fact)) : Bool :=
  decide ¬ (rows.map fun row => family.id row.2).Nodup

/-- The facts of one token, in the order of the rows. -/
def factsOf {F : Type} (rows : List (TokenRow × F)) (tokenId : String) : List F :=
  (rows.filter fun row => row.1.id = tokenId).map (·.2)

/-- `_selective_security`: the facts of all selective families, under their family names. -/
def HistoryRows.selectiveSecurity (rows : HistoryRows) (tokenId : String) :
    List SelectiveSecurityFact :=
  SelectiveFamily.all.flatMap fun kind =>
    (factsOf (rows.rows (.selective kind)) tokenId).map fun fact : SelectiveSecurityFact =>
      { fact with family := kind.name }

def HistoryRows.history (rows : HistoryRows) (epoch : HistoryEpoch) (token : TokenRow) :
    TokenHistory where
  epochId := epoch.epochId
  epochNumber := epoch.epochNumber
  epochDataValid := epoch.epochValid
  tokenId := token.id
  chain := token.chain
  address := token.address
  discoveries := factsOf (rows.rows .discoveries) token.id
  observations := factsOf (rows.rows .observations) token.id
  lifecycle := factsOf (rows.rows .lifecycle) token.id
  pairFacts := factsOf (rows.rows .pairFacts) token.id
  boosts := factsOf (rows.rows .boosts) token.id
  metadata := factsOf (rows.rows .metadata) token.id
  security := factsOf (rows.rows .security) token.id
  context := rows.contexts
  coverage := factsOf (rows.rows .coverage) token.id
  candidates := factsOf (rows.rows .candidates) token.id
  candidateTiers := factsOf (rows.rows .candidateTiers) token.id
  selectiveSecurity := rows.selectiveSecurity token.id
  sourceDescriptor := epoch.descriptor

/-- `_assemble_histories`. -/
def assembleHistories (rows : HistoryRows) (epoch : HistoryEpoch) :
    Except ResearchError (List TokenHistory) :=
  match FactFamily.all.find? fun family => hasDuplicateIds (rows.rows family) with
  | some family =>
    .error (.value ("research source contains duplicate " ++ family.name ++ " identities"))
  | none =>
    .ok (sortOn (·.address) ((distinctBy (·.id) [] rows.tokens).map (rows.history epoch)))

/-- `require_known_collection_boundary`. -/
def requireResearchBoundaries (runs : List CollectorRunRow) (context : String) :
    Except ResearchError Unit :=
  if runs.isEmpty then .error (.integrity (context ++ " has no collector runs"))
  else
    match runs.filter fun run => run.collectionStartedAt.isNone with
    | [] => .ok ()
    | unknown =>
      .error (.integrity (context ++ " has unknown collection_started_at for collector run(s): " ++
        String.intercalate ", " (unknown.map (·.id))))

/-! ### Queries over the archive -/

/-- An address filter without addresses admits every address. -/
def ResearchQuery.wants (query : ResearchQuery) (token : TokenRow) : Bool :=
  query.tokenAddresses.isEmpty || decide (token.address ∈ query.tokenAddresses)

/-- The family views of `ColdArchiveQuery`. -/
structure ArchiveView where
  tokens : List TokenRow
  pairs : List PairRow
  runs : List CollectorRunRow
  rows : (family : FactFamily) → List (FamilyRow family)
  contexts : List MarketContextRow

/-- Files are opened once: a manifest that is listed again adds none. -/
def openedManifests (manifests : List EpochManifest) : List EpochManifest :=
  distinctBy (fun manifest => (manifest.epochId, manifest.startAt, manifest.endAt)) [] manifests

def archiveView (manifests : List EpochManifest) : ArchiveView where
  tokens := manifests.flatMap (·.tokens)
  pairs := manifests.flatMap (·.pairs)
  runs := manifests.flatMap (·.runs)
  rows family := manifests.flatMap (·.rows family)
  contexts := manifests.flatMap (·.contexts)

section Queries
variable (view : ArchiveView)

/-- The joins of a row: `pairs p ON p.id = pair_id JOIN tokens t ON t.id = p.token_id`, or
`tokens t ON t.id = token_id`. -/
def ArchiveView.subjects (family : FactFamily) (row : FamilyRow family) :
    List (Option PairRow × TokenRow) :=
  if family.viaPair then
    (view.pairs.filter fun pair => pair.id = row.subject).flatMap fun pair =>
      (view.tokens.filter fun token => token.id = pair.tokenId).map fun token => (some pair, token)
  else
    (view.tokens.filter fun token => token.id = row.subject).map fun token => (none, token)

/-- The projection of a joined row: an observation takes the address of its pair. -/
def FactFamily.joined : (family : FactFamily) → Option PairRow → family.Fact → family.Fact
  | .observations => fun pair (fact : ObservationFact) =>
    ({ fact with pairAddress := (pair.map (·.address)).getD fact.pairAddress } : ObservationFact)
  | _ => fun _ fact => fact

/-- `_duckdb_filters` on a joined row. -/
def ResearchQuery.admits (query : ResearchQuery) (family : FactFamily) (row : FamilyRow family)
    (subject : Option PairRow × TokenRow) : Bool :=
  query.wants subject.2 && included query.startAt query.endAt (family.time row.fact)

def ArchiveView.familyFacts (query : ResearchQuery) (family : FactFamily) :
    List (TokenRow × family.Fact) :=
  (view.rows family).flatMap fun row =>
    ((view.subjects family row).filter (query.admits family row)).map fun subject =>
      (subject.2, family.joined subject.1 row.fact)

/-- The queries of `_histories_from_duckdb`. -/
def ArchiveView.historyRows (query : ResearchQuery) : HistoryRows where
  tokens := sortOn (·.address) (view.tokens.filter query.wants).dedup
  rows := view.familyFacts query
  contexts := (view.contexts.map (·.fact)).filter fun fact =>
    included query.startAt query.endAt fact.receivedAt

end Queries

/-- The cold descriptor, without the digests of its manifests and the bounds of its runs. -/
def coldDescriptor : SourceDescriptor := .adapter [("kind", "parquet")]

/-- `DuckDBArchiveResearchSource.load_histories` over verified manifests. -/
def coldSource (manifests : List EpochManifest) : ResearchSource := fun query =>
  if manifests.isEmpty then .error (.value "at least one archive manifest is required")
  else do
    let _ ← manifests.mapM verifyArchive
    match manifests.filter fun manifest => manifest.epoch = query.epochNumber with
    | [] => return []
    | first :: rest =>
      if rest.any fun manifest => manifest.epochId ≠ first.epochId then
        .error (.value "cold research source has conflicting epoch identities")
      else if ¬ (first :: rest).all (·.epochDataValid) ∧ query.allowInvalidEpoch = false then
        return []
      else do
        let view := archiveView (openedManifests manifests)
        requireResearchBoundaries view.runs
          ("epoch " ++ toString query.epochNumber ++ " archive")
        assembleHistories (view.historyRows query) {
          epochId := first.epochId
          epochNumber := query.epochNumber
          epochValid := (first :: rest).all (·.epochDataValid)
          descriptor := coldDescriptor }

/-! ### What assembling requires -/

theorem mem_distinctBy {α κ : Type} [DecidableEq κ] {key : α → κ} {seen : List κ} {xs : List α}
    {x : α} (h : x ∈ distinctBy key seen xs) : x ∈ xs ∧ key x ∉ seen := by
  induction xs generalizing seen with
  | nil => cases h
  | cons item rest ih =>
    unfold distinctBy at h
    by_cases hseen : key item ∈ seen
    · rw [if_pos hseen] at h
      obtain ⟨hmem, hnew⟩ := ih h
      exact ⟨List.mem_cons_of_mem _ hmem, hnew⟩
    · rw [if_neg hseen] at h
      cases List.mem_cons.mp h with
      | inl heq =>
        rw [heq]
        exact ⟨List.mem_cons_self, hseen⟩
      | inr hin =>
        obtain ⟨hmem, hnew⟩ := ih hin
        exact ⟨List.mem_cons_of_mem _ hmem, fun hs => hnew (List.mem_cons_of_mem _ hs)⟩

/-- The kept items have distinct keys. -/
theorem nodup_distinctBy {α κ : Type} [DecidableEq κ] (key : α → κ) (seen : List κ) (xs : List α) :
    ((distinctBy key seen xs).map key).Nodup := by
  induction xs generalizing seen with
  | nil => exact List.nodup_nil
  | cons item rest ih =>
    unfold distinctBy
    split
    · exact ih seen
    · refine List.nodup_cons.mpr ⟨fun hmem => ?_, ih _⟩
      obtain ⟨other, hother, heq⟩ := List.mem_map.mp hmem
      exact (mem_distinctBy hother).2 (heq ▸ List.mem_cons_self)

/-- Of every item there is one with its key. -/
theorem exists_mem_distinctBy {α κ : Type} [DecidableEq κ] {key : α → κ} {seen : List κ}
    {xs : List α} {x : α} (hx : x ∈ xs) (hseen : key x ∉ seen) :
    ∃ y ∈ distinctBy key seen xs, key y = key x := by
  induction xs generalizing seen with
  | nil => cases hx
  | cons item rest ih =>
    unfold distinctBy
    by_cases heq : key item = key x
    · rw [if_neg (heq ▸ hseen)]
      exact ⟨item, List.mem_cons_self, heq⟩
    · have hrest : x ∈ rest := by
        cases List.mem_cons.mp hx with
        | inl hsame => exact absurd (congrArg key hsame).symm heq
        | inr hin => exact hin
      split
      · exact ih hrest hseen
      · have hother : key x ∉ key item :: seen := fun hmem =>
          (List.mem_cons.mp hmem).elim (fun h => heq h.symm) hseen
        obtain ⟨y, hy, hkey⟩ := ih hrest hother
        exact ⟨y, List.mem_cons_of_mem _ hy, hkey⟩

/-- Items under distinct keys are all kept. -/
theorem distinctBy_eq_self {α κ : Type} [DecidableEq κ] {key : α → κ} {seen : List κ} {xs : List α}
    (hnodup : (xs.map key).Nodup) (hseen : ∀ x ∈ xs, key x ∉ seen) :
    distinctBy key seen xs = xs := by
  induction xs generalizing seen with
  | nil => rfl
  | cons item rest ih =>
    obtain ⟨hnew, hrest⟩ := List.nodup_cons.mp hnodup
    unfold distinctBy
    rw [if_neg (hseen item List.mem_cons_self), ih hrest]
    intro x hx hmem
    cases List.mem_cons.mp hmem with
    | inl heq => exact hnew (heq ▸ List.mem_map_of_mem hx)
    | inr hin => exact hseen x (List.mem_cons_of_mem _ hx) hin

theorem assembleHistories_eq_ok {rows : HistoryRows} {epoch : HistoryEpoch}
    {histories : List TokenHistory} :
    assembleHistories rows epoch = .ok histories ↔
      (∀ family, ((rows.rows family).map fun row => family.id row.2).Nodup) ∧
      histories = sortOn (·.address) ((distinctBy (·.id) [] rows.tokens).map (rows.history epoch)) := by
  unfold assembleHistories
  split
  · next family hfound =>
    have hduplicate := List.find?_some hfound
    constructor
    · intro h
      cases h
    · intro h
      exact absurd (h.1 family) (of_decide_eq_true hduplicate)
  · next hnone =>
    rw [List.find?_eq_none] at hnone
    have hnodup : ∀ family, ((rows.rows family).map fun row => family.id row.2).Nodup := by
      intro family
      have hfamily := hnone family family.mem_all
      simpa [hasDuplicateIds] using hfamily
    constructor
    · intro h
      cases h
      exact ⟨hnodup, rfl⟩
    · intro h
      rw [h.2]

theorem requireResearchBoundaries_eq_ok {runs : List CollectorRunRow} {context : String} :
    requireResearchBoundaries runs context = .ok () ↔
      runs ≠ [] ∧ ∀ run ∈ runs, run.collectionStartedAt.isSome = true := by
  unfold requireResearchBoundaries
  cases runs with
  | nil => simp
  | cons first rest =>
    rw [if_neg (by simp)]
    constructor
    · intro h
      refine ⟨List.cons_ne_nil _ _, fun run hrun => ?_⟩
      split at h
      · next hnone =>
        have hknown := List.filter_eq_nil_iff.mp hnone run hrun
        exact Option.isSome_iff_ne_none.mpr (by simpa using hknown)
      · cases h
    · intro h
      have hnone : ((first :: rest).filter fun run => run.collectionStartedAt.isNone) = [] := by
        rw [List.filter_eq_nil_iff]
        intro run hrun
        have hknown := h.2 run hrun
        simp [Option.isSome_iff_ne_none.mp hknown]
      rw [hnone]

end PumpResearch.Research
