import PumpResearch.Library.RelatedLists
import PumpResearch.Research.ArchiveViews
import PumpResearch.Research.HotCold

/-! Reading the manifests of consecutive scopes together, beside the manifest of their whole range.
The identities are in every manifest, and each fact is joined with every copy of its token. -/
namespace PumpResearch.Research
open ConsecutiveRanges KeyedOrder RelatedLists Results

/-! ### Histories of the same facts -/

/-- The same histories with the same facts, in any order. -/
def SameHistories (xs ys : List TokenHistory) : Prop :=
  ∃ zs, zs.Perm ys ∧ List.Forall₂ SameFacts xs zs

/-- Rows of the same tokens with the same facts. -/
structure SameRows (rows rows' : HistoryRows) : Prop where
  tokens : rows.tokens.Perm rows'.tokens
  facts : ∀ family, (rows.rows family).Perm (rows'.rows family)
  contexts : rows.tokens ≠ [] → rows.contexts.Perm rows'.contexts

section Assembly
variable {rows rows' : HistoryRows} {epoch : HistoryEpoch}

theorem factsOf_perm {F : Type} {xs ys : List (TokenRow × F)} (h : xs.Perm ys) (tokenId : String) :
    (factsOf xs tokenId).Perm (factsOf ys tokenId) := (h.filter _).map _

theorem SameRows.history (h : SameRows rows rows') {token : TokenRow} (htoken : token ∈ rows.tokens) :
    SameFacts (rows.history epoch token) (rows'.history epoch token) where
  epochId := rfl
  epochNumber := rfl
  epochDataValid := rfl
  tokenId := rfl
  chain := rfl
  address := rfl
  discoveries := factsOf_perm (h.facts .discoveries) token.id
  observations := factsOf_perm (h.facts .observations) token.id
  lifecycle := factsOf_perm (h.facts .lifecycle) token.id
  pairFacts := factsOf_perm (h.facts .pairFacts) token.id
  boosts := factsOf_perm (h.facts .boosts) token.id
  metadata := factsOf_perm (h.facts .metadata) token.id
  security := factsOf_perm (h.facts .security) token.id
  context := h.contexts (List.ne_nil_of_mem htoken)
  coverage := factsOf_perm (h.facts .coverage) token.id
  candidates := factsOf_perm (h.facts .candidates) token.id
  candidateTiers := factsOf_perm (h.facts .candidateTiers) token.id
  selectiveSecurity := List.Perm.flatMap_left _ fun kind _ =>
    (factsOf_perm (h.facts (.selective kind)) token.id).map _

/-- Histories are assembled alike from rows of the same facts. -/
theorem SameRows.assembled (h : SameRows rows rows') (hids : (rows.tokens.map (·.id)).Nodup)
    {histories : List TokenHistory} (hok : assembleHistories rows' epoch = .ok histories) :
    ∃ histories', assembleHistories rows epoch = .ok histories' ∧
      SameHistories histories' histories := by
  obtain ⟨hnodup, rfl⟩ := assembleHistories_eq_ok.mp hok
  have hids' : (rows'.tokens.map (·.id)).Nodup := (h.tokens.map _).nodup_iff.mp hids
  refine ⟨_, assembleHistories_eq_ok.mpr ⟨fun family => ?_, rfl⟩, ?_⟩
  · exact ((h.facts family).map _).nodup_iff.mpr (hnodup family)
  · rw [distinctBy_eq_self hids (by simp), distinctBy_eq_self hids' (by simp)]
    refine ⟨sortOn (·.address) (rows.tokens.map (rows'.history epoch)), ?_, ?_⟩
    · exact (sortOn_perm _ _).trans ((h.tokens.map _).trans (sortOn_perm _ _).symm)
    · refine sortOn_related (fun _ _ hsame => hsame.address) ?_
      rw [List.forall₂_map_left_iff, List.forall₂_map_right_iff, List.forall₂_same]
      exact fun token htoken => h.history htoken

end Assembly

/-! ### Joined rows -/

/-- A query asks for a row with a token that it is about. -/
def ResearchDatabase.asks (db : ResearchDatabase) (query : ResearchQuery) (family : FactFamily)
    (row : FamilyRow family) (token : TokenRow) : Bool :=
  query.wants token && included query.startAt query.endAt (family.time row.fact) &&
    db.names family row token

/-- The joined rows of one row. -/
def ArchiveView.rowFacts (view : ArchiveView) (query : ResearchQuery) (family : FactFamily)
    (row : FamilyRow family) : List (TokenRow × family.Fact) :=
  ((view.subjects family row).filter (query.admits family row)).map fun subject =>
    (subject.2, family.joined subject.1 row.fact)

theorem id_joined {family : FactFamily} (pair : Option PairRow) (fact : family.Fact) :
    family.id (family.joined pair fact) = family.id fact := by
  cases family <;> rfl

section Joins
variable {db : ResearchDatabase} {view view' : ArchiveView} {query : ResearchQuery}
  {family : FactFamily} {row : FamilyRow family} {token : TokenRow}

/-- No joins for a row of which the query asks for no token of the view. -/
theorem rowFacts_eq_nil (hview : view.Of db)
    (hnone : ∀ token ∈ view.tokens, db.asks query family row token = false) :
    view.rowFacts query family row = [] := by
  rw [ArchiveView.rowFacts, List.map_eq_nil_iff, List.filter_eq_nil_iff]
  intro subject hsubject hadmits
  have hasked := hnone subject.2 (mem_subjects.mp hsubject).1
  have hnames := names_of_mem_subjects hview hsubject
  unfold ResearchQuery.admits at hadmits
  rw [ResearchDatabase.asks, hnames, Bool.and_true, hadmits] at hasked
  cases hasked

/-- The joins of a row with the one token that it is about: copies of one joined row, whatever the
view they are made in. -/
theorem rowFacts_eq_replicate (hview : view.Of db) (hview' : view'.Of db)
    (htoken : token ∈ view.tokens) (htoken' : token ∈ view'.tokens)
    (hasked : db.asks query family row token = true)
    (hpairs : family.viaPair = true →
      ∀ pair ∈ db.pairs, pair.id = row.subject → pair ∈ view.pairs ∧ pair ∈ view'.pairs) :
    ∃ fact, family.id fact = family.id row.fact ∧
      view.rowFacts query family row =
        List.replicate (view.subjects family row).length (token, fact) ∧
      view'.rowFacts query family row =
        List.replicate (view'.subjects family row).length (token, fact) := by
  simp only [ResearchDatabase.asks, Bool.and_eq_true] at hasked
  obtain ⟨⟨hwants, hincluded⟩, hnames⟩ := hasked
  obtain ⟨subject, hsubject, heq⟩ := exists_mem_subjects htoken hnames
    fun hvia pair hpair hid => (hpairs hvia pair hpair hid).1
  obtain ⟨subject', hsubject', _⟩ := exists_mem_subjects htoken' hnames
    fun hvia pair hpair hid => (hpairs hvia pair hpair hid).2
  have hcopies {other : ArchiveView} (hother : other.Of db) :
      other.rowFacts query family row = List.replicate (other.subjects family row).length
        (token, family.joined subject.1 row.fact) := by
    have hall : other.subjects family row =
        List.replicate (other.subjects family row).length subject :=
      List.eq_replicate_of_mem fun found hfound => subjects_unique hother hview hfound hsubject
    have hadmits : query.admits family row subject = true := by
      rw [ResearchQuery.admits, heq, hwants, hincluded]
      rfl
    rw [ArchiveView.rowFacts, hall, List.filter_replicate_of_pos hadmits, List.map_replicate,
      List.length_replicate, heq]
  exact ⟨_, id_joined _ _, hcopies hview, hcopies hview'⟩

end Joins

/-! ### Reading manifests of one database -/

/-- The manifests of consecutive scopes of one epoch, with manifests of other epochs, in any order
and as often as one likes. -/
structure SplitArchive (db : ResearchDatabase) (whole : EpochManifest)
    (parts others manifests : List EpochManifest) : Prop where
  full : db.Exported whole
  scopes : ∀ part ∈ parts, db.Exported part ∧ part.epoch = whole.epoch
  foreign : ∀ other ∈ others, db.Exported other ∧ other.epoch ≠ whole.epoch
  splits : Splits whole parts
  listed : ∀ manifest, manifest ∈ manifests ↔ manifest ∈ parts ∨ manifest ∈ others

section Reads
variable {db : ResearchDatabase} {whole manifest manifest' : EpochManifest}
  {manifests : List EpochManifest} {query : ResearchQuery}

theorem exported_epoch (h : db.Exported manifest) : ∃ epoch ∈ db.epochs,
    epoch.number = manifest.epoch ∧
      manifest = db.scopeManifest epoch manifest.startAt manifest.endAt := by
  obtain ⟨epoch, hfound, heq, _⟩ := exported_scope h
  exact ⟨epoch, List.mem_of_find?_eq_some hfound, by simpa using List.find?_some hfound, heq⟩

/-- The manifests of one epoch agree on it. -/
theorem exported_same_epoch (h : db.Exported manifest) (h' : db.Exported manifest')
    (hepoch : manifest.epoch = manifest'.epoch) :
    manifest.epochId = manifest'.epochId ∧ manifest.epochDataValid = manifest'.epochDataValid := by
  obtain ⟨epoch, hmem, hnumber, heq⟩ := exported_epoch h
  obtain ⟨epoch', hmem', hnumber', heq'⟩ := exported_epoch h'
  have hsame : epoch = epoch' := eq_of_unique db.numbers_unique hmem hmem'
    (hnumber.trans (hepoch.trans hnumber'.symm))
  rw [heq, heq', hsame]
  exact ⟨rfl, rfl⟩

/-- A manifest is known by its epoch and its range. -/
theorem exported_key_injective (h : db.Exported manifest) (h' : db.Exported manifest')
    (hkey : (manifest.epochId, manifest.startAt, manifest.endAt) =
      (manifest'.epochId, manifest'.startAt, manifest'.endAt)) : manifest = manifest' := by
  obtain ⟨epoch, hmem, _, heq⟩ := exported_epoch h
  obtain ⟨epoch', hmem', _, heq'⟩ := exported_epoch h'
  simp only [Prod.mk.injEq] at hkey
  have hid : epoch.id = epoch'.id := by
    have hfirst := hkey.1
    rw [heq, heq'] at hfirst
    exact hfirst
  rw [heq, heq', eq_of_unique db.epochs_unique hmem hmem' hid, hkey.2.1, hkey.2.2]

theorem mem_openedManifests (hall : ∀ manifest ∈ manifests, db.Exported manifest) :
    manifest ∈ openedManifests manifests ↔ manifest ∈ manifests := by
  constructor
  · exact fun h => (mem_distinctBy h).1
  · intro h
    obtain ⟨found, hfound, hkey⟩ : ∃ found ∈ openedManifests manifests,
        (found.epochId, found.startAt, found.endAt) =
          (manifest.epochId, manifest.startAt, manifest.endAt) :=
      exists_mem_distinctBy h (by simp)
    have hmem := (mem_distinctBy hfound).1
    exact exported_key_injective (hall found hmem) (hall manifest h) hkey ▸ hfound

theorem nodup_openedManifests (manifests : List EpochManifest) :
    (openedManifests manifests).Nodup := (nodup_distinctBy _ [] manifests).of_map

/-- The cold source over verified manifests of an epoch. -/
theorem coldSource_eq (hall : ∀ manifest ∈ manifests, db.Exported manifest)
    (hwhole : db.Exported whole) (hquery : query.epochNumber = whole.epoch)
    (hsome : ∃ manifest ∈ manifests, manifest.epoch = whole.epoch) :
    coldSource manifests query =
      if whole.epochDataValid = false ∧ query.allowInvalidEpoch = false then .ok []
      else
        requireResearchBoundaries (archiveView (openedManifests manifests)).runs
          ("epoch " ++ toString query.epochNumber ++ " archive") >>= fun _ =>
        assembleHistories ((archiveView (openedManifests manifests)).historyRows query)
          ⟨whole.epochId, query.epochNumber, whole.epochDataValid, coldDescriptor⟩ := by
  obtain ⟨some, hmem, hepoch⟩ := hsome
  have hverified : manifests.mapM verifyArchive = .ok (manifests.map fun _ => ()) := by
    rw [mapM_eq_ok, List.forall₂_map_right_iff, List.forall₂_same]
    intro manifest hmanifest
    obtain ⟨_, _, _, _, hok⟩ := exported_scope (hall manifest hmanifest)
    exact hok
  have hsame : ∀ manifest ∈ manifests.filter (·.epoch = query.epochNumber),
      manifest.epochId = whole.epochId ∧ manifest.epochDataValid = whole.epochDataValid := by
    intro manifest hmanifest
    obtain ⟨hin, hnumber⟩ := List.mem_filter.mp hmanifest
    exact exported_same_epoch (hall manifest hin) hwhole ((of_decide_eq_true hnumber).trans hquery)
  have hne : manifests.isEmpty = false := by
    rw [List.isEmpty_eq_false_iff]
    exact List.ne_nil_of_mem hmem
  unfold coldSource
  rw [if_neg (by simp [hne]), hverified, ok_bind]
  cases hfilter : manifests.filter (·.epoch = query.epochNumber) with
  | nil =>
    rw [List.filter_eq_nil_iff] at hfilter
    exact absurd (decide_eq_true (hepoch.trans hquery.symm)) (hfilter some hmem)
  | cons first rest =>
    rw [hfilter] at hsame
    have hids : ¬ (rest.any fun manifest => decide (manifest.epochId ≠ whole.epochId)) = true := by
      rw [List.any_eq_true]
      intro ⟨manifest, hin, hdiffers⟩
      exact of_decide_eq_true hdiffers (hsame manifest (List.mem_cons_of_mem _ hin)).1
    have hvalid : (first :: rest).all (·.epochDataValid) = whole.epochDataValid := by
      cases hdata : whole.epochDataValid with
      | true =>
        rw [List.all_eq_true]
        intro manifest hin
        rw [(hsame manifest hin).2, hdata]
      | false =>
        rw [List.all_eq_false]
        refine ⟨first, List.mem_cons_self, ?_⟩
        rw [(hsame first List.mem_cons_self).2, hdata]
        exact Bool.false_ne_true
    simp only [(hsame first List.mem_cons_self).1, if_neg hids, hvalid, Bool.not_eq_true]
    rfl

end Reads

/-- The opened manifests of other epochs. -/
def foreignManifests (whole : EpochManifest) (manifests : List EpochManifest) :
    List EpochManifest :=
  (openedManifests manifests).filter fun manifest => ! decide (manifest.epoch = whole.epoch)

/-! ### What is read of the parts -/

section Split
variable {db : ResearchDatabase} {whole : EpochManifest}
  {parts others manifests : List EpochManifest} {query : ResearchQuery}

theorem SplitArchive.exported (h : SplitArchive db whole parts others manifests) :
    ∀ manifest ∈ manifests, db.Exported manifest := by
  intro manifest hmanifest
  cases (h.listed manifest).mp hmanifest with
  | inl hpart => exact (h.scopes manifest hpart).1
  | inr hother => exact (h.foreign manifest hother).1

theorem SplitArchive.mem_foreign (h : SplitArchive db whole parts others manifests)
    {manifest : EpochManifest} : manifest ∈ foreignManifests whole manifests ↔ manifest ∈ others := by
  rw [foreignManifests, List.mem_filter, mem_openedManifests h.exported, h.listed]
  constructor
  · intro ⟨hlisted, hepoch⟩
    refine hlisted.resolve_left fun hpart => ?_
    simp [(h.scopes manifest hpart).2] at hepoch
  · intro hother
    exact ⟨.inr hother, by simp [(h.foreign manifest hother).2]⟩

/-- The parts are opened once each. -/
theorem SplitArchive.opened_perm (h : SplitArchive db whole parts others manifests) :
    (openedManifests manifests).Perm (parts ++ foreignManifests whole manifests) := by
  have hparts : parts.Nodup := by
    obtain ⟨ranges, hranges, hperm⟩ := h.splits
    exact (hperm.nodup_iff.mpr hranges.nodup).of_map
  have hmine : ((openedManifests manifests).filter fun manifest =>
      decide (manifest.epoch = whole.epoch)).Perm parts := by
    refine (List.perm_ext_iff_of_nodup ((nodup_openedManifests manifests).filter _) hparts).mpr
      fun manifest => ?_
    rw [List.mem_filter, mem_openedManifests h.exported, h.listed]
    constructor
    · intro ⟨hlisted, hepoch⟩
      exact hlisted.resolve_right fun hother =>
        (h.foreign manifest hother).2 (of_decide_eq_true hepoch)
    · intro hpart
      exact ⟨.inl hpart, decide_eq_true (h.scopes manifest hpart).2⟩
  exact (List.filter_append_perm _ _).symm.trans (hmine.append_right _)

theorem SplitArchive.rows_perm (h : SplitArchive db whole parts others manifests)
    (family : FactFamily) :
    ((archiveView (openedManifests manifests)).rows family).Perm
      (whole.rows family ++ (foreignManifests whole manifests).flatMap (·.rows family)) := by
  refine (h.opened_perm.flatMap_right _).trans ?_
  rw [List.flatMap_append]
  exact (parts_rows_perm h.full (fun part hpart => (h.scopes part hpart).1)
    (fun part hpart => (h.scopes part hpart).2) h.splits family).append_right _

theorem SplitArchive.contexts_perm (h : SplitArchive db whole parts others manifests) :
    (archiveView (openedManifests manifests)).contexts.Perm
      (whole.contexts ++ (foreignManifests whole manifests).flatMap (·.contexts)) := by
  refine (h.opened_perm.flatMap_right _).trans ?_
  rw [List.flatMap_append]
  exact (parts_contexts_perm h.full (fun part hpart => (h.scopes part hpart).1)
    (fun part hpart => (h.scopes part hpart).2) h.splits).append_right _

theorem mem_opened (h : SplitArchive db whole parts others manifests) {manifest : EpochManifest} :
    manifest ∈ openedManifests manifests ↔ manifest ∈ parts ∨ manifest ∈ others := by
  rw [mem_openedManifests h.exported, h.listed]

theorem SplitArchive.mem_tokens (h : SplitArchive db whole parts others manifests)
    {token : TokenRow} : token ∈ (archiveView (openedManifests manifests)).tokens ↔
      token ∈ whole.tokens ∨ ∃ other ∈ others, token ∈ other.tokens := by
  rw [mem_tokens_iff_parts h.full (fun part hpart => (h.scopes part hpart).1)
    (fun part hpart => (h.scopes part hpart).2) h.splits]
  simp only [archiveView, List.mem_flatMap, mem_opened h, or_and_right, exists_or]

theorem SplitArchive.mem_pairs (h : SplitArchive db whole parts others manifests)
    {pair : PairRow} : pair ∈ (archiveView (openedManifests manifests)).pairs ↔
      pair ∈ whole.pairs ∨ ∃ other ∈ others, pair ∈ other.pairs := by
  rw [mem_pairs_iff_parts h.full (fun part hpart => (h.scopes part hpart).1)
    (fun part hpart => (h.scopes part hpart).2) h.splits]
  simp only [archiveView, List.mem_flatMap, mem_opened h, or_and_right, exists_or]

theorem SplitArchive.mem_runs (h : SplitArchive db whole parts others manifests)
    {run : CollectorRunRow} : run ∈ (archiveView (openedManifests manifests)).runs ↔
      run ∈ whole.runs ∨ ∃ other ∈ others, run ∈ other.runs := by
  rw [mem_runs_iff_parts h.full (fun part hpart => (h.scopes part hpart).1)
    (fun part hpart => (h.scopes part hpart).2) h.splits]
  simp only [archiveView, List.mem_flatMap, mem_opened h, or_and_right, exists_or]

theorem openedManifests_singleton (manifest : EpochManifest) :
    openedManifests [manifest] = [manifest] := by simp [openedManifests, distinctBy]

theorem SplitArchive.opened_of (h : SplitArchive db whole parts others manifests) :
    (archiveView (openedManifests manifests)).Of db :=
  archiveView_of fun manifest hmanifest =>
    h.exported manifest ((mem_openedManifests h.exported).mp hmanifest)

theorem SplitArchive.whole_of (h : SplitArchive db whole parts others manifests) :
    (archiveView [whole]).Of db :=
  archiveView_of fun _ hmanifest => List.mem_singleton.mp hmanifest ▸ h.full

/-- The joined rows of all manifests: those of the rows of the whole range, and those of other
epochs. -/
theorem SplitArchive.familyFacts_perm (h : SplitArchive db whole parts others manifests)
    (query : ResearchQuery) (family : FactFamily) :
    ((archiveView (openedManifests manifests)).familyFacts query family).Perm
      ((whole.rows family).flatMap
          ((archiveView (openedManifests manifests)).rowFacts query family) ++
        ((foreignManifests whole manifests).flatMap (·.rows family)).flatMap
          ((archiveView (openedManifests manifests)).rowFacts query family)) := by
  rw [← List.flatMap_append]
  exact (h.rows_perm family).flatMap_right _

theorem familyFacts_whole (family : FactFamily) :
    (archiveView [whole]).familyFacts query family =
      (whole.rows family).flatMap ((archiveView [whole]).rowFacts query family) := by
  have hrows : (archiveView [whole]).rows family = whole.rows family := by
    simp [archiveView]
  show ((archiveView [whole]).rows family).flatMap _ = _
  rw [hrows]
  rfl

/-- How often a row of the whole range is joined with a token that is asked for. -/
theorem SplitArchive.joins (h : SplitArchive db whole parts others manifests) {family : FactFamily}
    {row : FamilyRow family} (hrow : row ∈ whole.rows family) {token : TokenRow}
    (htoken : token ∈ whole.tokens) (hasked : db.asks query family row token = true) :
    ∃ fact copies, family.id fact = family.id row.fact ∧
      (archiveView [whole]).rowFacts query family row = [(token, fact)] ∧
      copies = (if family.viaPair then pairHolders (openedManifests manifests) row.subject else 1) *
        tokenHolders (openedManifests manifests) token.id ∧ 0 < copies ∧
      (archiveView (openedManifests manifests)).rowFacts query family row =
        List.replicate copies (token, fact) := by
  have hin : token ∈ (archiveView [whole]).tokens := List.mem_flatMap.mpr ⟨whole, by simp, htoken⟩
  have hopened : token ∈ (archiveView (openedManifests manifests)).tokens :=
    h.mem_tokens.mpr (.inl htoken)
  have hpairs : family.viaPair = true → ∀ pair ∈ db.pairs, pair.id = row.subject →
      pair ∈ whole.pairs := pair_mem_of_mem_rows h.full hrow
  have hpairsIn : family.viaPair = true → ∀ pair ∈ db.pairs, pair.id = row.subject →
      pair ∈ (archiveView [whole]).pairs := fun hvia pair hpair hid =>
    List.mem_flatMap.mpr ⟨whole, by simp, hpairs hvia pair hpair hid⟩
  have hpairsOpened : family.viaPair = true → ∀ pair ∈ db.pairs, pair.id = row.subject →
      pair ∈ (archiveView (openedManifests manifests)).pairs := fun hvia pair hpair hid =>
    h.mem_pairs.mpr (.inl (hpairs hvia pair hpair hid))
  obtain ⟨fact, hid, hwhole, hall⟩ := rowFacts_eq_replicate h.whole_of h.opened_of hin hopened
    hasked fun hvia pair hpair hid => ⟨hpairsIn hvia pair hpair hid, hpairsOpened hvia pair hpair hid⟩
  have hnames : db.names family row token = true := (Bool.and_eq_true_iff.mp hasked).2
  have hexported : ∀ manifest ∈ openedManifests manifests, db.Exported manifest := fun _ hm =>
    h.exported _ ((mem_openedManifests h.exported).mp hm)
  refine ⟨fact, _, hid, ?_, ?_, ?_, hall⟩
  · obtain ⟨subject, hsubject, heq⟩ := exists_mem_subjects hin hnames hpairsIn
    have hlength := length_subjects h.whole_of (by simpa using tokens_nodup h.full)
      (by simpa using pairs_nodup h.full) hsubject
    have htokens : tokenHolders [whole] subject.2.id = 1 := by
      have hany : (whole.tokens.any fun other => decide (other.id = token.id)) = true :=
        List.any_eq_true.mpr ⟨token, htoken, decide_eq_true rfl⟩
      simp [tokenHolders, heq, hany]
    have honce : (if family.viaPair then pairHolders [whole] row.subject else 1) = 1 := by
      split
      · next hvia =>
        obtain ⟨_, hjoin⟩ := mem_subjects.mp hsubject
        rw [if_pos hvia] at hjoin
        obtain ⟨pair, hpair, _, hpairId, _⟩ := hjoin
        obtain ⟨_, hsame, hmem⟩ := List.mem_flatMap.mp hpair
        rw [List.mem_singleton.mp hsame] at hmem
        have hany : (whole.pairs.any fun other => decide (other.id = row.subject)) = true :=
          List.any_eq_true.mpr ⟨pair, hmem, decide_eq_true hpairId⟩
        simp [pairHolders, hany]
      · rfl
    rw [hwhole, hlength, htokens, honce]
    rfl
  · obtain ⟨subject, hsubject, heq⟩ := exists_mem_subjects hopened hnames hpairsOpened
    rw [length_subjects h.opened_of (fun _ hm => tokens_nodup (hexported _ hm))
      (fun _ hm => pairs_nodup (hexported _ hm)) hsubject, heq]
  · obtain ⟨subject, hsubject, _⟩ := exists_mem_subjects hopened hnames hpairsOpened
    exact List.length_pos_of_mem hsubject

end Split

/-! ### When the reads agree -/

/-- Both reads return, with the same histories. -/
def ReadsAlike (manifests : List EpochManifest) (whole : EpochManifest) (query : ResearchQuery) :
    Prop :=
  ∃ histories histories', coldSource manifests query = .ok histories ∧
    coldSource [whole] query = .ok histories' ∧ SameHistories histories histories'

/-- The runs have known boundaries, the other epochs have nothing that the query asks for, and no
token with a row that it asks for is in two manifests. -/
structure Separable (db : ResearchDatabase) (whole : EpochManifest)
    (others opened : List EpochManifest) (query : ResearchQuery) : Prop where
  runs : whole.runs ≠ []
  known : ∀ run ∈ whole.runs, run.collectionStartedAt.isSome = true
  foreignKnown : ∀ other ∈ others, ∀ run ∈ other.runs, run.collectionStartedAt.isSome = true
  observed : ∀ family, (((whole.rows family).filter fun row =>
    whole.tokens.any (db.asks query family row)).map fun row => family.id row.fact).Nodup
  foreignTokens : ∀ other ∈ others, ∀ token ∈ other.tokens, query.wants token = true →
    token ∈ whole.tokens
  foreignRows : ∀ other ∈ others, ∀ family, ∀ row ∈ other.rows family, ∀ token ∈ whole.tokens,
    db.asks query family row token = false
  foreignContexts : ∀ token ∈ whole.tokens, query.wants token = true →
    ∀ other ∈ others, ∀ row ∈ other.contexts,
      included query.startAt query.endAt row.fact.receivedAt = false
  once : ∀ family, ∀ row ∈ whole.rows family, ∀ token ∈ whole.tokens,
    db.asks query family row token = true → tokenHolders opened token.id = 1 ∧
      (family.viaPair = true → pairHolders opened row.subject = 1)

section Agreement
variable {db : ResearchDatabase} {whole : EpochManifest}
  {parts others manifests : List EpochManifest} {query : ResearchQuery}

/-- Identities of rows that are expanded to one item each, or to none. -/
theorem map_flatMap_of_single {α β κ : Type} {f : α → List β} {ident : β → κ} {key : α → κ}
    {p : α → Bool} {xs : List α} (hsome : ∀ x ∈ xs, p x = true → ∃ y, f x = [y] ∧ ident y = key x)
    (hnone : ∀ x ∈ xs, p x = false → f x = []) :
    (xs.flatMap f).map ident = (xs.filter p).map key := by
  induction xs with
  | nil => rfl
  | cons x xs ih =>
    have hrest := ih (fun y hy => hsome y (List.mem_cons_of_mem _ hy))
      fun y hy => hnone y (List.mem_cons_of_mem _ hy)
    rw [List.flatMap_cons, List.map_append, hrest]
    cases hp : p x with
    | true =>
      obtain ⟨y, hf, hkey⟩ := hsome x List.mem_cons_self hp
      rw [List.filter_cons_of_pos hp, hf, List.map_singleton, hkey]
      rfl
    | false =>
      rw [List.filter_cons_of_neg (by simp [hp]), hnone x List.mem_cons_self hp]
      rfl

theorem mem_whole_tokens {token : TokenRow} :
    token ∈ (archiveView [whole]).tokens ↔ token ∈ whole.tokens := by
  simp [archiveView]

/-- The identities that the read of the whole range returns. -/
theorem SplitArchive.whole_ids (h : SplitArchive db whole parts others manifests)
    (query : ResearchQuery) (family : FactFamily) :
    (((archiveView [whole]).familyFacts query family).map fun row => family.id row.2) =
      ((whole.rows family).filter fun row => whole.tokens.any (db.asks query family row)).map
        fun row => family.id row.fact := by
  rw [familyFacts_whole]
  refine map_flatMap_of_single (fun row hrow hany => ?_) fun row _ hnone => ?_
  · obtain ⟨token, htoken, hasked⟩ := List.any_eq_true.mp hany
    obtain ⟨fact, _, hid, hwhole, _⟩ := h.joins hrow htoken hasked
    exact ⟨_, hwhole, hid⟩
  · refine rowFacts_eq_nil h.whole_of fun token htoken => ?_
    rw [List.any_eq_false] at hnone
    exact Bool.eq_false_iff.mpr (hnone token (mem_whole_tokens.mp htoken))

/-- The tokens that a query returns have different identities. -/
theorem historyRows_tokens_nodup {view : ArchiveView} (hview : view.Of db) :
    ((view.historyRows query).tokens.map (·.id)).Nodup := by
  have hnodup : (view.historyRows query).tokens.Nodup :=
    (sortOn_perm _ _).nodup_iff.mpr (List.nodup_dedup _)
  refine hnodup.map_on fun token htoken other hother heq => ?_
  have hmem : ∀ found ∈ (view.historyRows query).tokens, found ∈ db.tokens := by
    intro found hfound
    have hin := List.mem_dedup.mp ((mem_sortOn _ _ _).mp hfound)
    exact hview.tokens found (List.mem_filter.mp hin).1
  exact eq_of_unique db.tokens_unique (hmem token htoken) (hmem other hother) heq

theorem mem_historyRows_tokens {view : ArchiveView} {token : TokenRow} :
    token ∈ (view.historyRows query).tokens ↔ token ∈ view.tokens ∧ query.wants token = true := by
  show token ∈ sortOn _ _ ↔ _
  rw [mem_sortOn, List.mem_dedup, List.mem_filter]

/-- Separable manifests hold the rows of the whole range. -/
theorem Separable.sameRows (hsep : Separable db whole others (openedManifests manifests) query)
    (h : SplitArchive db whole parts others manifests) :
    SameRows ((archiveView (openedManifests manifests)).historyRows query)
      ((archiveView [whole]).historyRows query) where
  tokens := by
    refine (List.perm_ext_iff_of_nodup (historyRows_tokens_nodup h.opened_of).of_map
      (historyRows_tokens_nodup h.whole_of).of_map).mpr fun token => ?_
    rw [mem_historyRows_tokens, mem_historyRows_tokens, h.mem_tokens, mem_whole_tokens]
    constructor
    · intro ⟨hmem, hwants⟩
      refine ⟨hmem.elim id fun hother => ?_, hwants⟩
      obtain ⟨other, hin, htoken⟩ := hother
      exact hsep.foreignTokens other hin token htoken hwants
    · exact fun hmem => ⟨.inl hmem.1, hmem.2⟩
  facts family := by
    have hasked : ∀ row : FamilyRow family, ∀ token ∈ (archiveView
        (openedManifests manifests)).tokens, db.asks query family row token = true →
          token ∈ whole.tokens := by
      intro row token htoken hasks
      have hwants : query.wants token = true := by
        simp only [ResearchDatabase.asks, Bool.and_eq_true] at hasks
        exact hasks.1.1
      refine (h.mem_tokens.mp htoken).elim id fun hother => ?_
      obtain ⟨other, hin, hmem⟩ := hother
      exact hsep.foreignTokens other hin token hmem hwants
    have hforeign : ((foreignManifests whole manifests).flatMap (·.rows family)).flatMap
        ((archiveView (openedManifests manifests)).rowFacts query family) = [] := by
      rw [List.flatMap_eq_nil_iff]
      intro row hrow
      obtain ⟨other, hother, hmem⟩ := List.mem_flatMap.mp hrow
      refine rowFacts_eq_nil h.opened_of fun token htoken => ?_
      by_contra hasks
      rw [Bool.not_eq_false] at hasks
      have hnot := hsep.foreignRows other (h.mem_foreign.mp hother) family row hmem token
        (hasked row token htoken hasks)
      rw [hnot] at hasks
      cases hasks
    have hsame : (whole.rows family).flatMap
        ((archiveView (openedManifests manifests)).rowFacts query family) =
        (whole.rows family).flatMap ((archiveView [whole]).rowFacts query family) := by
      refine List.flatMap_congr fun row hrow => ?_
      by_cases hany : ∃ token ∈ whole.tokens, db.asks query family row token = true
      · obtain ⟨token, htoken, hasks⟩ := hany
        obtain ⟨fact, copies, _, hwhole, hcopies, _, hopened⟩ := h.joins hrow htoken hasks
        obtain ⟨htokens, hpairs⟩ := hsep.once family row hrow token htoken hasks
        rw [hwhole, hopened, hcopies, htokens, mul_one]
        split
        · next hvia =>
          rw [hpairs hvia]
          rfl
        · rfl
      · rw [rowFacts_eq_nil h.opened_of, rowFacts_eq_nil h.whole_of]
        · exact fun token htoken => Bool.eq_false_iff.mpr fun hasks =>
            hany ⟨token, mem_whole_tokens.mp htoken, hasks⟩
        · exact fun token htoken => Bool.eq_false_iff.mpr fun hasks =>
            hany ⟨token, hasked row token htoken hasks, hasks⟩
    show ((archiveView (openedManifests manifests)).familyFacts query family).Perm
      ((archiveView [whole]).familyFacts query family)
    have hperm := h.familyFacts_perm query family
    rw [hforeign, List.append_nil, hsame, ← familyFacts_whole] at hperm
    exact hperm
  contexts := by
    intro hne
    obtain ⟨token, htoken⟩ := List.exists_mem_of_ne_nil _ hne
    obtain ⟨hmem, hwants⟩ := mem_historyRows_tokens.mp htoken
    have hwhole : token ∈ whole.tokens := by
      refine (h.mem_tokens.mp hmem).elim id fun hother => ?_
      obtain ⟨other, hin, hother⟩ := hother
      exact hsep.foreignTokens other hin token hother hwants
    have hnone : (((foreignManifests whole manifests).flatMap (·.contexts)).map (·.fact)).filter
        (fun fact => included query.startAt query.endAt fact.receivedAt) = [] := by
      rw [List.filter_eq_nil_iff]
      intro fact hfact
      obtain ⟨row, hrow, rfl⟩ := List.mem_map.mp hfact
      obtain ⟨other, hother, hin⟩ := List.mem_flatMap.mp hrow
      rw [hsep.foreignContexts token hwhole hwants other (h.mem_foreign.mp hother) row hin]
      exact Bool.false_ne_true
    have hcontexts : (archiveView [whole]).contexts = whole.contexts := by simp [archiveView]
    have hperm := (h.contexts_perm.map (·.fact)).filter
      fun fact => included query.startAt query.endAt fact.receivedAt
    rw [List.map_append, List.filter_append, hnone, List.append_nil] at hperm
    show ((((archiveView (openedManifests manifests)).contexts.map (·.fact))).filter _).Perm
      (((archiveView [whole]).contexts.map (·.fact)).filter _)
    rw [hcontexts]
    exact hperm

/-- What a source returns: one history for each of its tokens. -/
theorem mem_assembled {view : ArchiveView} (hview : view.Of db) {epoch : HistoryEpoch}
    {history : TokenHistory} :
    history ∈ sortOn (·.address) ((distinctBy (·.id) [] (view.historyRows query).tokens).map
        ((view.historyRows query).history epoch)) ↔
      ∃ token ∈ (view.historyRows query).tokens,
        (view.historyRows query).history epoch token = history := by
  rw [mem_sortOn, distinctBy_eq_self (historyRows_tokens_nodup hview) (by simp), List.mem_map]

theorem ids_renamed (facts : List SelectiveSecurityFact) (name name' : String) :
    (((facts.map fun fact => { fact with family := name' }).filter (·.family = name)).map (·.id)) =
      if name' = name then facts.map (·.id) else [] := by
  by_cases h : name' = name
  · simp [List.filter_map, Function.comp_def, h]
  · simp [List.filter_map, Function.comp_def, h]

/-- The identities of one selective family among the facts of all. -/
theorem ids_selective (rows : HistoryRows) (kind : SelectiveFamily) (tokenId : String) :
    ((rows.selectiveSecurity tokenId).filter (·.family = kind.name)).map (·.id) =
      (factsOf (rows.rows (.selective kind)) tokenId).map (FactFamily.id (.selective kind)) := by
  have hkinds : ((rows.selectiveSecurity tokenId).filter (·.family = kind.name)).map (·.id) =
      SelectiveFamily.all.flatMap fun kind' => if kind'.name = kind.name then
        (factsOf (rows.rows (.selective kind')) tokenId).map (FactFamily.id (.selective kind'))
      else [] := by
    rw [HistoryRows.selectiveSecurity, List.filter_flatMap, List.map_flatMap]
    exact List.flatMap_congr fun kind' _ => ids_renamed _ _ _
  rw [hkinds]
  cases kind <;> simp [SelectiveFamily.all, SelectiveFamily.name]

theorem SameFacts.ids {rows rows' : HistoryRows} {epoch epoch' : HistoryEpoch}
    {token token' : TokenRow}
    (h : SameFacts (rows.history epoch token) (rows'.history epoch' token')) (family : FactFamily) :
    ((factsOf (rows.rows family) token.id).map family.id).Perm
      ((factsOf (rows'.rows family) token'.id).map family.id) := by
  cases family with
  | observations => exact h.observations.map _
  | lifecycle => exact h.lifecycle.map _
  | discoveries => exact h.discoveries.map _
  | pairFacts => exact h.pairFacts.map _
  | boosts => exact h.boosts.map _
  | metadata => exact h.metadata.map _
  | security => exact h.security.map _
  | coverage => exact h.coverage.map _
  | candidates => exact h.candidates.map _
  | candidateTiers => exact h.candidateTiers.map _
  | selective kind =>
    rw [← ids_selective, ← ids_selective]
    exact (h.selectiveSecurity.filter _).map _

/-- Every token that one of two equal reads returns, the other returns with the same facts. -/
theorem SameHistories.exists_same {view view' : ArchiveView} (hview : view.Of db)
    (hview' : view'.Of db) {epoch : HistoryEpoch} {histories histories' : List TokenHistory}
    (hrows : histories = sortOn (·.address) ((distinctBy (·.id) [] (view.historyRows query).tokens).map
      ((view.historyRows query).history epoch)))
    (hrows' : histories' = sortOn (·.address)
      ((distinctBy (·.id) [] (view'.historyRows query).tokens).map
        ((view'.historyRows query).history epoch)))
    (hsame : SameHistories histories histories') {token : TokenRow}
    (htoken : token ∈ (view.historyRows query).tokens) :
    token ∈ (view'.historyRows query).tokens ∧
      SameFacts ((view.historyRows query).history epoch token)
        ((view'.historyRows query).history epoch token) := by
  obtain ⟨zs, hperm, hall⟩ := hsame
  have hmem : (view.historyRows query).history epoch token ∈ histories := by
    rw [hrows]
    exact (mem_assembled hview).mpr ⟨token, htoken, rfl⟩
  obtain ⟨z, hz, hfacts⟩ := exists_related_right hall hmem
  have hz' := hperm.mem_iff.mp hz
  rw [hrows', mem_assembled hview'] at hz'
  obtain ⟨token', htoken', rfl⟩ := hz'
  have heq : token = token' := eq_of_unique db.tokens_unique
    (hview.tokens _ (mem_historyRows_tokens.mp htoken).1)
    (hview'.tokens _ (mem_historyRows_tokens.mp htoken').1) hfacts.tokenId
  rw [← heq] at htoken' hfacts
  exact ⟨htoken', hfacts⟩

/-- A row of another epoch is joined with every token of the archive that it is about. -/
theorem SplitArchive.foreign_joined (h : SplitArchive db whole parts others manifests)
    {other : EpochManifest} (hother : other ∈ others) {family : FactFamily}
    {row : FamilyRow family} (hrow : row ∈ other.rows family) {token : TokenRow}
    (htoken : token ∈ (archiveView (openedManifests manifests)).tokens)
    (hasks : db.asks query family row token = true) :
    ∃ fact, family.id fact = family.id row.fact ∧
      (token, fact) ∈ (archiveView (openedManifests manifests)).rowFacts query family row := by
  simp only [ResearchDatabase.asks, Bool.and_eq_true] at hasks
  obtain ⟨⟨hwants, hincluded⟩, hnames⟩ := hasks
  obtain ⟨subject, hsubject, heq⟩ := exists_mem_subjects htoken hnames fun hvia pair hpair hid =>
    h.mem_pairs.mpr (.inr ⟨other, hother,
      pair_mem_of_mem_rows (h.foreign other hother).1 hrow hvia pair hpair hid⟩)
  refine ⟨family.joined subject.1 row.fact, id_joined _ _, ?_⟩
  refine List.mem_map.mpr ⟨subject, List.mem_filter.mpr ⟨hsubject, ?_⟩, by rw [heq]⟩
  rw [ResearchQuery.admits, heq, hwants, hincluded]
  rfl

/-- The identities of the joined rows of both parts of the archive. -/
theorem SplitArchive.ids_perm (h : SplitArchive db whole parts others manifests)
    (query : ResearchQuery) (family : FactFamily) :
    (((archiveView (openedManifests manifests)).familyFacts query family).map
        fun row => family.id row.2).Perm
      (((whole.rows family).flatMap
          ((archiveView (openedManifests manifests)).rowFacts query family)).map
            (fun row => family.id row.2) ++
        (((foreignManifests whole manifests).flatMap (·.rows family)).flatMap
          ((archiveView (openedManifests manifests)).rowFacts query family)).map
            fun row => family.id row.2) := by
  have hperm := (h.familyFacts_perm query family).map fun row => family.id row.2
  rw [List.map_append] at hperm
  exact hperm

/-- Reads that agree are of separable manifests. -/
theorem SplitArchive.separable (h : SplitArchive db whole parts others manifests)
    {epoch : HistoryEpoch} {histories histories' : List TokenHistory}
    (hruns : (archiveView (openedManifests manifests)).runs ≠ [] ∧
      ∀ run ∈ (archiveView (openedManifests manifests)).runs, run.collectionStartedAt.isSome = true)
    (hruns' : (archiveView [whole]).runs ≠ [])
    (hok : assembleHistories ((archiveView (openedManifests manifests)).historyRows query) epoch =
      .ok histories)
    (hok' : assembleHistories ((archiveView [whole]).historyRows query) epoch = .ok histories')
    (hsame : SameHistories histories histories') :
    Separable db whole others (openedManifests manifests) query := by
  obtain ⟨hnodup, hrows⟩ := assembleHistories_eq_ok.mp hok
  obtain ⟨hnodup', hrows'⟩ := assembleHistories_eq_ok.mp hok'
  have hboth : ∀ token ∈ (archiveView (openedManifests manifests)).tokens,
      query.wants token = true → token ∈ whole.tokens ∧
        SameFacts (((archiveView (openedManifests manifests)).historyRows query).history epoch token)
          (((archiveView [whole]).historyRows query).history epoch token) := by
    intro token htoken hwants
    obtain ⟨hmem, hfacts⟩ := hsame.exists_same h.opened_of h.whole_of hrows hrows'
      (mem_historyRows_tokens.mpr ⟨htoken, hwants⟩)
    exact ⟨mem_whole_tokens.mp (mem_historyRows_tokens.mp hmem).1, hfacts⟩
  have hids (family : FactFamily) := (h.ids_perm query family).nodup_iff.mp (hnodup family)
  have hwanted {family : FactFamily} {row : FamilyRow family} {token : TokenRow}
      (hasks : db.asks query family row token = true) : query.wants token = true := by
    simp only [ResearchDatabase.asks, Bool.and_eq_true] at hasks
    exact hasks.1.1
  constructor
  · simpa [archiveView] using hruns'
  · exact fun run hrun => hruns.2 run (h.mem_runs.mpr (.inl hrun))
  · exact fun other hother run hrun => hruns.2 run (h.mem_runs.mpr (.inr ⟨other, hother, hrun⟩))
  · intro family
    rw [← h.whole_ids query]
    exact hnodup' family
  · exact fun other hother token htoken hwants =>
      (hboth token (h.mem_tokens.mpr (.inr ⟨other, hother, htoken⟩)) hwants).1
  · intro other hother family row hrow token htoken
    by_contra hasks
    rw [Bool.not_eq_false] at hasks
    have hopened := h.mem_tokens.mpr (.inl htoken)
    obtain ⟨_, hfacts⟩ := hboth token hopened (hwanted hasks)
    -- the joined row of the other epoch is a fact of the token
    obtain ⟨fact, hid, hfact⟩ := h.foreign_joined hother hrow hopened hasks
    have hforeign : (token, fact) ∈ ((foreignManifests whole manifests).flatMap (·.rows family)).flatMap
        ((archiveView (openedManifests manifests)).rowFacts query family) :=
      List.mem_flatMap.mpr ⟨row, List.mem_flatMap.mpr ⟨other, h.mem_foreign.mpr hother, hrow⟩, hfact⟩
    have hread : (token, fact) ∈ (archiveView (openedManifests manifests)).familyFacts query family :=
      (h.familyFacts_perm query family).mem_iff.mpr (List.mem_append_right _ hforeign)
    have hmine : family.id fact ∈ (factsOf ((archiveView (openedManifests manifests)).familyFacts query
        family) token.id).map family.id :=
      List.mem_map_of_mem (List.mem_map.mpr
        ⟨_, List.mem_filter.mpr ⟨hread, decide_eq_true rfl⟩, rfl⟩)
    -- so the whole range has a row of its identity, which is joined in the parts too
    obtain ⟨same, hsameFact, hsameId⟩ := List.mem_map.mp ((hfacts.ids family).mem_iff.mp hmine)
    obtain ⟨joined, hjoined, rfl⟩ := List.mem_map.mp hsameFact
    have hwholeId : family.id fact ∈ ((archiveView [whole]).familyFacts query family).map
        fun row => family.id row.2 :=
      List.mem_map.mpr ⟨joined, (List.mem_filter.mp hjoined).1, hsameId⟩
    rw [h.whole_ids query] at hwholeId
    obtain ⟨own, hown, hownId⟩ := List.mem_map.mp hwholeId
    obtain ⟨hownRow, hany⟩ := List.mem_filter.mp hown
    obtain ⟨owner, howner, hownAsks⟩ := List.any_eq_true.mp hany
    obtain ⟨ownFact, copies, hownFactId, _, _, hpos, hcopied⟩ := h.joins hownRow howner hownAsks
    have hfirst : family.id fact ∈ ((whole.rows family).flatMap
        ((archiveView (openedManifests manifests)).rowFacts query family)).map
          fun row => family.id row.2 := by
      refine List.mem_map.mpr ⟨(owner, ownFact), List.mem_flatMap.mpr ⟨own, hownRow, ?_⟩,
        hownFactId.trans hownId⟩
      rw [hcopied]
      exact List.mem_replicate.mpr ⟨by omega, rfl⟩
    exact (List.nodup_append.mp (hids family)).2.2 _ hfirst _
      (List.mem_map.mpr ⟨_, hforeign, rfl⟩) rfl
  · intro token htoken hwants other hother row hrow
    obtain ⟨_, hfacts⟩ := hboth token (h.mem_tokens.mpr (.inl htoken)) hwants
    have hlength := hfacts.context.length_eq
    have hperm := ((h.contexts_perm.map (·.fact)).filter
      fun fact => included query.startAt query.endAt fact.receivedAt).length_eq
    rw [List.map_append, List.filter_append, List.length_append] at hperm
    have hcontexts : (archiveView [whole]).contexts = whole.contexts := by simp [archiveView]
    have hmine : ((archiveView [whole]).historyRows query).contexts =
        (whole.contexts.map (·.fact)).filter
          fun fact => included query.startAt query.endAt fact.receivedAt := by
      rw [← hcontexts]
      rfl
    have hsameLength : (((archiveView (openedManifests manifests)).contexts.map (·.fact)).filter
        fun fact => included query.startAt query.endAt fact.receivedAt).length =
        ((whole.contexts.map (·.fact)).filter
          fun fact => included query.startAt query.endAt fact.receivedAt).length := by
      rw [← hmine]
      exact hlength
    have hnone : ((((foreignManifests whole manifests).flatMap (·.contexts)).map (·.fact)).filter
        fun fact => included query.startAt query.endAt fact.receivedAt) = [] :=
      List.eq_nil_of_length_eq_zero (by omega)
    rw [List.filter_eq_nil_iff] at hnone
    exact Bool.eq_false_iff.mpr (hnone row.fact (List.mem_map_of_mem
      (List.mem_flatMap.mpr ⟨other, h.mem_foreign.mpr hother, hrow⟩)))
  · intro family row hrow token htoken hasks
    obtain ⟨fact, copies, _, _, hcopies, hpos, hopened⟩ := h.joins hrow htoken hasks
    have hrowIds := (List.nodup_append.mp (hids family)).1
    rw [List.map_flatMap, List.nodup_flatMap] at hrowIds
    have hone := hrowIds.1 row hrow
    rw [hopened, List.map_replicate, List.nodup_replicate] at hone
    have heq : copies = 1 := by omega
    rw [hcopies, mul_eq_one] at heq
    refine ⟨heq.2, fun hvia => ?_⟩
    have hpairs := heq.1
    rwa [if_pos hvia] at hpairs

/-- The manifests of consecutive scopes, with manifests of other epochs, are read as the manifest of
the whole range exactly when nothing is returned of its epoch or they are separable. -/
theorem split_reads_alike_iff (h : SplitArchive db whole parts others manifests)
    (query : ResearchQuery) (hquery : query.epochNumber = whole.epoch) :
    ReadsAlike manifests whole query ↔
      (whole.epochDataValid = false ∧ query.allowInvalidEpoch = false) ∨
        Separable db whole others (openedManifests manifests) query := by
  have hsome : ∃ manifest ∈ manifests, manifest.epoch = whole.epoch := by
    obtain ⟨_, _, _, hlt, _⟩ := exported_scope h.full
    obtain ⟨ranges, hranges, hperm⟩ := h.splits
    obtain ⟨range, hrange, _⟩ := hranges.exists_last hlt
    obtain ⟨part, hpart, _⟩ := List.mem_map.mp (hperm.mem_iff.mpr hrange)
    exact ⟨part, (h.listed part).mpr (.inl hpart), (h.scopes part hpart).2⟩
  have hread := coldSource_eq h.exported h.full hquery hsome
  have hfull : ∀ manifest ∈ [whole], db.Exported manifest := fun manifest hmanifest =>
    List.mem_singleton.mp hmanifest ▸ h.full
  have hreadWhole := coldSource_eq hfull h.full hquery ⟨whole, by simp, rfl⟩
  rw [openedManifests_singleton] at hreadWhole
  by_cases hrefused : whole.epochDataValid = false ∧ query.allowInvalidEpoch = false
  · rw [if_pos hrefused] at hread hreadWhole
    exact iff_of_true ⟨[], [], hread, hreadWhole, [], .refl _, .nil⟩ (.inl hrefused)
  · rw [if_neg hrefused] at hread hreadWhole
    constructor
    · intro ⟨histories, histories', hok, hok', hsame⟩
      rw [hread, bind_eq_ok] at hok
      rw [hreadWhole, bind_eq_ok] at hok'
      obtain ⟨_, hboundaries, hassembled⟩ := hok
      obtain ⟨_, hboundaries', hassembled'⟩ := hok'
      exact .inr (h.separable (requireResearchBoundaries_eq_ok.mp hboundaries)
        (requireResearchBoundaries_eq_ok.mp hboundaries').1 hassembled hassembled' hsame)
    · intro hcases
      have hsep := hcases.resolve_left hrefused
      obtain ⟨histories', hassembled'⟩ : ∃ histories', assembleHistories
          ((archiveView [whole]).historyRows query)
          ⟨whole.epochId, query.epochNumber, whole.epochDataValid, coldDescriptor⟩ =
            .ok histories' := by
        refine ⟨_, assembleHistories_eq_ok.mpr ⟨fun family => ?_, rfl⟩⟩
        have hids := h.whole_ids query family
        exact hids.symm ▸ hsep.observed family
      obtain ⟨histories, hassembled, hsame⟩ := (hsep.sameRows h).assembled
        (historyRows_tokens_nodup h.opened_of) hassembled'
      have hboundaries : requireResearchBoundaries (archiveView (openedManifests manifests)).runs
          ("epoch " ++ toString query.epochNumber ++ " archive") = .ok () := by
        obtain ⟨first, hfirst⟩ := List.exists_mem_of_ne_nil _ hsep.runs
        refine requireResearchBoundaries_eq_ok.mpr
          ⟨List.ne_nil_of_mem (h.mem_runs.mpr (.inl hfirst)), fun run hrun => ?_⟩
        cases h.mem_runs.mp hrun with
        | inl hwhole => exact hsep.known run hwhole
        | inr hother =>
          obtain ⟨other, hin, hmem⟩ := hother
          exact hsep.foreignKnown other hin run hmem
      have hboundaries' : requireResearchBoundaries (archiveView [whole]).runs
          ("epoch " ++ toString query.epochNumber ++ " archive") = .ok () := by
        have hruns : (archiveView [whole]).runs = whole.runs := by simp [archiveView]
        rw [hruns]
        exact requireResearchBoundaries_eq_ok.mpr ⟨hsep.runs, hsep.known⟩
      refine ⟨histories, histories', ?_, ?_, hsame⟩
      · rw [hread, hboundaries, ok_bind, hassembled]
      · rw [hreadWhole, hboundaries', ok_bind, hassembled']

end Agreement

/-! ### Two days of one token -/

/-- A token that is discovered twice in an epoch of two days, the second time as told. -/
def twoDays (second : Timestamp) : ResearchDatabase where
  epochs := [⟨"epoch", 1, .completed, true, some 0, some (2 * microsecondsPerDay)⟩]
  runs := [⟨"run", "epoch", 0, some 0⟩]
  requests := []
  tokens := [⟨"token", "solana", "A"⟩]
  pairs := []
  rows
    | .discoveries => [⟨"token", some "run", { id := "first", receivedAt := 1 }⟩,
        ⟨"token", some "run", { id := "second", receivedAt := second }⟩]
    | _ => []
  contexts := []
  epochs_unique := by decide
  numbers_unique := by decide
  runs_unique := by decide
  requests_unique := by decide
  contexts_unique := by decide
  rows_unique family := by
    cases family with
    | discoveries => simp [FactFamily.key, FactFamily.id]
    | _ => exact List.nodup_nil
  tokens_unique := by decide
  pairs_unique := by decide

def twoDaysEpoch : EpochRow := ⟨"epoch", 1, .completed, true, some 0, some (2 * microsecondsPerDay)⟩

def twoDaysScope (second start finish : Timestamp) : EpochManifest :=
  (twoDays second).scopeManifest twoDaysEpoch start finish

theorem twoDays_exported {second start finish : Timestamp} (hstart : 0 ≤ start) (hlt : start < finish)
    (hfinish : finish ≤ 2 * microsecondsPerDay)
    (hverified : (verifyArchive (twoDaysScope second start finish)).isOk = true) :
    (twoDays second).Exported (twoDaysScope second start finish) := by
  refine ⟨finish, ?_⟩
  cases hok : verifyArchive (twoDaysScope second start finish) with
  | error error =>
    rw [hok] at hverified
    cases hverified
  | ok _ =>
    have hfound : (twoDays second).epochs.find? (fun epoch => epoch.number =
        (twoDaysScope second start finish).epoch) = some twoDaysEpoch := rfl
    have hopen : ¬ (twoDaysEpoch.status = .planned ∨ twoDaysEpoch.status = .running) := by decide
    have hbegins : ¬ ¬ (twoDaysEpoch.startedAt.any fun started => decide (started ≤ start)) = true := by
      simpa [twoDaysEpoch] using hstart
    have hends : ¬ ¬ (twoDaysEpoch.endedAt.any fun ended => decide (finish ≤ ended)) = true := by
      simpa [twoDaysEpoch] using hfinish
    show ResearchDatabase.exportEpochRange _ _ start finish finish = _
    unfold ResearchDatabase.exportEpochRange
    rw [if_neg (not_not.mpr hlt), if_neg (lt_irrefl finish), hfound]
    simp only [if_neg hopen, if_neg hbegins, if_neg hends]
    show (verifyArchive (twoDaysScope second start finish)).map _ = _
    rw [hok]
    rfl

/-- The two days as manifests of their own. -/
def twoDaysParts (second : Timestamp) : List EpochManifest :=
  [twoDaysScope second 0 microsecondsPerDay,
    twoDaysScope second microsecondsPerDay (2 * microsecondsPerDay)]

theorem twoDays_split {second : Timestamp}
    (hwhole : (verifyArchive (twoDaysScope second 0 (2 * microsecondsPerDay))).isOk = true)
    (hparts : ∀ part ∈ twoDaysParts second, (verifyArchive part).isOk = true) :
    SplitArchive (twoDays second) (twoDaysScope second 0 (2 * microsecondsPerDay))
      (twoDaysParts second) [] (twoDaysParts second) where
  full := twoDays_exported (by decide) (by decide) (by decide) hwhole
  scopes := by
    intro part hpart
    have hverified := hparts part hpart
    simp only [twoDaysParts, List.mem_cons, List.not_mem_nil, or_false] at hpart
    cases hpart with
    | inl hfirst =>
      rw [hfirst] at hverified ⊢
      exact ⟨twoDays_exported (by decide) (by decide) (by decide) hverified, rfl⟩
    | inr hlast =>
      rw [hlast] at hverified ⊢
      exact ⟨twoDays_exported (by decide) (by decide) (by decide) hverified, rfl⟩
  foreign _ h := by cases h
  splits := ⟨[(0, microsecondsPerDay), (microsecondsPerDay, 2 * microsecondsPerDay)],
    ⟨rfl, by decide, rfl, by decide, rfl⟩, .refl _⟩
  listed := by simp

/-- Two discoveries of one day: the second day knows nothing of the token. -/
theorem split_reads_alike_one_day :
    ReadsAlike (twoDaysParts 2) (twoDaysScope 2 0 (2 * microsecondsPerDay)) { epochNumber := 1 } := by
  refine (split_reads_alike_iff (twoDays_split (by decide +kernel) (by decide +kernel))
    { epochNumber := 1 } rfl).mpr (.inr ⟨?_, ?_, ?_, ?_, ?_, ?_, ?_, ?_⟩)
  · decide +kernel
  · decide +kernel
  · decide +kernel
  · intro family
    cases family with
    | selective kind => cases kind <;> decide +kernel
    | _ => decide +kernel
  · decide +kernel
  · intro other hother
    cases hother
  · intro _ _ _ other hother
    cases hother
  · intro family
    cases family with
    | selective kind => cases kind <;> decide +kernel
    | _ => decide +kernel

/-- A token with a discovery on each day is in both manifests: the read of the whole epoch returns
its history, and the read of the two days raises. -/
theorem split_read_raises :
    SplitArchive (twoDays (microsecondsPerDay + 1))
      (twoDaysScope (microsecondsPerDay + 1) 0 (2 * microsecondsPerDay))
      (twoDaysParts (microsecondsPerDay + 1)) [] (twoDaysParts (microsecondsPerDay + 1)) ∧
    (coldSource [twoDaysScope (microsecondsPerDay + 1) 0 (2 * microsecondsPerDay)]
      { epochNumber := 1 }).isOk = true ∧
    ¬ ReadsAlike (twoDaysParts (microsecondsPerDay + 1))
      (twoDaysScope (microsecondsPerDay + 1) 0 (2 * microsecondsPerDay)) { epochNumber := 1 } := by
  refine ⟨twoDays_split (by decide +kernel) (by decide +kernel), by decide +kernel, ?_⟩
  intro ⟨_, _, hok, _⟩
  have hraises : (coldSource (twoDaysParts (microsecondsPerDay + 1)) { epochNumber := 1 }).isOk =
      false := by decide +kernel
  rw [hok] at hraises
  cases hraises

end PumpResearch.Research
