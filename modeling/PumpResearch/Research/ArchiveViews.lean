import PumpResearch.Research.ColdSource

/-! What the views over several manifests of one database hold: how often a row is joined with
its token, and how the manifests of one epoch add up to the manifest of its whole range. -/
namespace PumpResearch.Research
open ConsecutiveRanges KeyedOrder Results

/-! ### Joins -/

/-- A view over tables that were exported from the database. -/
structure ArchiveView.Of (view : ArchiveView) (db : ResearchDatabase) : Prop where
  tokens : ∀ token ∈ view.tokens, token ∈ db.tokens
  pairs : ∀ pair ∈ view.pairs, pair ∈ db.pairs

section Joins
variable {db : ResearchDatabase} {view view' : ArchiveView} {family : FactFamily}
  {row : FamilyRow family} {subject subject' : Option PairRow × TokenRow}

theorem mem_subjects : subject ∈ view.subjects family row ↔
    subject.2 ∈ view.tokens ∧
      if family.viaPair then
        ∃ pair ∈ view.pairs, subject.1 = some pair ∧ pair.id = row.subject ∧
          subject.2.id = pair.tokenId
      else subject.1 = none ∧ subject.2.id = row.subject := by
  unfold ArchiveView.subjects
  by_cases hvia : family.viaPair = true
  · simp only [if_pos hvia, List.mem_flatMap, List.mem_map, List.mem_filter, decide_eq_true_eq]
    constructor
    · intro h
      obtain ⟨pair, hpair, token, htoken, heq⟩ := h
      rw [← heq]
      exact ⟨htoken.1, pair, hpair.1, rfl, hpair.2, htoken.2⟩
    · intro h
      obtain ⟨htoken, pair, hpair, hfirst, hid, htokenId⟩ := h
      exact ⟨pair, ⟨hpair, hid⟩, subject.2, ⟨htoken, htokenId⟩, by rw [← hfirst]⟩
  · simp only [if_neg hvia, List.mem_map, List.mem_filter, decide_eq_true_eq]
    constructor
    · intro h
      obtain ⟨token, htoken, heq⟩ := h
      rw [← heq]
      exact ⟨htoken.1, rfl, htoken.2⟩
    · intro h
      obtain ⟨htoken, hfirst, hid⟩ := h
      exact ⟨subject.2, ⟨htoken, hid⟩, by rw [← hfirst]⟩

/-- A row is joined with the token that it is about. -/
theorem names_of_mem_subjects (hview : view.Of db) (h : subject ∈ view.subjects family row) :
    db.names family row subject.2 = true := by
  obtain ⟨_, hjoin⟩ := mem_subjects.mp h
  unfold ResearchDatabase.names
  by_cases hvia : family.viaPair = true
  · rw [if_pos hvia] at hjoin ⊢
    obtain ⟨pair, hpair, _, hid, htoken⟩ := hjoin
    rw [List.any_eq_true]
    exact ⟨pair, hview.pairs pair hpair, by simp [hid, htoken]⟩
  · rw [if_neg hvia] at hjoin ⊢
    exact decide_eq_true hjoin.2.symm

/-- A row is joined with every token of the view that it is about, if the view has its pair. -/
theorem exists_mem_subjects {token : TokenRow} (htoken : token ∈ view.tokens)
    (hnames : db.names family row token = true)
    (hpairs : family.viaPair = true →
      ∀ pair ∈ db.pairs, pair.id = row.subject → pair ∈ view.pairs) :
    ∃ subject ∈ view.subjects family row, subject.2 = token := by
  unfold ResearchDatabase.names at hnames
  by_cases hvia : family.viaPair = true
  · rw [if_pos hvia, List.any_eq_true] at hnames
    obtain ⟨pair, hpair, hboth⟩ := hnames
    simp only [Bool.and_eq_true, decide_eq_true_eq] at hboth
    refine ⟨(some pair, token), mem_subjects.mpr ⟨htoken, ?_⟩, rfl⟩
    rw [if_pos hvia]
    exact ⟨pair, hpairs hvia pair hpair hboth.1, rfl, hboth.1, hboth.2.symm⟩
  · rw [if_neg hvia] at hnames
    refine ⟨(none, token), mem_subjects.mpr ⟨htoken, ?_⟩, rfl⟩
    rw [if_neg hvia]
    exact ⟨rfl, (of_decide_eq_true hnames).symm⟩

/-- All joins of a row are with one pair and one token, whatever views they are made in. -/
theorem subjects_unique (hview : view.Of db) (hview' : view'.Of db)
    (h : subject ∈ view.subjects family row) (h' : subject' ∈ view'.subjects family row) :
    subject = subject' := by
  obtain ⟨htoken, hjoin⟩ := mem_subjects.mp h
  obtain ⟨htoken', hjoin'⟩ := mem_subjects.mp h'
  have hsame : subject.1 = subject'.1 ∧ subject.2.id = subject'.2.id := by
    by_cases hvia : family.viaPair = true
    · rw [if_pos hvia] at hjoin hjoin'
      obtain ⟨pair, hpair, hfirst, hid, htokenId⟩ := hjoin
      obtain ⟨pair', hpair', hfirst', hid', htokenId'⟩ := hjoin'
      have heq : pair = pair' := eq_of_unique db.pairs_unique (hview.pairs pair hpair)
        (hview'.pairs pair' hpair') (hid.trans hid'.symm)
      rw [hfirst, hfirst', htokenId, htokenId', heq]
      exact ⟨rfl, rfl⟩
    · rw [if_neg hvia] at hjoin hjoin'
      exact ⟨hjoin.1.trans hjoin'.1.symm, hjoin.2.trans hjoin'.2.symm⟩
  exact Prod.ext hsame.1 (eq_of_unique db.tokens_unique (hview.tokens _ htoken)
    (hview'.tokens _ htoken') hsame.2)

/-- A view joins what a larger view of the same tables joins, as far as it has the tokens and
pairs. -/
theorem mem_subjects_of_mem (h : subject ∈ view.subjects family row)
    (htoken : subject.2 ∈ view'.tokens)
    (hpairs : family.viaPair = true →
      ∀ pair ∈ view.pairs, pair.id = row.subject → pair ∈ view'.pairs) :
    subject ∈ view'.subjects family row := by
  obtain ⟨_, hjoin⟩ := mem_subjects.mp h
  refine mem_subjects.mpr ⟨htoken, ?_⟩
  by_cases hvia : family.viaPair = true
  · rw [if_pos hvia] at hjoin ⊢
    obtain ⟨pair, hpair, hrest⟩ := hjoin
    exact ⟨pair, hpairs hvia pair hpair hrest.2.1, hrest⟩
  · rw [if_neg hvia] at hjoin ⊢
    exact hjoin

end Joins

/-! ### How many manifests hold a row -/

/-- The manifests that hold a token. -/
def tokenHolders (manifests : List EpochManifest) (id : String) : Nat :=
  manifests.countP fun manifest => manifest.tokens.any fun token => token.id = id

/-- The manifests that hold a pair. -/
def pairHolders (manifests : List EpochManifest) (id : String) : Nat :=
  manifests.countP fun manifest => manifest.pairs.any fun pair => pair.id = id

section Holders
variable {manifests : List EpochManifest}

/-- A key that is unique in every manifest occurs once for every manifest that has it. -/
theorem length_filter_flatMap {α κ : Type} [DecidableEq κ] {key : α → κ}
    {rows : EpochManifest → List α} (h : ∀ manifest ∈ manifests, ((rows manifest).map key).Nodup)
    (k : κ) :
    ((manifests.flatMap rows).filter fun item => key item = k).length =
      manifests.countP fun manifest => (rows manifest).any fun item => key item = k := by
  induction manifests with
  | nil => rfl
  | cons manifest rest ih =>
    have hfirst : ((rows manifest).filter fun item => key item = k).length =
        if (rows manifest).any fun item => key item = k then 1 else 0 := by
      have hnodup := h manifest List.mem_cons_self
      generalize rows manifest = items at hnodup
      induction items with
      | nil => rfl
      | cons item items ihItems =>
        obtain ⟨hnew, hitems⟩ := List.nodup_cons.mp hnodup
        by_cases hk : key item = k
        · have hnone : (items.filter fun other => key other = k) = [] := by
            rw [List.filter_eq_nil_iff]
            intro other hother hkey
            exact hnew (List.mem_map.mpr ⟨other, hother, (of_decide_eq_true hkey).trans hk.symm⟩)
          simp [hk, hnone]
        · simp [hk, ihItems hitems]
    rw [List.flatMap_cons, List.filter_append, List.length_append, hfirst,
      ih fun other hother => h other (List.mem_cons_of_mem _ hother), List.countP_cons]
    omega

/-- The number of joins of a row that is joined at all. -/
theorem length_subjects {db : ResearchDatabase} (hview : (archiveView manifests).Of db)
    (htokens : ∀ manifest ∈ manifests, (manifest.tokens.map (·.id)).Nodup)
    (hpairs : ∀ manifest ∈ manifests, (manifest.pairs.map (·.id)).Nodup) {family : FactFamily}
    {row : FamilyRow family} {subject : Option PairRow × TokenRow}
    (h : subject ∈ (archiveView manifests).subjects family row) :
    ((archiveView manifests).subjects family row).length =
      (if family.viaPair then pairHolders manifests row.subject else 1) *
        tokenHolders manifests subject.2.id := by
  obtain ⟨_, hjoin⟩ := mem_subjects.mp h
  have hcount := length_filter_flatMap htokens subject.2.id
  unfold ArchiveView.subjects
  by_cases hvia : family.viaPair = true
  · rw [if_pos hvia] at hjoin ⊢
    rw [if_pos hvia]
    obtain ⟨pair, hpair, _, hid, htoken⟩ := hjoin
    have hsame : ∀ other ∈ (archiveView manifests).pairs.filter fun other => other.id = row.subject,
        other = pair := by
      intro other hother
      obtain ⟨hmem, hother⟩ := List.mem_filter.mp hother
      exact eq_of_unique db.pairs_unique (hview.pairs other hmem) (hview.pairs pair hpair)
        ((of_decide_eq_true hother).trans hid.symm)
    rw [List.eq_replicate_of_mem hsame, List.flatMap_replicate, List.length_flatten]
    simp only [List.map_replicate, List.sum_replicate, List.length_map, smul_eq_mul]
    congr 1
    · exact length_filter_flatMap hpairs row.subject
    · rw [← htoken]
      exact hcount
  · rw [if_neg hvia] at hjoin ⊢
    rw [if_neg hvia, List.length_map, one_mul, ← hjoin.2]
    exact hcount

end Holders

/-! ### Exported scopes -/

section Scopes
variable {db : ResearchDatabase} {manifest : EpochManifest} {manifests : List EpochManifest}

theorem mem_rows_scopeManifest {epoch : EpochRow} {start finish : Timestamp} (hle : start ≤ finish)
    {family : FactFamily} {row : FamilyRow family} :
    row ∈ (db.scopeManifest epoch start finish).rows family ↔
      row ∈ db.rows family ∧ db.selects epoch.id (start, finish) family row = true := by
  rw [← List.mem_filter]
  exact (familyRows_perm db epoch.id hle family).mem_iff

/-- A scope holds the pairs that its rows name. -/
theorem pair_mem_of_mem_rows (h : db.Exported manifest) {family : FactFamily}
    {row : FamilyRow family} (hrow : row ∈ manifest.rows family) (hvia : family.viaPair = true) :
    ∀ pair ∈ db.pairs, pair.id = row.subject → pair ∈ manifest.pairs := by
  intro pair hpair hid
  obtain ⟨epoch, _, heq, hlt, _⟩ := exported_scope h
  rw [heq] at hrow ⊢
  obtain ⟨hmem, hselects⟩ := (mem_rows_scopeManifest hlt.le).mp hrow
  refine List.mem_filter.mpr ⟨hpair, ?_⟩
  unfold ResearchDatabase.pairReferenced
  cases family with
  | observations =>
    have hany : ((db.rows .observations).any fun row => row.subject = pair.id &&
        db.selects epoch.id (manifest.startAt, manifest.endAt) .observations row) = true :=
      List.any_eq_true.mpr ⟨row, hmem, by simp [hid, hselects]⟩
    simp [hany]
  | pairFacts =>
    have hany : ((db.rows .pairFacts).any fun row => row.subject = pair.id &&
        db.selects epoch.id (manifest.startAt, manifest.endAt) .pairFacts row) = true :=
      List.any_eq_true.mpr ⟨row, hmem, by simp [hid, hselects]⟩
    simp [hany]
  | _ => cases hvia

theorem tokens_nodup (h : db.Exported manifest) : (manifest.tokens.map (·.id)).Nodup := by
  obtain ⟨epoch, _, heq, _⟩ := exported_scope h
  rw [heq]
  exact db.tokens_unique.sublist (List.filter_sublist.map _)

theorem pairs_nodup (h : db.Exported manifest) : (manifest.pairs.map (·.id)).Nodup := by
  obtain ⟨epoch, _, heq, _⟩ := exported_scope h
  rw [heq]
  exact db.pairs_unique.sublist (List.filter_sublist.map _)

theorem archiveView_of (hall : ∀ manifest ∈ manifests, db.Exported manifest) :
    (archiveView manifests).Of db where
  tokens token htoken := by
    obtain ⟨manifest, hmanifest, hin⟩ := List.mem_flatMap.mp htoken
    obtain ⟨epoch, _, heq, _⟩ := exported_scope (hall manifest hmanifest)
    rw [heq] at hin
    exact (List.mem_filter.mp hin).1
  pairs pair hpair := by
    obtain ⟨manifest, hmanifest, hin⟩ := List.mem_flatMap.mp hpair
    obtain ⟨epoch, _, heq, _⟩ := exported_scope (hall manifest hmanifest)
    rw [heq] at hin
    exact (List.mem_filter.mp hin).1

end Scopes

/-! ### The scopes of one epoch -/

/-- The manifests are those of consecutive ranges, from the start of a manifest to its end. -/
def Splits (whole : EpochManifest) (parts : List EpochManifest) : Prop :=
  ∃ ranges, Consecutive whole.startAt ranges whole.endAt ∧
    (parts.map fun part => (part.startAt, part.endAt)).Perm ranges

section Parts
variable {db : ResearchDatabase} {epochId : String} {start finish : Timestamp}
  {ranges : List (Timestamp × Timestamp)}

theorem selects_iff_of_consecutive (h : Consecutive start ranges finish) {family : FactFamily}
    {row : FamilyRow family} :
    db.selects epochId (start, finish) family row = true ↔
      ∃ range ∈ ranges, db.selects epochId range family row = true := by
  unfold ResearchDatabase.selects
  simp only [Bool.and_eq_true]
  constructor
  · intro hselects
    obtain ⟨range, hrange, hwithin⟩ := h.exists_within hselects.2
    exact ⟨range, hrange, hselects.1, hwithin⟩
  · intro hselects
    obtain ⟨range, hrange, hepoch, hwithin⟩ := hselects
    exact ⟨hepoch, h.within_whole hrange hwithin⟩

/-- A row of a condition is selected by the whole range when one of the ranges selects it. -/
theorem any_selects_iff (h : Consecutive start ranges finish) {family : FactFamily}
    {p : FamilyRow family → Bool} {rows : List (FamilyRow family)} :
    (rows.any fun row => p row && db.selects epochId (start, finish) family row) = true ↔
      ∃ range ∈ ranges, (rows.any fun row => p row && db.selects epochId range family row) = true := by
  simp only [List.any_eq_true, Bool.and_eq_true, selects_iff_of_consecutive h]
  constructor
  · intro hany
    obtain ⟨row, hrow, hp, range, hrange, hselects⟩ := hany
    exact ⟨range, hrange, row, hrow, hp, hselects⟩
  · intro hany
    obtain ⟨range, hrange, row, hrow, hp, hselects⟩ := hany
    exact ⟨row, hrow, hp, range, hrange, hselects⟩

theorem tokenReferenced_iff_of_consecutive (h : Consecutive start ranges finish)
    {token : TokenRow} :
    db.tokenReferenced epochId (start, finish) token = true ↔
      ∃ range ∈ ranges, db.tokenReferenced epochId range token = true := by
  unfold ResearchDatabase.tokenReferenced
  constructor
  · intro hany
    obtain ⟨family, hfamily, hrows⟩ := List.any_eq_true.mp hany
    obtain ⟨range, hrange, hselects⟩ := (any_selects_iff h).mp hrows
    exact ⟨range, hrange, List.any_eq_true.mpr ⟨family, hfamily, hselects⟩⟩
  · intro hany
    obtain ⟨range, hrange, hrows⟩ := hany
    obtain ⟨family, hfamily, hselects⟩ := List.any_eq_true.mp hrows
    exact List.any_eq_true.mpr ⟨family, hfamily, (any_selects_iff h).mpr ⟨range, hrange, hselects⟩⟩

theorem pairReferenced_iff_of_consecutive (h : Consecutive start ranges finish) {pair : PairRow} :
    db.pairReferenced epochId (start, finish) pair = true ↔
      ∃ range ∈ ranges, db.pairReferenced epochId range pair = true := by
  unfold ResearchDatabase.pairReferenced
  simp only [Bool.or_eq_true, any_selects_iff h]
  constructor
  · intro hany
    cases hany with
    | inl hfirst =>
      cases hfirst with
      | inl hobservation =>
        obtain ⟨range, hrange, hselects⟩ := hobservation
        exact ⟨range, hrange, .inl (.inl hselects)⟩
      | inr hpairFact =>
        obtain ⟨range, hrange, hselects⟩ := hpairFact
        exact ⟨range, hrange, .inl (.inr hselects)⟩
    | inr hboost =>
      obtain ⟨range, hrange, hselects⟩ := hboost
      exact ⟨range, hrange, .inr hselects⟩
  · intro hany
    obtain ⟨range, hrange, hselects⟩ := hany
    cases hselects with
    | inl hfirst =>
      cases hfirst with
      | inl hobservation => exact .inl (.inl ⟨range, hrange, hobservation⟩)
      | inr hpairFact => exact .inl (.inr ⟨range, hrange, hpairFact⟩)
    | inr hboost => exact .inr ⟨range, hrange, hboost⟩

end Parts

section Splitting
variable {db : ResearchDatabase} {whole : EpochManifest} {parts : List EpochManifest}

/-- The parts of a manifest are the scopes of consecutive ranges of its epoch. -/
theorem exists_scopes (hwhole : db.Exported whole) (hparts : ∀ part ∈ parts, db.Exported part)
    (hepoch : ∀ part ∈ parts, part.epoch = whole.epoch) (hsplits : Splits whole parts) :
    ∃ epoch ranges, whole = db.scopeManifest epoch whole.startAt whole.endAt ∧
      whole.startAt < whole.endAt ∧ Consecutive whole.startAt ranges whole.endAt ∧
      parts.Perm (ranges.map fun range => db.scopeManifest epoch range.1 range.2) := by
  obtain ⟨epoch, hfound, heq, hlt, _⟩ := exported_scope hwhole
  obtain ⟨ranges, hranges, hperm⟩ := hsplits
  refine ⟨epoch, ranges, heq, hlt, hranges, ?_⟩
  have hscopes : parts.map (fun part => db.scopeManifest epoch part.startAt part.endAt) = parts := by
    have hsame : ∀ part ∈ parts, db.scopeManifest epoch part.startAt part.endAt = id part := by
      intro part hpart
      obtain ⟨epoch', hfound', heq', _⟩ := exported_scope (hparts part hpart)
      rw [hepoch part hpart, hfound] at hfound'
      rw [Option.some.inj hfound']
      exact heq'.symm
    rw [List.map_congr_left hsame, List.map_id]
  rw [← hscopes]
  have hmapped := hperm.map fun range => db.scopeManifest epoch range.1 range.2
  rw [List.map_map] at hmapped
  exact hmapped

variable (hwhole : db.Exported whole) (hparts : ∀ part ∈ parts, db.Exported part)
  (hepoch : ∀ part ∈ parts, part.epoch = whole.epoch) (hsplits : Splits whole parts)
include hwhole hparts hepoch hsplits

/-- Each row of the epoch is in one of the parts. -/
theorem parts_rows_perm (family : FactFamily) :
    (parts.flatMap (·.rows family)).Perm (whole.rows family) := by
  obtain ⟨epoch, ranges, heq, hlt, hranges, hperm⟩ :=
    exists_scopes hwhole hparts hepoch hsplits
  refine (hperm.flatMap_right _).trans ?_
  rw [List.flatMap_map, heq]
  refine List.Perm.trans ?_ (familyRows_perm db epoch.id hlt.le family).symm
  have hselected := hranges.flatMap_filter_perm
    (fun row : FamilyRow family => db.inEpoch epoch.id family row.reference)
    (fun row => family.time row.fact) (db.rows family)
  refine List.Perm.trans ?_ hselected
  apply List.Perm.flatMap_left
  intro range hrange
  exact familyRows_perm db epoch.id (hranges.bounds_le hrange) family

theorem parts_contexts_perm : (parts.flatMap (·.contexts)).Perm whole.contexts := by
  obtain ⟨epoch, ranges, heq, hlt, hranges, hperm⟩ :=
    exists_scopes hwhole hparts hepoch hsplits
  refine (hperm.flatMap_right _).trans ?_
  rw [List.flatMap_map, heq]
  refine List.Perm.trans ?_ (contextRows_perm db epoch.id hlt.le).symm
  have hselected := hranges.flatMap_filter_perm
    (fun row : MarketContextRow => row.collectionEpochId = epoch.id)
    (fun row => row.fact.receivedAt) db.contexts
  refine List.Perm.trans ?_ hselected
  apply List.Perm.flatMap_left
  intro range hrange
  exact contextRows_perm db epoch.id (hranges.bounds_le hrange)

theorem mem_tokens_iff_parts {token : TokenRow} :
    token ∈ whole.tokens ↔ ∃ part ∈ parts, token ∈ part.tokens := by
  obtain ⟨epoch, ranges, heq, _, hranges, hperm⟩ :=
    exists_scopes hwhole hparts hepoch hsplits
  rw [heq]
  simp only [hperm.mem_iff, List.mem_map, ResearchDatabase.scopeManifest, List.mem_filter,
    tokenReferenced_iff_of_consecutive hranges]
  constructor
  · intro h
    obtain ⟨hmem, range, hrange, hreferenced⟩ := h
    exact ⟨_, ⟨range, hrange, rfl⟩, List.mem_filter.mpr ⟨hmem, hreferenced⟩⟩
  · intro h
    obtain ⟨part, hpart, htoken⟩ := h
    obtain ⟨range, hrange, hscope⟩ := hpart
    rw [← hscope] at htoken
    obtain ⟨hmem, hreferenced⟩ := List.mem_filter.mp htoken
    exact ⟨hmem, range, hrange, hreferenced⟩

theorem mem_pairs_iff_parts {pair : PairRow} :
    pair ∈ whole.pairs ↔ ∃ part ∈ parts, pair ∈ part.pairs := by
  obtain ⟨epoch, ranges, heq, _, hranges, hperm⟩ :=
    exists_scopes hwhole hparts hepoch hsplits
  rw [heq]
  simp only [hperm.mem_iff, List.mem_map, ResearchDatabase.scopeManifest, List.mem_filter,
    pairReferenced_iff_of_consecutive hranges]
  constructor
  · intro h
    obtain ⟨hmem, range, hrange, hreferenced⟩ := h
    exact ⟨_, ⟨range, hrange, rfl⟩, List.mem_filter.mpr ⟨hmem, hreferenced⟩⟩
  · intro h
    obtain ⟨part, hpart, hpair⟩ := h
    obtain ⟨range, hrange, hscope⟩ := hpart
    rw [← hscope] at hpair
    obtain ⟨hmem, hreferenced⟩ := List.mem_filter.mp hpair
    exact ⟨hmem, range, hrange, hreferenced⟩

/-- The last part has all runs of the whole range. -/
theorem mem_runs_iff_parts {run : CollectorRunRow} :
    run ∈ whole.runs ↔ ∃ part ∈ parts, run ∈ part.runs := by
  obtain ⟨epoch, ranges, heq, hlt, hranges, hperm⟩ :=
    exists_scopes hwhole hparts hepoch hsplits
  rw [heq]
  simp only [hperm.mem_iff, List.mem_map]
  constructor
  · intro h
    obtain ⟨range, hrange, hlast⟩ := hranges.exists_last hlt
    refine ⟨_, ⟨range, hrange, rfl⟩, ?_⟩
    simpa only [ResearchDatabase.scopeManifest, ResearchDatabase.scopeRuns, hlast] using h
  · intro h
    obtain ⟨part, hpart, hrun⟩ := h
    obtain ⟨range, hrange, hscope⟩ := hpart
    rw [← hscope] at hrun
    obtain ⟨hmem, hstarted⟩ := List.mem_filter.mp hrun
    have hbound := (hranges.bounds hrange).2
    simp only [Bool.and_eq_true, decide_eq_true_eq] at hstarted
    refine List.mem_filter.mpr ⟨hmem, ?_⟩
    simp only [Bool.and_eq_true, decide_eq_true_eq]
    exact ⟨hstarted.1, lt_of_lt_of_le hstarted.2 hbound⟩

end Splitting

end PumpResearch.Research
