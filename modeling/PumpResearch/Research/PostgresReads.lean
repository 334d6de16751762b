import PumpResearch.Research.ManifestReads

/-! The PostgreSQL source beside the cold source over the archive of a whole epoch. The two select
tokens by different families, and two families are not bounded from below in PostgreSQL. -/
namespace PumpResearch.Research
open ConsecutiveRanges KeyedOrder RelatedLists Results

/-! ### The queries -/

/-- The families whose rows make `_postgres_rows` select a token. -/
def postgresTokenFamilies : List FactFamily := [.lifecycle, .observations, .candidates]

section Queries
variable (db : ResearchDatabase) (epochId : String) (query : ResearchQuery)

/-- The epoch condition of a family's query: a coverage decision has to name the epoch itself. -/
def ResearchDatabase.postgresInEpoch : (family : FactFamily) → family.Reference → Bool
  | .coverage => fun (reference : CoverageReference) => reference.collectionEpochId = some epochId
  | family => db.inEpoch epochId family

/-- The time condition of a family's query. -/
def ResearchQuery.postgresIncluded : FactFamily → Timestamp → Bool
  | .lifecycle, t | .coverage, t => query.endAt.all (t < ·)
  | _, t => included query.startAt query.endAt t

def ResearchDatabase.postgresSelects (family : FactFamily) (row : FamilyRow family) : Bool :=
  db.postgresInEpoch epochId family row.reference &&
    query.postgresIncluded family (family.time row.fact)

/-- The token condition, over the whole epoch. -/
def ResearchDatabase.postgresToken (token : TokenRow) : Bool :=
  postgresTokenFamilies.any fun family => (db.rows family).any fun row =>
    db.names family row token && db.inEpoch epochId family row.reference

/-- The tables that the queries join. -/
def ResearchDatabase.tables : ArchiveView where
  tokens := db.tokens
  pairs := db.pairs
  runs := db.runs.filter (·.collectionEpochId = epochId)
  rows := db.rows
  contexts := db.contexts

/-- The joined rows of a family, of selected tokens and of others. -/
def ResearchDatabase.postgresFacts (family : FactFamily) : List (TokenRow × family.Fact) :=
  ((db.rows family).filter (db.postgresSelects epochId query family)).flatMap fun row =>
    (((db.tables epochId).subjects family row).filter fun subject => query.wants subject.2).map
      fun subject => (subject.2, family.joined subject.1 row.fact)

/-- `_postgres_rows`. -/
def ResearchDatabase.postgresRows : HistoryRows where
  tokens := sortOn (·.address)
    (db.tokens.filter fun token => db.postgresToken epochId token && query.wants token)
  rows := db.postgresFacts epochId query
  contexts := (db.contexts.filter fun row => row.collectionEpochId = epochId &&
    included query.startAt query.endAt row.fact.receivedAt).map (·.fact)

/-- The descriptor of PostgreSQL, without its schema revision and the bounds of its runs. -/
def postgresDescriptor : SourceDescriptor := .adapter [("kind", "postgresql")]

/-- `PostgresResearchSource.load_histories`. -/
def postgresSource : ResearchSource := fun query =>
  match db.epochs.find? fun epoch => epoch.number = query.epochNumber with
  | none => .ok []
  | some epoch =>
    if epoch.dataValid = false ∧ query.allowInvalidEpoch = false then .ok []
    else do
      requireResearchBoundaries (db.tables epoch.id).runs
        ("epoch " ++ toString query.epochNumber ++ " PostgreSQL")
      assembleHistories (db.postgresRows epoch.id query)
        ⟨epoch.id, query.epochNumber, epoch.dataValid, postgresDescriptor⟩

end Queries

/-! ### Identities of facts -/

/-- The facts of a history by family and identity. -/
def TokenHistory.factIds (history : TokenHistory) : List (String × String) :=
  history.discoveries.map (fun fact => ("discoveries", fact.id)) ++
  history.observations.map (fun fact => ("observations", fact.id)) ++
  history.lifecycle.map (fun fact => ("lifecycle", fact.id)) ++
  history.pairFacts.map (fun fact => ("pair_facts", fact.id)) ++
  history.boosts.map (fun fact => ("boosts", fact.id)) ++
  history.metadata.map (fun fact => ("metadata", fact.id)) ++
  history.security.map (fun fact => ("security", fact.id)) ++
  history.context.map (fun fact => ("context", fact.id)) ++
  history.coverage.map (fun fact => ("coverage", fact.id)) ++
  history.candidates.map (fun fact => ("candidates", fact.id)) ++
  history.candidateTiers.map (fun fact => ("candidate_tiers", fact.id)) ++
  history.selectiveSecurity.map (fun fact => (fact.family, fact.id))

/-- The same token with the same facts in each family. -/
def SameFactIds (h h' : TokenHistory) : Prop :=
  h.tokenId = h'.tokenId ∧ ∀ key, key ∈ h.factIds ↔ key ∈ h'.factIds

/-- Histories of the same tokens with the same facts. -/
structure SameTokens (histories histories' : List TokenHistory) : Prop where
  left : ∀ h ∈ histories, ∃ h' ∈ histories', SameFactIds h h'
  right : ∀ h' ∈ histories', ∃ h ∈ histories, SameFactIds h h'

theorem FactFamily.name_ne_context (family : FactFamily) : family.name ≠ "context" := by
  cases family with
  | selective kind => cases kind <;> decide
  | _ => decide

theorem FactFamily.name_injective {family family' : FactFamily} (h : family.name = family'.name) :
    family = family' := by
  have hall : ∀ family ∈ FactFamily.all, ∀ family' ∈ FactFamily.all,
      family.name = family'.name → family = family' := by decide +kernel
  exact hall family family.mem_all family' family'.mem_all h

/-- The facts of a history, family by family. -/
theorem mem_factIds {rows : HistoryRows} {epoch : HistoryEpoch} {token : TokenRow}
    {key : String × String} :
    key ∈ (rows.history epoch token).factIds ↔
      (∃ family, ∃ fact ∈ factsOf (rows.rows family) token.id, key = (family.name, family.id fact)) ∨
        ∃ fact ∈ rows.contexts, key = ("context", fact.id) := by
  simp only [TokenHistory.factIds, List.mem_append, List.mem_map, or_assoc]
  constructor
  · intro h
    rcases h with h | h | h | h | h | h | h | h | h | h | h | h
    · obtain ⟨fact, hfact, heq⟩ := h
      exact .inl ⟨.discoveries, fact, hfact, heq.symm⟩
    · obtain ⟨fact, hfact, heq⟩ := h
      exact .inl ⟨.observations, fact, hfact, heq.symm⟩
    · obtain ⟨fact, hfact, heq⟩ := h
      exact .inl ⟨.lifecycle, fact, hfact, heq.symm⟩
    · obtain ⟨fact, hfact, heq⟩ := h
      exact .inl ⟨.pairFacts, fact, hfact, heq.symm⟩
    · obtain ⟨fact, hfact, heq⟩ := h
      exact .inl ⟨.boosts, fact, hfact, heq.symm⟩
    · obtain ⟨fact, hfact, heq⟩ := h
      exact .inl ⟨.metadata, fact, hfact, heq.symm⟩
    · obtain ⟨fact, hfact, heq⟩ := h
      exact .inl ⟨.security, fact, hfact, heq.symm⟩
    · obtain ⟨fact, hfact, heq⟩ := h
      exact .inr ⟨fact, hfact, heq.symm⟩
    · obtain ⟨fact, hfact, heq⟩ := h
      exact .inl ⟨.coverage, fact, hfact, heq.symm⟩
    · obtain ⟨fact, hfact, heq⟩ := h
      exact .inl ⟨.candidates, fact, hfact, heq.symm⟩
    · obtain ⟨fact, hfact, heq⟩ := h
      exact .inl ⟨.candidateTiers, fact, hfact, heq.symm⟩
    · obtain ⟨fact, hfact, heq⟩ := h
      obtain ⟨kind, _, hkind⟩ := List.mem_flatMap.mp hfact
      obtain ⟨found, hfound, hrenamed⟩ := List.mem_map.mp hkind
      rw [← heq, ← hrenamed]
      exact .inl ⟨.selective kind, found, hfound, rfl⟩
  · intro h
    cases h with
    | inr h =>
      obtain ⟨fact, hfact, rfl⟩ := h
      exact .inr (.inr (.inr (.inr (.inr (.inr (.inr (.inl ⟨fact, hfact, rfl⟩)))))))
    | inl h =>
      obtain ⟨family, fact, hfact, rfl⟩ := h
      cases family with
      | discoveries => exact .inl ⟨fact, hfact, rfl⟩
      | observations => exact .inr (.inl ⟨fact, hfact, rfl⟩)
      | lifecycle => exact .inr (.inr (.inl ⟨fact, hfact, rfl⟩))
      | pairFacts => exact .inr (.inr (.inr (.inl ⟨fact, hfact, rfl⟩)))
      | boosts => exact .inr (.inr (.inr (.inr (.inl ⟨fact, hfact, rfl⟩))))
      | metadata => exact .inr (.inr (.inr (.inr (.inr (.inl ⟨fact, hfact, rfl⟩)))))
      | security => exact .inr (.inr (.inr (.inr (.inr (.inr (.inl ⟨fact, hfact, rfl⟩))))))
      | coverage =>
        exact .inr (.inr (.inr (.inr (.inr (.inr (.inr (.inr (.inl ⟨fact, hfact, rfl⟩))))))))
      | candidates =>
        exact .inr (.inr (.inr (.inr (.inr (.inr (.inr (.inr (.inr (.inl ⟨fact, hfact, rfl⟩)))))))))
      | candidateTiers =>
        exact .inr (.inr (.inr (.inr (.inr (.inr (.inr (.inr (.inr (.inr
          (.inl ⟨fact, hfact, rfl⟩))))))))))
      | selective kind =>
        refine .inr (.inr (.inr (.inr (.inr (.inr (.inr (.inr (.inr (.inr (.inr
          ⟨({ fact with family := kind.name } : SelectiveSecurityFact), ?_, rfl⟩))))))))))
        exact List.mem_flatMap.mpr ⟨kind, kind.mem_all, List.mem_map.mpr ⟨fact, hfact, rfl⟩⟩

theorem family_mem_factIds {rows : HistoryRows} {epoch : HistoryEpoch} {token : TokenRow}
    {family : FactFamily} {id : String} :
    (family.name, id) ∈ (rows.history epoch token).factIds ↔
      ∃ fact ∈ factsOf (rows.rows family) token.id, family.id fact = id := by
  rw [mem_factIds]
  constructor
  · intro h
    cases h with
    | inl h =>
      obtain ⟨family', fact, hfact, heq⟩ := h
      obtain ⟨hname, hid⟩ := Prod.mk.inj heq
      obtain rfl := FactFamily.name_injective hname
      exact ⟨fact, hfact, hid.symm⟩
    | inr h =>
      obtain ⟨_, _, heq⟩ := h
      exact absurd (Prod.mk.inj heq).1 family.name_ne_context
  · intro ⟨fact, hfact, hid⟩
    exact .inl ⟨family, fact, hfact, by rw [hid]⟩

theorem context_mem_factIds {rows : HistoryRows} {epoch : HistoryEpoch} {token : TokenRow}
    {id : String} :
    ("context", id) ∈ (rows.history epoch token).factIds ↔ ∃ fact ∈ rows.contexts, fact.id = id := by
  rw [mem_factIds]
  constructor
  · intro h
    cases h with
    | inl h =>
      obtain ⟨family, _, _, heq⟩ := h
      exact absurd (Prod.mk.inj heq).1.symm family.name_ne_context
    | inr h =>
      obtain ⟨fact, hfact, heq⟩ := h
      exact ⟨fact, hfact, (Prod.mk.inj heq).2.symm⟩
  · intro ⟨fact, hfact, hid⟩
    exact .inr ⟨fact, hfact, by rw [hid]⟩

/-- Histories of one token have the same facts when they have the same identities in each family. -/
theorem sameFactIds_iff {rows rows' : HistoryRows} {epoch epoch' : HistoryEpoch} {token : TokenRow} :
    SameFactIds (rows.history epoch token) (rows'.history epoch' token) ↔
      (∀ family id, (∃ fact ∈ factsOf (rows.rows family) token.id, family.id fact = id) ↔
        ∃ fact ∈ factsOf (rows'.rows family) token.id, family.id fact = id) ∧
      ∀ id, (∃ fact ∈ rows.contexts, fact.id = id) ↔ ∃ fact ∈ rows'.contexts, fact.id = id := by
  constructor
  · intro ⟨_, hkeys⟩
    refine ⟨fun family id => ?_, fun id => ?_⟩
    · exact family_mem_factIds.symm.trans ((hkeys _).trans family_mem_factIds)
    · exact context_mem_factIds.symm.trans ((hkeys _).trans context_mem_factIds)
  · intro ⟨hfamilies, hcontexts⟩
    refine ⟨rfl, fun key => ?_⟩
    rw [mem_factIds, mem_factIds]
    refine or_congr ?_ ?_
    · constructor
      · intro ⟨family, fact, hfact, heq⟩
        obtain ⟨fact', hfact', hid⟩ := (hfamilies family _).mp ⟨fact, hfact, rfl⟩
        exact ⟨family, fact', hfact', by rw [heq, hid]⟩
      · intro ⟨family, fact, hfact, heq⟩
        obtain ⟨fact', hfact', hid⟩ := (hfamilies family _).mpr ⟨fact, hfact, rfl⟩
        exact ⟨family, fact', hfact', by rw [heq, hid]⟩
    · constructor
      · intro ⟨fact, hfact, heq⟩
        obtain ⟨fact', hfact', hid⟩ := (hcontexts _).mp ⟨fact, hfact, rfl⟩
        exact ⟨fact', hfact', by rw [heq, hid]⟩
      · intro ⟨fact, hfact, heq⟩
        obtain ⟨fact', hfact', hid⟩ := (hcontexts _).mpr ⟨fact, hfact, rfl⟩
        exact ⟨fact', hfact', by rw [heq, hid]⟩

/-! ### What the two reads return of a token -/

section Hot
variable {db : ResearchDatabase} {epochId : String} {query : ResearchQuery} {token : TokenRow}

theorem tables_of (db : ResearchDatabase) (epochId : String) : (db.tables epochId).Of db where
  tokens _ h := h
  pairs _ h := h

theorem mem_postgresRows_tokens : token ∈ (db.postgresRows epochId query).tokens ↔
    token ∈ db.tokens ∧ db.postgresToken epochId token = true ∧ query.wants token = true := by
  show token ∈ sortOn _ _ ↔ _
  rw [mem_sortOn, List.mem_filter, Bool.and_eq_true]

theorem postgresRows_tokens_nodup :
    ((db.postgresRows epochId query).tokens.map (·.id)).Nodup :=
  ((sortOn_perm _ _).map _).nodup_iff.mpr (db.tokens_unique.sublist (List.filter_sublist.map _))

/-- The joined rows of a token, by their identities. -/
theorem mem_postgres_ids (htoken : token ∈ db.tokens) (hwants : query.wants token = true)
    {family : FactFamily} {id : String} :
    (∃ fact ∈ factsOf (db.postgresFacts epochId query family) token.id, family.id fact = id) ↔
      ∃ row ∈ db.rows family, db.postgresSelects epochId query family row = true ∧
        db.names family row token = true ∧ family.id row.fact = id := by
  have hview := tables_of db epochId
  constructor
  · intro ⟨fact, hfact, hid⟩
    obtain ⟨joined, hjoined, rfl⟩ := List.mem_map.mp hfact
    obtain ⟨hmem, htokenId⟩ := List.mem_filter.mp hjoined
    obtain ⟨row, hrow, hsubjects⟩ := List.mem_flatMap.mp hmem
    obtain ⟨hin, hselects⟩ := List.mem_filter.mp hrow
    obtain ⟨subject, hsubject, rfl⟩ := List.mem_map.mp hsubjects
    have hnames := names_of_mem_subjects hview (List.mem_filter.mp hsubject).1
    have hsame : subject.2 = token := eq_of_unique db.tokens_unique
      (mem_subjects.mp (List.mem_filter.mp hsubject).1).1 htoken (of_decide_eq_true htokenId)
    exact ⟨row, hin, hselects, hsame ▸ hnames, by rw [← hid, id_joined]⟩
  · intro ⟨row, hrow, hselects, hnames, hid⟩
    obtain ⟨subject, hsubject, heq⟩ :
        ∃ subject ∈ (db.tables epochId).subjects family row, subject.2 = token :=
      exists_mem_subjects htoken hnames fun _ pair hpair _ => hpair
    refine ⟨family.joined subject.1 row.fact, List.mem_map.mpr ⟨(token, _), ?_, rfl⟩,
      by rw [id_joined, hid]⟩
    refine List.mem_filter.mpr ⟨List.mem_flatMap.mpr ⟨row, List.mem_filter.mpr ⟨hrow, hselects⟩, ?_⟩,
      decide_eq_true rfl⟩
    exact List.mem_map.mpr ⟨subject, List.mem_filter.mpr ⟨hsubject, heq ▸ hwants⟩,
      Prod.ext heq rfl⟩

/-- In the tables themselves a row is joined once with the token that it is about. -/
theorem tables_subjects {family : FactFamily} {row : FamilyRow family} (htoken : token ∈ db.tokens)
    (hnames : db.names family row token = true) :
    ∃ pair, (db.tables epochId).subjects family row = [(pair, token)] := by
  have htokens : db.tokens.filter (fun other => other.id = token.id) = [token] :=
    filter_key_eq_singleton db.tokens_unique htoken
  unfold ResearchDatabase.names at hnames
  unfold ArchiveView.subjects
  by_cases hvia : family.viaPair = true
  · rw [if_pos hvia, List.any_eq_true] at hnames
    obtain ⟨pair, hpair, hboth⟩ := hnames
    simp only [Bool.and_eq_true, decide_eq_true_eq] at hboth
    have hpairs : db.pairs.filter (fun other => other.id = row.subject) = [pair] := by
      rw [← hboth.1]
      exact filter_key_eq_singleton db.pairs_unique hpair
    refine ⟨some pair, ?_⟩
    rw [if_pos hvia]
    simp [ResearchDatabase.tables, hpairs, hboth.2, htokens]
  · rw [if_neg hvia] at hnames
    refine ⟨none, ?_⟩
    rw [if_neg hvia]
    simp [ResearchDatabase.tables, of_decide_eq_true hnames, htokens]

/-- The rows that are returned of wanted tokens, by their identities. -/
theorem postgres_ids (query : ResearchQuery) (family : FactFamily) :
    ((db.postgresFacts epochId query family).map fun row => family.id row.2) =
      (((db.rows family).filter (db.postgresSelects epochId query family)).filter fun row =>
        db.tokens.any fun token => query.wants token && db.names family row token).map
          fun row => family.id row.fact := by
  refine map_flatMap_of_single (fun row hrow hany => ?_) fun row _ hnone => ?_
  · obtain ⟨token, htoken, hboth⟩ := List.any_eq_true.mp hany
    obtain ⟨hwants, hnames⟩ := Bool.and_eq_true_iff.mp hboth
    obtain ⟨pair, hsubjects⟩ : ∃ pair, (db.tables epochId).subjects family row = [(pair, token)] :=
      tables_subjects htoken hnames
    refine ⟨(token, family.joined pair row.fact), ?_, id_joined _ _⟩
    simp [hsubjects, hwants]
  · rw [List.map_eq_nil_iff, List.filter_eq_nil_iff]
    intro subject hsubject hwants
    have hnames := names_of_mem_subjects (tables_of db epochId) hsubject
    rw [List.any_eq_false] at hnone
    exact hnone subject.2 (mem_subjects.mp hsubject).1 (by rw [hwants, hnames]; rfl)

end Hot

section Cold
variable {db : ResearchDatabase} {whole : EpochManifest} {query : ResearchQuery} {token : TokenRow}

/-- One manifest is a split of its own. -/
theorem splitArchive_self (h : db.Exported whole) : SplitArchive db whole [whole] [] [whole] where
  full := h
  scopes part hpart := by
    rw [List.mem_singleton.mp hpart]
    exact ⟨h, rfl⟩
  foreign _ hother := by cases hother
  splits := by
    obtain ⟨_, _, _, hlt, _⟩ := exported_scope h
    exact ⟨[(whole.startAt, whole.endAt)], ⟨rfl, hlt, rfl⟩, .refl _⟩
  listed _ := by simp

/-- The joined rows of a token of the archive, by their identities. -/
theorem mem_cold_ids (h : db.Exported whole) (htoken : token ∈ whole.tokens)
    (hwants : query.wants token = true) {family : FactFamily} {id : String} :
    (∃ fact ∈ factsOf (((archiveView [whole]).historyRows query).rows family) token.id,
        family.id fact = id) ↔
      ∃ row ∈ whole.rows family, included query.startAt query.endAt (family.time row.fact) = true ∧
        db.names family row token = true ∧ family.id row.fact = id := by
  have hview := (splitArchive_self h).whole_of
  have hin : token ∈ (archiveView [whole]).tokens := mem_whole_tokens.mpr htoken
  have hrows : ((archiveView [whole]).historyRows query).rows family =
      (whole.rows family).flatMap ((archiveView [whole]).rowFacts query family) :=
    familyFacts_whole family
  rw [hrows]
  constructor
  · intro ⟨fact, hfact, hid⟩
    obtain ⟨joined, hjoined, rfl⟩ := List.mem_map.mp hfact
    obtain ⟨hmem, htokenId⟩ := List.mem_filter.mp hjoined
    obtain ⟨row, hrow, hsubjects⟩ := List.mem_flatMap.mp hmem
    obtain ⟨subject, hsubject, rfl⟩ := List.mem_map.mp hsubjects
    obtain ⟨hsubject, hadmits⟩ := List.mem_filter.mp hsubject
    have hsame : subject.2 = token := eq_of_unique db.tokens_unique
      (hview.tokens _ (mem_subjects.mp hsubject).1) (hview.tokens _ hin)
      (of_decide_eq_true htokenId)
    exact ⟨row, hrow, (Bool.and_eq_true_iff.mp hadmits).2,
      hsame ▸ names_of_mem_subjects hview hsubject, by rw [← hid, id_joined]⟩
  · intro ⟨row, hrow, hincluded, hnames, hid⟩
    obtain ⟨subject, hsubject, heq⟩ := exists_mem_subjects hin hnames
      fun hvia pair hpair hpairId => List.mem_flatMap.mpr ⟨whole, by simp,
        pair_mem_of_mem_rows h hrow hvia pair hpair hpairId⟩
    refine ⟨family.joined subject.1 row.fact, List.mem_map.mpr ⟨(token, _), ?_, rfl⟩,
      by rw [id_joined, hid]⟩
    refine List.mem_filter.mpr ⟨List.mem_flatMap.mpr ⟨row, hrow, ?_⟩, decide_eq_true rfl⟩
    refine List.mem_map.mpr ⟨subject, List.mem_filter.mpr ⟨hsubject, ?_⟩, Prod.ext heq rfl⟩
    rw [ResearchQuery.admits, heq, hwants, hincluded]
    rfl

/-- The rows of a scope, told by the tables. -/
theorem mem_whole_rows (h : db.Exported whole) {family : FactFamily} {row : FamilyRow family} :
    row ∈ whole.rows family ↔ row ∈ db.rows family ∧
      db.inEpoch whole.epochId family row.reference = true ∧
        within (whole.startAt, whole.endAt) (family.time row.fact) = true := by
  obtain ⟨epoch, _, heq, hlt, _⟩ := exported_scope h
  have hid : whole.epochId = epoch.id := congrArg (·.epochId) heq
  have hrows : whole.rows = (db.scopeManifest epoch whole.startAt whole.endAt).rows :=
    congrArg (·.rows) heq
  rw [hid, hrows, ← Bool.and_eq_true]
  exact mem_rows_scopeManifest hlt.le

end Cold

/-! ### When the two agree -/

/-- Both reads return, with the same tokens and facts. -/
def ReadsSameTokens (db : ResearchDatabase) (whole : EpochManifest) (query : ResearchQuery) : Prop :=
  ∃ hot cold, postgresSource db query = .ok hot ∧ coldSource [whole] query = .ok cold ∧
    SameTokens hot cold

section Agreement
variable (db : ResearchDatabase) (whole : EpochManifest) (query : ResearchQuery)

/-- A token that the query asks for and that PostgreSQL finds in the epoch. -/
def ResearchDatabase.returns (token : TokenRow) : Prop :=
  token ∈ db.tokens ∧ db.postgresToken whole.epochId token = true ∧ query.wants token = true

/-- A row of such a token, under the conditions of its PostgreSQL query. -/
def ResearchDatabase.reads (family : FactFamily) (row : FamilyRow family) : Prop :=
  row ∈ db.rows family ∧ db.postgresSelects whole.epochId query family row = true ∧
    ∃ token, db.returns whole query token ∧ db.names family row token = true

/-- The runs of the epoch have known boundaries, both sides find the same tokens, and what
PostgreSQL reads of them lies in the archive and in the query's range. -/
structure Congruent : Prop where
  runs : whole.runs ≠ []
  known : ∀ run ∈ db.runs, run.collectionEpochId = whole.epochId →
    run.collectionStartedAt.isSome = true
  tokens : ∀ token ∈ db.tokens, query.wants token = true →
    (db.postgresToken whole.epochId token = true ↔
      db.tokenReferenced whole.epochId (whole.startAt, whole.endAt) token = true)
  observed : ((((db.rows .observations).filter
    (db.postgresSelects whole.epochId query .observations)).filter fun row =>
      db.tokens.any fun token => query.wants token && db.names .observations row token).map
        fun row => ObservationFact.id row.fact).Nodup
  inside : ∀ family row, db.reads whole query family row →
    within (whole.startAt, whole.endAt) (family.time row.fact) = true
  started : ∀ family row, db.reads whole query family row →
    query.startAt.all (· ≤ family.time row.fact) = true
  named : ∀ row ∈ db.rows .coverage, ∀ token, db.returns whole query token →
    db.names .coverage row token = true → db.coverageInEpoch whole.epochId row.reference = true →
    within (whole.startAt, whole.endAt) (FactFamily.coverage.time row.fact) = true →
    included query.startAt query.endAt (FactFamily.coverage.time row.fact) = true →
    row.reference.collectionEpochId = some whole.epochId
  contexts : (∃ token, db.returns whole query token) → ∀ row ∈ db.contexts,
    row.collectionEpochId = whole.epochId →
    included query.startAt query.endAt row.fact.receivedAt = true →
    within (whole.startAt, whole.endAt) row.fact.receivedAt = true

end Agreement

/-! ### The two sides of a read -/

theorem mem_sorted_histories {rows : HistoryRows} (hids : (rows.tokens.map (·.id)).Nodup)
    {epoch : HistoryEpoch} {history : TokenHistory} :
    history ∈ sortOn (·.address) ((distinctBy (·.id) [] rows.tokens).map (rows.history epoch)) ↔
      ∃ token ∈ rows.tokens, rows.history epoch token = history := by
  rw [mem_sortOn, distinctBy_eq_self hids (by simp), List.mem_map]

section Sides
variable {db : ResearchDatabase} {whole : EpochManifest} {query : ResearchQuery} {token : TokenRow}

theorem coverageInEpoch_of_named {epochId : String} {reference : CoverageReference}
    (h : reference.collectionEpochId = some epochId) :
    db.coverageInEpoch epochId reference = true := by
  unfold ResearchDatabase.coverageInEpoch
  rw [h]
  exact decide_eq_true rfl

theorem inEpoch_of_postgres {epochId : String} {family : FactFamily} {reference : family.Reference}
    (h : db.postgresInEpoch epochId family reference = true) :
    db.inEpoch epochId family reference = true := by
  cases family with
  | coverage => exact coverageInEpoch_of_named (of_decide_eq_true h)
  | _ => exact h

theorem postgres_of_inEpoch {epochId : String} {family : FactFamily} {reference : family.Reference}
    (hfamily : family ≠ .coverage) (h : db.inEpoch epochId family reference = true) :
    db.postgresInEpoch epochId family reference = true := by
  cases family with
  | coverage => exact absurd rfl hfamily
  | _ => exact h

theorem postgresIncluded_of_included {family : FactFamily} {t : Timestamp}
    (h : included query.startAt query.endAt t = true) : query.postgresIncluded family t = true := by
  have hend := (Bool.and_eq_true_iff.mp h).2
  cases family with
  | lifecycle => exact hend
  | coverage => exact hend
  | _ => exact h

theorem included_of_postgres {family : FactFamily} {t : Timestamp}
    (h : query.postgresIncluded family t = true) (hstarted : query.startAt.all (· ≤ t) = true) :
    included query.startAt query.endAt t = true := by
  cases family with
  | lifecycle => exact Bool.and_eq_true_iff.mpr ⟨hstarted, h⟩
  | coverage => exact Bool.and_eq_true_iff.mpr ⟨hstarted, h⟩
  | _ => exact h

/-- Identities are unique in every table but that of the observations. -/
theorem nodup_ids {family : FactFamily} (hfamily : family ≠ .observations) :
    ((db.rows family).map fun row => family.id row.fact).Nodup := by
  have hkeys := db.rows_unique family
  refine hkeys.of_map.map_on fun row hrow other hother hid => ?_
  refine eq_of_unique hkeys hrow hother ?_
  rw [FactFamily.key, FactFamily.key, if_neg hfamily, if_neg hfamily, hid]

theorem mem_scope_tokens (h : db.Exported whole) : token ∈ whole.tokens ↔ token ∈ db.tokens ∧
    db.tokenReferenced whole.epochId (whole.startAt, whole.endAt) token = true := by
  obtain ⟨epoch, _, heq, _⟩ := exported_scope h
  have hid : whole.epochId = epoch.id := congrArg (·.epochId) heq
  have htokens : whole.tokens =
      db.tokens.filter (db.tokenReferenced epoch.id (whole.startAt, whole.endAt)) :=
    congrArg (·.tokens) heq
  rw [hid, htokens, List.mem_filter]

theorem mem_scope_contexts (h : db.Exported whole) {row : MarketContextRow} :
    row ∈ whole.contexts ↔ row ∈ db.contexts ∧ row.collectionEpochId = whole.epochId ∧
      within (whole.startAt, whole.endAt) row.fact.receivedAt = true := by
  obtain ⟨epoch, _, heq, hlt, _⟩ := exported_scope h
  have hid : whole.epochId = epoch.id := congrArg (·.epochId) heq
  have hcontexts : whole.contexts = db.contextRows epoch.id (whole.startAt, whole.endAt) :=
    congrArg (·.contexts) heq
  rw [hid, hcontexts, (contextRows_perm db epoch.id hlt.le).mem_iff, List.mem_filter,
    Bool.and_eq_true, decide_eq_true_eq]

theorem mem_scope_runs (h : db.Exported whole) {run : CollectorRunRow} :
    run ∈ whole.runs ↔ run ∈ db.runs ∧ run.collectionEpochId = whole.epochId ∧
      run.startedAt < whole.endAt := by
  obtain ⟨epoch, _, heq, _⟩ := exported_scope h
  have hid : whole.epochId = epoch.id := congrArg (·.epochId) heq
  have hruns : whole.runs = db.scopeRuns epoch.id (whole.startAt, whole.endAt) :=
    congrArg (·.runs) heq
  rw [hid, hruns, ResearchDatabase.scopeRuns, List.mem_filter, Bool.and_eq_true, decide_eq_true_eq,
    decide_eq_true_eq]

/-- The PostgreSQL source on an epoch with an export. -/
theorem postgresSource_eq (h : db.Exported whole) (hquery : query.epochNumber = whole.epoch) :
    postgresSource db query =
      if whole.epochDataValid = false ∧ query.allowInvalidEpoch = false then .ok []
      else
        requireResearchBoundaries (db.tables whole.epochId).runs
          ("epoch " ++ toString query.epochNumber ++ " PostgreSQL") >>= fun _ =>
        assembleHistories (db.postgresRows whole.epochId query)
          ⟨whole.epochId, query.epochNumber, whole.epochDataValid, postgresDescriptor⟩ := by
  obtain ⟨epoch, hfound, heq, _⟩ := exported_scope h
  have hid : whole.epochId = epoch.id := congrArg (·.epochId) heq
  have hvalid : whole.epochDataValid = epoch.dataValid := congrArg (·.epochDataValid) heq
  unfold postgresSource
  rw [hquery, hfound, hid, hvalid]

/-- On congruent tables the conditions of a row agree. -/
theorem Congruent.row (hc : Congruent db whole query) (htoken : db.returns whole query token)
    {family : FactFamily} {row : FamilyRow family} (hrow : row ∈ db.rows family)
    (hnames : db.names family row token = true) :
    db.postgresSelects whole.epochId query family row = true ↔
      db.inEpoch whole.epochId family row.reference = true ∧
        within (whole.startAt, whole.endAt) (family.time row.fact) = true ∧
          included query.startAt query.endAt (family.time row.fact) = true := by
  constructor
  · intro hselects
    have hreads : db.reads whole query family row := ⟨hrow, hselects, token, htoken, hnames⟩
    obtain ⟨hepoch, hincluded⟩ := Bool.and_eq_true_iff.mp hselects
    exact ⟨inEpoch_of_postgres hepoch, hc.inside family row hreads,
      included_of_postgres hincluded (hc.started family row hreads)⟩
  · intro ⟨hepoch, hwithin, hincluded⟩
    refine Bool.and_eq_true_iff.mpr ⟨?_, postgresIncluded_of_included hincluded⟩
    by_cases hcoverage : family = .coverage
    · subst hcoverage
      exact decide_eq_true (hc.named row hrow token htoken hnames hepoch hwithin hincluded)
    · exact postgres_of_inEpoch hcoverage hepoch

/-- On congruent tables a token has the same facts on both sides. -/
theorem Congruent.sameFactIds (hc : Congruent db whole query) (h : db.Exported whole)
    (htoken : db.returns whole query token) (hin : token ∈ whole.tokens)
    {epoch epoch' : HistoryEpoch} :
    SameFactIds ((db.postgresRows whole.epochId query).history epoch token)
      (((archiveView [whole]).historyRows query).history epoch' token) := by
  have hmem := htoken.1
  have hwants := htoken.2.2
  refine sameFactIds_iff.mpr ⟨fun family id => ?_, fun id => ?_⟩
  · refine (mem_postgres_ids hmem hwants).trans (Iff.trans ?_ (mem_cold_ids h hin hwants).symm)
    constructor
    · intro ⟨row, hrow, hselects, hnames, hid⟩
      obtain ⟨hepoch, hwithin, hincluded⟩ := (hc.row htoken hrow hnames).mp hselects
      exact ⟨row, (mem_whole_rows h).mpr ⟨hrow, hepoch, hwithin⟩, hincluded, hnames, hid⟩
    · intro ⟨row, hrow, hincluded, hnames, hid⟩
      obtain ⟨hrow, hepoch, hwithin⟩ := (mem_whole_rows h).mp hrow
      exact ⟨row, hrow, (hc.row htoken hrow hnames).mpr ⟨hepoch, hwithin, hincluded⟩, hnames, hid⟩
  · constructor
    · intro ⟨fact, hfact, hid⟩
      obtain ⟨row, hrow, rfl⟩ := List.mem_map.mp hfact
      obtain ⟨hrow, hboth⟩ := List.mem_filter.mp hrow
      obtain ⟨hepoch, hincluded⟩ := Bool.and_eq_true_iff.mp hboth
      have hwithin := hc.contexts ⟨token, htoken⟩ row hrow (of_decide_eq_true hepoch) hincluded
      refine ⟨row.fact, List.mem_filter.mpr ⟨List.mem_map_of_mem ?_, hincluded⟩, hid⟩
      exact List.mem_flatMap.mpr ⟨whole, by simp, (mem_scope_contexts h).mpr
        ⟨hrow, of_decide_eq_true hepoch, hwithin⟩⟩
    · intro ⟨fact, hfact, hid⟩
      obtain ⟨hmem, hincluded⟩ := List.mem_filter.mp hfact
      obtain ⟨row, hrow, rfl⟩ := List.mem_map.mp hmem
      obtain ⟨_, hone, hrow⟩ := List.mem_flatMap.mp hrow
      rw [List.mem_singleton.mp hone] at hrow
      obtain ⟨hrow, hepoch, _⟩ := (mem_scope_contexts h).mp hrow
      exact ⟨row.fact, List.mem_map_of_mem (List.mem_filter.mpr
        ⟨hrow, Bool.and_eq_true_iff.mpr ⟨decide_eq_true hepoch, hincluded⟩⟩), hid⟩

/-- Both sides return a token of an epoch that they agree on, with the same facts. -/
theorem SameTokens.of_returns {epoch epoch' : HistoryEpoch} {hot cold : List TokenHistory}
    (h : db.Exported whole)
    (hhot : hot = sortOn (·.address) ((distinctBy (·.id) []
      (db.postgresRows whole.epochId query).tokens).map
        ((db.postgresRows whole.epochId query).history epoch)))
    (hcold : cold = sortOn (·.address) ((distinctBy (·.id) []
      ((archiveView [whole]).historyRows query).tokens).map
        (((archiveView [whole]).historyRows query).history epoch')))
    (hsame : SameTokens hot cold) (htoken : db.returns whole query token) :
    token ∈ whole.tokens ∧
      SameFactIds ((db.postgresRows whole.epochId query).history epoch token)
        (((archiveView [whole]).historyRows query).history epoch' token) := by
  have hview := (splitArchive_self h).whole_of
  have hin : (db.postgresRows whole.epochId query).history epoch token ∈ hot := by
    rw [hhot]
    exact (mem_sorted_histories postgresRows_tokens_nodup).mpr
      ⟨token, mem_postgresRows_tokens.mpr htoken, rfl⟩
  obtain ⟨history, hhistory, hids⟩ := hsame.left _ hin
  rw [hcold, mem_sorted_histories (historyRows_tokens_nodup hview)] at hhistory
  obtain ⟨other, hother, rfl⟩ := hhistory
  have hmem := (mem_historyRows_tokens.mp hother).1
  have heq : token = other :=
    eq_of_unique db.tokens_unique htoken.1 (hview.tokens _ hmem) hids.1
  rw [← heq] at hmem hids
  exact ⟨mem_whole_tokens.mp hmem, hids⟩

/-- A wanted token of the archive is returned on both sides. -/
theorem SameTokens.returns {epoch epoch' : HistoryEpoch} {hot cold : List TokenHistory}
    (h : db.Exported whole)
    (hhot : hot = sortOn (·.address) ((distinctBy (·.id) []
      (db.postgresRows whole.epochId query).tokens).map
        ((db.postgresRows whole.epochId query).history epoch)))
    (hcold : cold = sortOn (·.address) ((distinctBy (·.id) []
      ((archiveView [whole]).historyRows query).tokens).map
        (((archiveView [whole]).historyRows query).history epoch')))
    (hsame : SameTokens hot cold) (htoken : token ∈ whole.tokens)
    (hwants : query.wants token = true) : db.returns whole query token := by
  have hview := (splitArchive_self h).whole_of
  have hin : ((archiveView [whole]).historyRows query).history epoch' token ∈ cold := by
    rw [hcold]
    exact (mem_sorted_histories (historyRows_tokens_nodup hview)).mpr
      ⟨token, mem_historyRows_tokens.mpr ⟨mem_whole_tokens.mpr htoken, hwants⟩, rfl⟩
  obtain ⟨history, hhistory, hids⟩ := hsame.right _ hin
  rw [hhot, mem_sorted_histories postgresRows_tokens_nodup] at hhistory
  obtain ⟨other, hother, rfl⟩ := hhistory
  have hreturned := mem_postgresRows_tokens.mp hother
  have heq : other = token := eq_of_unique db.tokens_unique hreturned.1
    ((mem_scope_tokens h).mp htoken).1 hids.1
  exact heq ▸ hreturned

/-- Tables on which both reads return the same are congruent. -/
theorem congruent_of_same {epoch epoch' : HistoryEpoch} {hot cold : List TokenHistory}
    (h : db.Exported whole) (hruns : whole.runs ≠ [])
    (hknown : ∀ run ∈ (db.tables whole.epochId).runs, run.collectionStartedAt.isSome = true)
    (hhot : assembleHistories (db.postgresRows whole.epochId query) epoch = .ok hot)
    (hcold : assembleHistories ((archiveView [whole]).historyRows query) epoch' = .ok cold)
    (hsame : SameTokens hot cold) : Congruent db whole query := by
  obtain ⟨hnodup, hhot⟩ := assembleHistories_eq_ok.mp hhot
  obtain ⟨_, hcold⟩ := assembleHistories_eq_ok.mp hcold
  have hfacts {token : TokenRow} (htoken : db.returns whole query token) :=
    hsame.of_returns h hhot hcold htoken
  have hobserved := hnodup .observations
  rw [show (db.postgresRows whole.epochId query).rows .observations =
    db.postgresFacts whole.epochId query .observations from rfl, postgres_ids] at hobserved
  -- the archive has a row of the identity, which is the row itself
  have hcoldRow {family : FactFamily} {row : FamilyRow family}
      (hreads : db.reads whole query family row) : row ∈ whole.rows family ∧
        included query.startAt query.endAt (family.time row.fact) = true := by
    obtain ⟨hrow, hselects, token, htoken, hnames⟩ := hreads
    obtain ⟨hin, hids⟩ := hfacts htoken
    have hmine : ∃ fact ∈ factsOf (db.postgresFacts whole.epochId query family) token.id,
        family.id fact = family.id row.fact :=
      (mem_postgres_ids htoken.1 htoken.2.2).mpr ⟨row, hrow, hselects, hnames, rfl⟩
    obtain ⟨other, hother, hincluded, hotherNames, hid⟩ := (mem_cold_ids h hin htoken.2.2).mp
      (((sameFactIds_iff.mp hids).1 family _).mp hmine)
    obtain ⟨hotherRow, hepoch, hwithin⟩ := (mem_whole_rows h).mp hother
    have heq : row = other := by
      by_cases hfamily : family = .observations
      · subst hfamily
        have hotherSelects : db.postgresSelects whole.epochId query .observations other = true :=
          Bool.and_eq_true_iff.mpr ⟨hepoch, hincluded⟩
        have hany {found : FamilyRow .observations}
            (hfound : db.names .observations found token = true) :
            (db.tokens.any fun token => query.wants token && db.names .observations found token) =
              true :=
          List.any_eq_true.mpr ⟨token, htoken.1, Bool.and_eq_true_iff.mpr ⟨htoken.2.2, hfound⟩⟩
        exact eq_of_unique hobserved
          (List.mem_filter.mpr ⟨List.mem_filter.mpr ⟨hrow, hselects⟩, hany hnames⟩)
          (List.mem_filter.mpr ⟨List.mem_filter.mpr ⟨hotherRow, hotherSelects⟩, hany hotherNames⟩)
          hid.symm
      · refine eq_of_unique (db.rows_unique family) hrow hotherRow ?_
        rw [FactFamily.key, FactFamily.key, if_neg hfamily, if_neg hfamily, hid]
    exact heq ▸ ⟨hother, hincluded⟩
  constructor
  · exact hruns
  · exact fun run hrun hepoch =>
      hknown run (List.mem_filter.mpr ⟨hrun, decide_eq_true hepoch⟩)
  · intro token htoken hwants
    constructor
    · exact fun hselected =>
        ((mem_scope_tokens h).mp (hfacts ⟨htoken, hselected, hwants⟩).1).2
    · exact fun hreferenced =>
        (hsame.returns h hhot hcold ((mem_scope_tokens h).mpr ⟨htoken, hreferenced⟩) hwants).2.1
  · exact hobserved
  · exact fun family row hreads => ((mem_whole_rows h).mp (hcoldRow hreads).1).2.2
  · exact fun family row hreads => (Bool.and_eq_true_iff.mp (hcoldRow hreads).2).1
  · intro row hrow token htoken hnames hepoch hwithin hincluded
    obtain ⟨hin, hids⟩ := hfacts htoken
    have hmine := (mem_cold_ids h hin htoken.2.2).mpr
      ⟨row, (mem_whole_rows h).mpr ⟨hrow, hepoch, hwithin⟩, hincluded, hnames, rfl⟩
    obtain ⟨other, hother, hselects, _, hid⟩ := (mem_postgres_ids htoken.1 htoken.2.2).mp
      (((sameFactIds_iff.mp hids).1 .coverage _).mpr hmine)
    have heq : row = other := eq_of_unique (db.rows_unique .coverage) hrow hother
      (Prod.ext rfl hid.symm)
    rw [heq]
    exact of_decide_eq_true (Bool.and_eq_true_iff.mp hselects).1
  · intro ⟨token, htoken⟩ row hrow hepoch hincluded
    obtain ⟨_, hids⟩ := hfacts htoken
    obtain ⟨fact, hfact, hid⟩ := ((sameFactIds_iff.mp hids).2 row.fact.id).mp
      ⟨row.fact, List.mem_map_of_mem (List.mem_filter.mpr
        ⟨hrow, Bool.and_eq_true_iff.mpr ⟨decide_eq_true hepoch, hincluded⟩⟩), rfl⟩
    obtain ⟨hmem, _⟩ := List.mem_filter.mp hfact
    obtain ⟨other, hother, rfl⟩ := List.mem_map.mp hmem
    obtain ⟨_, hone, hother⟩ := List.mem_flatMap.mp hother
    rw [List.mem_singleton.mp hone] at hother
    obtain ⟨hotherRow, _, hwithin⟩ := (mem_scope_contexts h).mp hother
    have heq : row = other := eq_of_unique db.contexts_unique hrow hotherRow hid.symm
    rw [heq]
    exact hwithin

/-- The rows that the archive returns have unique identities when those of PostgreSQL have. -/
theorem Congruent.cold_nodup (hc : Congruent db whole query) (h : db.Exported whole)
    (family : FactFamily) :
    ((((archiveView [whole]).historyRows query).rows family).map fun row =>
      family.id row.2).Nodup := by
  have hids := (splitArchive_self h).whole_ids query family
  refine hids.symm ▸ ?_
  obtain ⟨epoch, _, heq, hlt, _⟩ := exported_scope h
  have hid : whole.epochId = epoch.id := congrArg (·.epochId) heq
  have hrows : whole.rows = db.familyRows epoch.id (whole.startAt, whole.endAt) :=
    congrArg (·.rows) heq
  have hperm := (((familyRows_perm db epoch.id hlt.le family).filter fun row =>
    whole.tokens.any (db.asks query family row)).map fun row => family.id row.fact)
  rw [hrows]
  refine hperm.nodup_iff.mpr ?_
  by_cases hfamily : family = .observations
  · subst hfamily
    refine hc.observed.sublist (List.Sublist.map _ ?_)
    rw [List.filter_filter, List.filter_filter]
    refine List.monotone_filter_right _ fun row hrow => ?_
    obtain ⟨hany, hselects⟩ := Bool.and_eq_true_iff.mp hrow
    obtain ⟨token, htoken, hasks⟩ := List.any_eq_true.mp hany
    simp only [ResearchDatabase.asks, Bool.and_eq_true] at hasks
    obtain ⟨⟨hwants, hincluded⟩, hnames⟩ := hasks
    refine Bool.and_eq_true_iff.mpr ⟨List.any_eq_true.mpr ⟨token,
      ((mem_scope_tokens h).mp htoken).1, Bool.and_eq_true_iff.mpr ⟨hwants, hnames⟩⟩, ?_⟩
    rw [hid]
    exact Bool.and_eq_true_iff.mpr ⟨(Bool.and_eq_true_iff.mp hselects).1, hincluded⟩
  · refine List.Nodup.sublist (((List.filter_sublist).trans List.filter_sublist).map _) ?_
    exact nodup_ids hfamily

/-- On congruent tables the same tokens are assembled with the same facts. -/
theorem Congruent.sameTokens (hc : Congruent db whole query) (h : db.Exported whole)
    {epoch epoch' : HistoryEpoch} {hot cold : List TokenHistory}
    (hhot : assembleHistories (db.postgresRows whole.epochId query) epoch = .ok hot)
    (hcold : assembleHistories ((archiveView [whole]).historyRows query) epoch' = .ok cold) :
    SameTokens hot cold := by
  have hview := (splitArchive_self h).whole_of
  rw [(assembleHistories_eq_ok.mp hhot).2, (assembleHistories_eq_ok.mp hcold).2]
  constructor
  · intro history hhistory
    rw [mem_sorted_histories postgresRows_tokens_nodup] at hhistory
    obtain ⟨token, htoken, rfl⟩ := hhistory
    have hreturned := mem_postgresRows_tokens.mp htoken
    have hin : token ∈ whole.tokens := (mem_scope_tokens h).mpr
      ⟨hreturned.1, (hc.tokens token hreturned.1 hreturned.2.2).mp hreturned.2.1⟩
    refine ⟨_, (mem_sorted_histories (historyRows_tokens_nodup hview)).mpr ⟨token, ?_, rfl⟩,
      hc.sameFactIds h hreturned hin⟩
    exact mem_historyRows_tokens.mpr ⟨mem_whole_tokens.mpr hin, hreturned.2.2⟩
  · intro history hhistory
    rw [mem_sorted_histories (historyRows_tokens_nodup hview)] at hhistory
    obtain ⟨token, htoken, rfl⟩ := hhistory
    obtain ⟨hmem, hwants⟩ := mem_historyRows_tokens.mp htoken
    have hin := mem_whole_tokens.mp hmem
    obtain ⟨htable, hreferenced⟩ := (mem_scope_tokens h).mp hin
    have hreturned : db.returns whole query token :=
      ⟨htable, (hc.tokens token htable hwants).mpr hreferenced, hwants⟩
    exact ⟨_, (mem_sorted_histories postgresRows_tokens_nodup).mpr
      ⟨token, mem_postgresRows_tokens.mpr hreturned, rfl⟩, hc.sameFactIds h hreturned hin⟩

end Sides

/-- The PostgreSQL source and the cold source over the archive of an epoch return the same tokens
with the same facts exactly when nothing is returned of the epoch or the tables are congruent. -/
theorem hot_cold_agree_iff {db : ResearchDatabase} {whole : EpochManifest} (h : db.Exported whole)
    (query : ResearchQuery) (hquery : query.epochNumber = whole.epoch) :
    ReadsSameTokens db whole query ↔
      (whole.epochDataValid = false ∧ query.allowInvalidEpoch = false) ∨
        Congruent db whole query := by
  have hsplit := splitArchive_self h
  have hhot := postgresSource_eq h hquery
  have hcold := coldSource_eq hsplit.exported h hquery ⟨whole, by simp, rfl⟩
  rw [openedManifests_singleton] at hcold
  have hcoldRuns : (archiveView [whole]).runs = whole.runs := by simp [archiveView]
  by_cases hrefused : whole.epochDataValid = false ∧ query.allowInvalidEpoch = false
  · rw [if_pos hrefused] at hhot hcold
    refine iff_of_true ⟨[], [], hhot, hcold, ?_, ?_⟩ (.inl hrefused)
    · exact fun _ hmem => by cases hmem
    · exact fun _ hmem => by cases hmem
  · rw [if_neg hrefused] at hhot hcold
    constructor
    · intro hreads
      obtain ⟨hot, cold, hok, hok', hsame⟩ := hreads
      rw [hhot, bind_eq_ok] at hok
      rw [hcold, bind_eq_ok] at hok'
      obtain ⟨_, hboundaries, hassembled⟩ := hok
      obtain ⟨_, hboundaries', hassembled'⟩ := hok'
      rw [hcoldRuns] at hboundaries'
      exact .inr (congruent_of_same h (requireResearchBoundaries_eq_ok.mp hboundaries').1
        (requireResearchBoundaries_eq_ok.mp hboundaries).2 hassembled hassembled' hsame)
    · intro hcases
      have hc := hcases.resolve_left hrefused
      have hknown : ∀ run ∈ (db.tables whole.epochId).runs, run.collectionStartedAt.isSome = true := by
        intro run hrun
        obtain ⟨hmem, hepoch⟩ := List.mem_filter.mp hrun
        exact hc.known run hmem (of_decide_eq_true hepoch)
      have hscoped : ∀ run ∈ whole.runs, run ∈ (db.tables whole.epochId).runs := by
        intro run hrun
        obtain ⟨hmem, hepoch, _⟩ := (mem_scope_runs h).mp hrun
        exact List.mem_filter.mpr ⟨hmem, decide_eq_true hepoch⟩
      obtain ⟨first, hfirst⟩ := List.exists_mem_of_ne_nil _ hc.runs
      have hboundaries : requireResearchBoundaries (db.tables whole.epochId).runs
          ("epoch " ++ toString query.epochNumber ++ " PostgreSQL") = .ok () :=
        requireResearchBoundaries_eq_ok.mpr ⟨List.ne_nil_of_mem (hscoped first hfirst), hknown⟩
      have hboundaries' : requireResearchBoundaries (archiveView [whole]).runs
          ("epoch " ++ toString query.epochNumber ++ " archive") = .ok () := by
        rw [hcoldRuns]
        exact requireResearchBoundaries_eq_ok.mpr
          ⟨hc.runs, fun run hrun => hknown run (hscoped run hrun)⟩
      have hids : ∀ family, (((db.postgresRows whole.epochId query).rows family).map fun row =>
          family.id row.2).Nodup := by
        intro family
        show ((db.postgresFacts whole.epochId query family).map fun row => family.id row.2).Nodup
        rw [postgres_ids]
        by_cases hfamily : family = .observations
        · subst hfamily
          exact hc.observed
        · exact (nodup_ids hfamily).sublist
            ((List.filter_sublist.trans List.filter_sublist).map _)
      obtain ⟨hot, hassembled⟩ : ∃ hot, assembleHistories (db.postgresRows whole.epochId query)
          ⟨whole.epochId, query.epochNumber, whole.epochDataValid, postgresDescriptor⟩ = .ok hot :=
        ⟨_, assembleHistories_eq_ok.mpr ⟨hids, rfl⟩⟩
      obtain ⟨cold, hassembled'⟩ : ∃ cold, assembleHistories
          ((archiveView [whole]).historyRows query)
          ⟨whole.epochId, query.epochNumber, whole.epochDataValid, coldDescriptor⟩ = .ok cold :=
        ⟨_, assembleHistories_eq_ok.mpr ⟨hc.cold_nodup h, rfl⟩⟩
      refine ⟨hot, cold, ?_, ?_, hc.sameTokens h hassembled hassembled'⟩
      · rw [hhot, hboundaries, ok_bind, hassembled]
      · rw [hcold, hboundaries', ok_bind, hassembled']

/-! ### An epoch of one token -/

/-- A token with a lifecycle event, in an epoch of one day. -/
def oneDay : ResearchDatabase where
  epochs := [⟨"epoch", 1, .completed, true, some 0, some microsecondsPerDay⟩]
  runs := [⟨"run", "epoch", 0, some 0⟩]
  requests := []
  tokens := [⟨"token", "solana", "A"⟩]
  pairs := []
  rows
    | .lifecycle => [⟨"token", some "run", ⟨"event", 1, 1, none, "active", "first"⟩⟩]
    | _ => []
  contexts := []
  epochs_unique := by decide
  numbers_unique := by decide
  runs_unique := (twoDays 0).runs_unique
  requests_unique := (twoDays 0).requests_unique
  contexts_unique := (twoDays 0).contexts_unique
  rows_unique family := by
    cases family with
    | lifecycle => simp
    | _ => exact List.nodup_nil
  tokens_unique := (twoDays 0).tokens_unique
  pairs_unique := (twoDays 0).pairs_unique

def oneDayEpoch : EpochRow := ⟨"epoch", 1, .completed, true, some 0, some microsecondsPerDay⟩

/-- The archive of the whole epoch. -/
def oneDayArchive : EpochManifest := oneDay.scopeManifest oneDayEpoch 0 microsecondsPerDay

/-- A verified range of a closed epoch is exported. -/
theorem exported_of_verified {db : ResearchDatabase} {epoch : EpochRow} {start finish : Timestamp}
    (hfound : db.epochs.find? (fun found => found.number = epoch.number) = some epoch)
    (hclosed : ¬ (epoch.status = .planned ∨ epoch.status = .running))
    (hbegins : epoch.startedAt.any (fun started => decide (started ≤ start)) = true)
    (hends : epoch.endedAt.any (fun ended => decide (finish ≤ ended)) = true)
    (hlt : start < finish)
    (hverified : (verifyArchive (db.scopeManifest epoch start finish)).isOk = true) :
    db.Exported (db.scopeManifest epoch start finish) := by
  refine ⟨finish, ?_⟩
  cases hok : verifyArchive (db.scopeManifest epoch start finish) with
  | error error =>
    rw [hok] at hverified
    cases hverified
  | ok _ =>
    show db.exportEpochRange epoch.number start finish finish = _
    unfold ResearchDatabase.exportEpochRange
    rw [if_neg (not_not.mpr hlt), if_neg (lt_irrefl finish), hfound]
    simp only [if_neg hclosed, if_neg (not_not.mpr hbegins), if_neg (not_not.mpr hends), hok]
    rfl

theorem oneDay_exported : oneDay.Exported oneDayArchive :=
  exported_of_verified rfl (by decide) (by decide) (by decide) (by decide) (by decide +kernel)

/-- Without a range both sides return the event. -/
theorem hot_cold_agree_oneDay : ReadsSameTokens oneDay oneDayArchive { epochNumber := 1 } := by
  refine (hot_cold_agree_iff oneDay_exported { epochNumber := 1 } rfl).mpr (.inr ?_)
  constructor
  · decide +kernel
  · decide +kernel
  · decide +kernel
  · decide +kernel
  · intro family row hreads
    cases family with
    | lifecycle =>
      rw [List.mem_singleton.mp hreads.1]
      decide +kernel
    | _ => cases hreads.1
  · exact fun _ _ _ => rfl
  · intro row hrow
    cases hrow
  · intro _ row hrow
    cases hrow

/-- From a start after it, PostgreSQL returns the event and the archive does not. -/
theorem hot_cold_disagree :
    oneDay.Exported oneDayArchive ∧
      (postgresSource oneDay { epochNumber := 1, startAt := some 2 }).isOk = true ∧
      (coldSource [oneDayArchive] { epochNumber := 1, startAt := some 2 }).isOk = true ∧
      ¬ ReadsSameTokens oneDay oneDayArchive { epochNumber := 1, startAt := some 2 } := by
  refine ⟨oneDay_exported, by decide +kernel, by decide +kernel, ?_⟩
  intro ⟨hot, cold, hhot, hcold, hsame⟩
  have hhotIds : (postgresSource oneDay { epochNumber := 1, startAt := some 2 }).map
      (fun histories => histories.map (·.factIds)) = .ok [[("lifecycle", "event")]] := by
    decide +kernel
  have hcoldIds : (coldSource [oneDayArchive] { epochNumber := 1, startAt := some 2 }).map
      (fun histories => histories.map (·.factIds)) = .ok [[]] := by decide +kernel
  rw [hhot] at hhotIds
  rw [hcold] at hcoldIds
  have hhot' : hot.map (·.factIds) = [[("lifecycle", "event")]] := Except.ok.inj hhotIds
  have hcold' : cold.map (·.factIds) = [[]] := Except.ok.inj hcoldIds
  obtain ⟨history, hhistory, hfacts⟩ : ∃ history ∈ hot, history.factIds = [("lifecycle", "event")] := by
    refine List.mem_map.mp ?_
    rw [hhot']
    exact List.mem_singleton_self _
  obtain ⟨other, hother, _, hkeys⟩ := hsame.left history hhistory
  have hnone : other.factIds = [] := by
    have hmem : other.factIds ∈ cold.map (·.factIds) := List.mem_map_of_mem hother
    rw [hcold'] at hmem
    exact List.mem_singleton.mp hmem
  have hin := (hkeys ("lifecycle", "event")).mp (by rw [hfacts]; exact List.mem_singleton_self _)
  rw [hnone] at hin
  cases hin

end PumpResearch.Research
