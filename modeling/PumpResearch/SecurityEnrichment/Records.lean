import PumpResearch.SecurityEnrichment.Worker

/-! The transactions of executions: tables only grow, and what is stored refers to requests that
are stored. -/
namespace PumpResearch.SecurityEnrichment
open Candidates KeyedOrder KeyedTable Results Relation

/-! ### Tables that only grow -/

section Growth
variable {values row : EvidenceRow} {table table' : EvidenceTable}

theorem mem_of_insertVerified (h : insertVerified values table = .ok (table', row))
    {old : EvidenceRow} (hold : old ∈ table.rows) : old ∈ table'.rows := by
  cases (insertVerified_eq_ok h).1 with
  | inl hsame => rwa [hsame]
  | inr hnew =>
    rw [hnew]
    exact List.mem_append_left _ hold

theorem forall_insertVerified {P : EvidenceRow → Prop}
    (h : insertVerified values table = .ok (table', row)) (hvalues : P values)
    (htable : ∀ old ∈ table.rows, P old) : ∀ old ∈ table'.rows, P old := by
  intro old hold
  cases (insertVerified_eq_ok h).1 with
  | inl hsame => exact htable old (hsame ▸ hold)
  | inr hnew =>
    rw [hnew] at hold
    cases List.mem_append.mp hold with
    | inl hin => exact htable old hin
    | inr hin => exact List.mem_singleton.mp hin ▸ hvalues

theorem insertAllVerified_cons {rest rows : List EvidenceRow}
    (h : insertAllVerified (values :: rest) table = .ok (table', rows)) :
    ∃ mid row others, insertVerified values table = .ok (mid, row) ∧
      insertAllVerified rest mid = .ok (table', others) := by
  simp only [insertAllVerified, bind_eq_ok, pure_eq_ok] at h
  obtain ⟨stored, hstored, others, hothers, hresult⟩ := h
  cases hresult
  exact ⟨stored.1, stored.2, others.2, hstored, hothers⟩

theorem forall_insertAllVerified {P : EvidenceRow → Prop} {inserted rows : List EvidenceRow}
    (h : insertAllVerified inserted table = .ok (table', rows))
    (hvalues : ∀ values ∈ inserted, P values) (htable : ∀ old ∈ table.rows, P old) :
    ∀ old ∈ table'.rows, P old := by
  induction inserted generalizing table rows with
  | nil =>
    cases h
    exact htable
  | cons first rest ih =>
    obtain ⟨mid, row, others, hfirst, hrest⟩ := insertAllVerified_cons h
    exact ih hrest (fun values hin => hvalues values (List.mem_cons_of_mem _ hin))
      (forall_insertVerified hfirst (hvalues first List.mem_cons_self) htable)

/-- Every inserted row is found again under its key. -/
theorem stored_of_insertAllVerified {inserted rows : List EvidenceRow}
    (h : insertAllVerified inserted table = .ok (table', rows)) (hin : values ∈ inserted) :
    ∃ stored ∈ table'.rows, stored.semanticKey = values.semanticKey := by
  induction inserted generalizing table rows with
  | nil => cases hin
  | cons first rest ih =>
    obtain ⟨mid, row, others, hfirst, hrest⟩ := insertAllVerified_cons h
    cases List.mem_cons.mp hin with
    | inl heq =>
      obtain ⟨_, hmem, hkey, _⟩ := insertVerified_eq_ok hfirst
      exact ⟨row, mem_of_insertAllVerified hrest hmem, heq ▸ hkey⟩
    | inr hrestIn => exact ih hrest hrestIn

/-- A batch whose first row is refused is refused. -/
theorem insertAllVerified_conflict {rest : List EvidenceRow} {message : String}
    (h : insertVerified values table = .error (.integrity message)) :
    insertAllVerified (values :: rest) table = .error (.integrity message) := by
  simp only [insertAllVerified, h]
  rfl

end Growth

/-- The tables of one store are kept in the other. -/
structure Grows (store store' : SecurityStore) : Prop where
  requests : ∀ row ∈ store.requests.rows, row ∈ store'.requests.rows
  traders : ∀ row ∈ store.traders.rows, row ∈ store'.traders.rows
  edges : ∀ row ∈ store.edges.rows, row ∈ store'.edges.rows
  fundings : ∀ row ∈ store.fundings.rows, row ∈ store'.fundings.rows

theorem Grows.refl (store : SecurityStore) : Grows store store :=
  ⟨fun _ h => h, fun _ h => h, fun _ h => h, fun _ h => h⟩

theorem Grows.trans {a b c : SecurityStore} (h : Grows a b) (h' : Grows b c) : Grows a c where
  requests row hrow := h'.requests row (h.requests row hrow)
  traders row hrow := h'.traders row (h.traders row hrow)
  edges row hrow := h'.edges row (h.edges row hrow)
  fundings row hrow := h'.fundings row (h.fundings row hrow)

/-! ### Stored rows -/

section Stored
variable (ids : EvidenceIdentities) (analysis : SecurityAnalysis) (policy : EnrichmentPolicy)

/-- The row names a stored request. -/
def Refers (store : SecurityStore) (row : EvidenceRow) : Prop :=
  ∃ request ∈ store.requests.rows, row.get? "provider_request_id" = some (.uuid request.id)

/-- What is stored was written by the record functions, under requests that are stored. -/
structure Recorded (store : SecurityStore) : Prop where
  requests : ∀ row ∈ store.requests.rows, ∃ context method requestedAt envelope payload,
    row = requestRow ids context method requestedAt envelope payload
  traders : ∀ row ∈ store.traders.rows,
    row.id = ids.uuid5 ("pump-research:traders:" ++ row.semanticKey) ∧ Refers store row
  edges : ∀ row ∈ store.edges.rows, Refers store row
  fundings : ∀ row ∈ store.fundings.rows, Refers store row
  features : ∀ row ∈ store.features.rows, ∃ context receivedAt mode values sha256,
    row = featureRow ids context receivedAt mode values sha256

/-- One committed transaction of any execution, of any task. The families without tables here
commit their requests and their feature snapshots. -/
inductive Commit : SecurityStore → SecurityStore → Prop
  | request {context : SecurityTaskContext} {method : String} {requestedAt : Int}
      {envelope : EvidenceEnvelope} {payload : String} {store : SecurityStore}
      {done : SecurityStore × EvidenceRow}
      (h : recordProviderRequest ids context method requestedAt envelope payload store = .ok done) :
      Commit store done.1
  | traders {context : SecurityTaskContext} {request : EvidenceRow} {collection : TraderCollection}
      {store : SecurityStore} {done : SecurityStore × TaskResult}
      (hrequest : request ∈ store.requests.rows)
      (h : traderEvidence ids analysis policy context request collection store = .ok done) :
      Commit store done.1
  | walletEdges {context : SecurityTaskContext} {now : Int} {page : WalletEdgeEvidencePage}
      {store : SecurityStore} {done : SecurityStore × TaskResult}
      (h : walletEdges ids analysis policy context now page store = .ok done) :
      Commit store done.1
  | funding {context : SecurityTaskContext} {now : Int} {page : FundingEvidencePage}
      {store : SecurityStore} {done : SecurityStore × TaskResult}
      (h : funding ids analysis policy context now page store = .ok done) :
      Commit store done.1
  | features {context : SecurityTaskContext} {receivedAt : Int}
      {store : SecurityStore} {done : SecurityStore × EvidenceRow}
      (h : refreshFeatures ids analysis policy context receivedAt store = .ok done) :
      Commit store done.1

variable {ids analysis policy} {context : SecurityTaskContext} {store : SecurityStore}

theorem Refers.mono {store' : SecurityStore} {row : EvidenceRow} (hgrows : Grows store store')
    (h : Refers store row) : Refers store' row := by
  obtain ⟨request, hrequest, hrow⟩ := h
  exact ⟨request, hgrows.requests request hrequest, hrow⟩

theorem recorded_emptyStore : Recorded ids emptyStore where
  requests _ h := by cases h
  traders _ h := by cases h
  edges _ h := by cases h
  fundings _ h := by cases h
  features _ h := by cases h

theorem recordProviderRequest_eq_ok {method : String} {requestedAt : Int}
    {envelope : EvidenceEnvelope} {payload : String} {done : SecurityStore × EvidenceRow}
    (h : recordProviderRequest ids context method requestedAt envelope payload store = .ok done) :
    ∃ requests, insertVerified (requestRow ids context method requestedAt envelope payload)
        store.requests = .ok (requests, done.2) ∧ done.1 = { store with requests } := by
  simp only [recordProviderRequest, bind_eq_ok, pure_eq_ok] at h
  obtain ⟨stored, hstored, hdone⟩ := h
  cases hdone
  exact ⟨stored.1, hstored, rfl⟩

theorem refreshFeatures_eq_ok {receivedAt : Int} {done : SecurityStore × EvidenceRow}
    (h : refreshFeatures ids analysis policy context receivedAt store = .ok done) :
    ∃ features, insertVerified (featureRow ids context receivedAt .historicallyAvailable
        (analysis.features store context receivedAt) policy.sha256) store.features =
          .ok (features, done.2) ∧ done.1 = { store with features } := by
  simp only [refreshFeatures, bind_eq_ok, pure_eq_ok] at h
  obtain ⟨stored, hstored, hdone⟩ := h
  cases hdone
  exact ⟨stored.1, hstored, rfl⟩

theorem recorded_request {method : String} {requestedAt : Int} {envelope : EvidenceEnvelope}
    {payload : String} {done : SecurityStore × EvidenceRow} (hrecorded : Recorded ids store)
    (h : recordProviderRequest ids context method requestedAt envelope payload store = .ok done) :
    Recorded ids done.1 ∧ Grows store done.1 ∧ done.2 ∈ done.1.requests.rows := by
  obtain ⟨requests, hinsert, hdone⟩ := recordProviderRequest_eq_ok h
  have hgrows : Grows store done.1 := by
    rw [hdone]
    exact ⟨fun row hrow => mem_of_insertVerified hinsert hrow, fun _ hrow => hrow,
      fun _ hrow => hrow, fun _ hrow => hrow⟩
  refine ⟨?_, hgrows, ?_⟩
  · rw [hdone] at hgrows ⊢
    exact {
      requests := forall_insertVerified hinsert
        ⟨context, method, requestedAt, envelope, payload, rfl⟩ hrecorded.requests
      traders := fun row hrow =>
        ⟨(hrecorded.traders row hrow).1, (hrecorded.traders row hrow).2.mono hgrows⟩
      edges := fun row hrow => (hrecorded.edges row hrow).mono hgrows
      fundings := fun row hrow => (hrecorded.fundings row hrow).mono hgrows
      features := hrecorded.features }
  · rw [hdone]
    exact (insertVerified_eq_ok hinsert).2.1

theorem recorded_features {receivedAt : Int} {done : SecurityStore × EvidenceRow}
    (hrecorded : Recorded ids store)
    (h : refreshFeatures ids analysis policy context receivedAt store = .ok done) :
    Recorded ids done.1 ∧ Grows store done.1 := by
  obtain ⟨features, hinsert, hdone⟩ := refreshFeatures_eq_ok h
  rw [hdone]
  exact ⟨{ hrecorded with
      features := forall_insertVerified hinsert
        ⟨context, receivedAt, .historicallyAvailable, _, policy.sha256, rfl⟩ hrecorded.features },
    ⟨fun _ hrow => hrow, fun _ hrow => hrow, fun _ hrow => hrow, fun _ hrow => hrow⟩⟩

theorem traderEvidence_eq_ok {request : EvidenceRow} {collection : TraderCollection}
    {done : SecurityStore × TaskResult}
    (h : traderEvidence ids analysis policy context request collection store = .ok done) :
    ∃ traders feature,
      (if Recordable collection.envelope then ∃ row, insertVerified
          (traderValues ids analysis policy context request collection) store.traders =
            .ok (traders, row)
        else traders = store.traders) ∧
      refreshFeatures ids analysis policy context collection.envelope.receivedAt
        { store with traders } = .ok feature ∧ done.1 = feature.1 := by
  unfold traderEvidence at h
  by_cases hrecordable : Recordable collection.envelope
  · simp only [if_pos hrecordable, bind_eq_ok, pure_eq_ok] at h
    obtain ⟨stored, hstored, recorded, heq, feature, hfeature, hdone⟩ := h
    cases heq
    refine ⟨stored.1, feature, ?_, hfeature, congrArg (·.1) hdone.symm⟩
    rw [if_pos hrecordable]
    exact ⟨stored.2, hstored⟩
  · simp only [if_neg hrecordable, bind_eq_ok, pure_eq_ok] at h
    obtain ⟨recorded, heq, feature, hfeature, hdone⟩ := h
    cases heq
    refine ⟨store.traders, feature, ?_, hfeature, congrArg (·.1) hdone.symm⟩
    rw [if_neg hrecordable]

theorem walletEdges_eq_ok {now : Int} {answer : WalletEdgeEvidencePage}
    {done : SecurityStore × TaskResult}
    (h : walletEdges ids analysis policy context now answer store = .ok done) :
    ∃ recorded edges rows clusters feature,
      recordProviderRequest ids context "WALLET_CLUSTER_ANALYSIS" now
        (boundedEdges policy answer).envelope
        ("wallet_limit=" ++ toString policy.maxWalletsPerCandidate) store = .ok recorded ∧
      insertAllVerified ((boundedEdges policy answer).edges.map
        (edgeRow ids context recorded.2 (boundedEdges policy answer).envelope))
        recorded.1.edges = .ok (edges, rows) ∧
      refreshFeatures ids analysis policy context (boundedEdges policy answer).envelope.receivedAt
        { recorded.1 with edges, clusters } = .ok feature ∧ done.1 = feature.1 := by
  simp only [walletEdges, bind_eq_ok, pure_eq_ok] at h
  obtain ⟨recorded, hrecorded, edges, hedges, clusters, _, feature, hfeature, hdone⟩ := h
  exact ⟨recorded, edges.1, edges.2, clusters.1, feature, hrecorded, hedges, hfeature,
    congrArg (·.1) hdone.symm⟩

theorem funding_eq_ok {now : Int} {page : FundingEvidencePage}
    {done : SecurityStore × TaskResult}
    (h : funding ids analysis policy context now page store = .ok done) :
    ∃ recorded fundings rows feature,
      recordProviderRequest ids context "FUNDING_GRAPH_ANALYSIS" now page.envelope
        ("maximum_hops=" ++ toString policy.maxFundingHops) store = .ok recorded ∧
      insertAllVerified ((boundedFunding policy page.relationships).map
        (fundingRow ids context recorded.2 page.envelope))
        recorded.1.fundings = .ok (fundings, rows) ∧
      refreshFeatures ids analysis policy context page.envelope.receivedAt
        { recorded.1 with fundings } = .ok feature ∧ done.1 = feature.1 := by
  simp only [funding, bind_eq_ok, pure_eq_ok] at h
  obtain ⟨recorded, hrecorded, fundings, hfundings, feature, hfeature, hdone⟩ := h
  exact ⟨recorded, fundings.1, fundings.2, feature, hrecorded, hfundings, hfeature,
    congrArg (·.1) hdone.symm⟩

theorem recorded_traders {request : EvidenceRow} {collection : TraderCollection}
    {done : SecurityStore × TaskResult} (hrecorded : Recorded ids store)
    (hrequest : request ∈ store.requests.rows)
    (h : traderEvidence ids analysis policy context request collection store = .ok done) :
    Recorded ids done.1 ∧ Grows store done.1 := by
  obtain ⟨traders, feature, htraders, hfeature, hdone⟩ := traderEvidence_eq_ok h
  have hmid : Recorded ids { store with traders } ∧ Grows store { store with traders } := by
    by_cases hrecordable : Recordable collection.envelope
    · rw [if_pos hrecordable] at htraders
      obtain ⟨row, hinsert⟩ := htraders
      have hvalues : Refers store (traderValues ids analysis policy context request collection) :=
        ⟨request, hrequest, rfl⟩
      exact ⟨{ hrecorded with
          traders := forall_insertVerified hinsert ⟨rfl, hvalues⟩ hrecorded.traders },
        { Grows.refl store with traders := fun row hrow => mem_of_insertVerified hinsert hrow }⟩
    · rw [if_neg hrecordable] at htraders
      rw [htraders]
      exact ⟨hrecorded, Grows.refl store⟩
  have hafter := recorded_features hmid.1 hfeature
  rw [hdone]
  exact ⟨hafter.1, hmid.2.trans hafter.2⟩

theorem recorded_walletEdges {now : Int} {answer : WalletEdgeEvidencePage}
    {done : SecurityStore × TaskResult} (hrecorded : Recorded ids store)
    (h : walletEdges ids analysis policy context now answer store = .ok done) :
    Recorded ids done.1 ∧ Grows store done.1 := by
  obtain ⟨recorded, edges, rows, clusters, feature, hrequest, hedges, hfeature, hdone⟩ :=
    walletEdges_eq_ok h
  obtain ⟨hafter, hgrows, hmem⟩ := recorded_request hrecorded hrequest
  have hvalues : ∀ values ∈ (boundedEdges policy answer).edges.map
      (edgeRow ids context recorded.2 (boundedEdges policy answer).envelope),
      Refers recorded.1 values := by
    intro values hin
    obtain ⟨edge, _, heq⟩ := List.mem_map.mp hin
    exact heq ▸ ⟨recorded.2, hmem, rfl⟩
  have hmid : Recorded ids { recorded.1 with edges, clusters } :=
    { hafter with edges := forall_insertAllVerified hedges hvalues hafter.edges }
  have hmidGrows : Grows recorded.1 { recorded.1 with edges, clusters } :=
    { Grows.refl recorded.1 with edges := fun row hrow => mem_of_insertAllVerified hedges hrow }
  have hlast := recorded_features hmid hfeature
  rw [hdone]
  exact ⟨hlast.1, hgrows.trans (hmidGrows.trans hlast.2)⟩

theorem recorded_funding {now : Int} {page : FundingEvidencePage}
    {done : SecurityStore × TaskResult} (hrecorded : Recorded ids store)
    (h : funding ids analysis policy context now page store = .ok done) :
    Recorded ids done.1 ∧ Grows store done.1 := by
  obtain ⟨recorded, fundings, rows, feature, hrequest, hfundings, hfeature, hdone⟩ :=
    funding_eq_ok h
  obtain ⟨hafter, hgrows, hmem⟩ := recorded_request hrecorded hrequest
  have hvalues : ∀ values ∈ (boundedFunding policy page.relationships).map
      (fundingRow ids context recorded.2 page.envelope), Refers recorded.1 values := by
    intro values hin
    obtain ⟨item, _, heq⟩ := List.mem_map.mp hin
    exact heq ▸ ⟨recorded.2, hmem, rfl⟩
  have hmid : Recorded ids { recorded.1 with fundings } :=
    { hafter with fundings := forall_insertAllVerified hfundings hvalues hafter.fundings }
  have hmidGrows : Grows recorded.1 { recorded.1 with fundings } :=
    { Grows.refl recorded.1 with
      fundings := fun row hrow => mem_of_insertAllVerified hfundings hrow }
  have hlast := recorded_features hmid hfeature
  rw [hdone]
  exact ⟨hlast.1, hgrows.trans (hmidGrows.trans hlast.2)⟩

theorem recorded_commit {store' : SecurityStore} (hrecorded : Recorded ids store)
    (h : Commit ids analysis policy store store') : Recorded ids store' ∧ Grows store store' := by
  cases h with
  | request h =>
    obtain ⟨hafter, hgrows, _⟩ := recorded_request hrecorded h
    exact ⟨hafter, hgrows⟩
  | traders hrequest h => exact recorded_traders hrecorded hrequest h
  | walletEdges h => exact recorded_walletEdges hrecorded h
  | funding h => exact recorded_funding hrecorded h
  | features h => exact recorded_features hrecorded h

theorem recorded_commits {store' : SecurityStore} (hrecorded : Recorded ids store)
    (h : ReflTransGen (Commit ids analysis policy) store store') :
    Recorded ids store' ∧ Grows store store' := by
  induction h with
  | refl => exact ⟨hrecorded, Grows.refl store⟩
  | tail _ hstep ih =>
    have hafter := recorded_commit ih.1 hstep
    exact ⟨hafter.1, ih.2.trans hafter.2⟩

end Stored

/-! ### Executions as transactions -/

section Executions
variable (ids : EvidenceIdentities) (analysis : SecurityAnalysis) (policy : EnrichmentPolicy)
  (context : SecurityTaskContext) (now : Int)

/-- The page requests are transactions of their own, and the one that is kept is stored. -/
theorem commits_recordPages (pages : List SentPage) (store : SecurityStore)
    (last : Option EvidenceRow) (hlast : ∀ request ∈ last, request ∈ store.requests.rows) :
    ReflTransGen (Commit ids analysis policy) store
        (recordPages ids context now pages store last).1 ∧
      ∀ request, (recordPages ids context now pages store last).2 = .ok (some request) →
        request ∈ (recordPages ids context now pages store last).1.requests.rows := by
  induction pages generalizing store last with
  | nil =>
    refine ⟨.refl, fun request h => hlast request ?_⟩
    cases h
    rfl
  | cons page rest ih =>
    unfold recordPages
    cases hrecord : recordProviderRequest ids context "TRADER_DISTRIBUTION" now page.envelope
        (tokenPayload context page.cursor) store with
    | error error => exact ⟨.refl, fun request h => by cases h⟩
    | ok recorded =>
      have hkept : ∀ request ∈ some recorded.2, request ∈ recorded.1.requests.rows := by
        intro request hrequest
        obtain ⟨requests, hinsert, hstore⟩ := recordProviderRequest_eq_ok hrecord
        cases hrequest
        rw [hstore]
        exact (insertVerified_eq_ok hinsert).2.1
      obtain ⟨hrun, hmem⟩ := ih recorded.1 (some recorded.2) hkept
      exact ⟨.head (.request hrecord) hrun, hmem⟩

/-- An execution either stops with what its page requests committed, or commits the evidence of
its collection under the last request. -/
theorem traders_cases (replies : List (Option TraderReply)) (store : SecurityStore) :
    (∃ error, traders ids analysis policy context now replies store =
      ((recordPages ids context now (collectTraders policy replies [] [] none).1 store none).1,
        .error error)) ∨
    ∃ collection request done, (collectTraders policy replies [] [] none).2 = .ok collection ∧
      (recordPages ids context now (collectTraders policy replies [] [] none).1 store none).2 =
        .ok (some request) ∧
      traderEvidence ids analysis policy context request collection
        (recordPages ids context now (collectTraders policy replies [] [] none).1 store none).1 =
          .ok done ∧
      traders ids analysis policy context now replies store = (done.1, .ok done.2) := by
  cases hpages : recordPages ids context now (collectTraders policy replies [] [] none).1 store
      none with
  | mk mid result =>
    cases result with
    | error error => exact .inl ⟨error, by simp only [traders, hpages]⟩
    | ok last =>
      cases hcollected : (collectTraders policy replies [] [] none).2 with
      | error error => exact .inl ⟨error, by simp only [traders, hpages, hcollected]⟩
      | ok collection =>
        cases last with
        | none => exact .inl ⟨.provider "no page was requested", by simp only [traders, hpages, hcollected]⟩
        | some request =>
          cases hevidence : traderEvidence ids analysis policy context request collection mid with
          | error error =>
            exact .inl ⟨error, by simp only [traders, hpages, hcollected, hevidence]⟩
          | ok done =>
            exact .inr ⟨collection, request, done, rfl, rfl, hevidence,
              by simp only [traders, hpages, hcollected, hevidence]⟩

theorem commits_traders (replies : List (Option TraderReply)) (store : SecurityStore) :
    ReflTransGen (Commit ids analysis policy) store
      (traders ids analysis policy context now replies store).1 := by
  obtain ⟨hrun, hmem⟩ := commits_recordPages ids analysis policy context now
    (collectTraders policy replies [] [] none).1 store none (fun _ h => by cases h)
  cases traders_cases ids analysis policy context now replies store with
  | inl hstopped =>
    obtain ⟨error, herror⟩ := hstopped
    rw [herror]
    exact hrun
  | inr hcommitted =>
    obtain ⟨collection, request, done, _, hlast, hevidence, hdone⟩ := hcommitted
    rw [hdone]
    exact hrun.tail (.traders (hmem request hlast) hevidence)

theorem commits_dispatch (answer : ProviderAnswer) (store : SecurityStore) :
    ReflTransGen (Commit ids analysis policy) store
      (dispatch ids analysis policy context now answer store).1 := by
  cases answer with
  | traders replies => exact commits_traders ids analysis policy context now replies store
  | walletEdges page =>
    simp only [dispatch, committed]
    split
    · next done hdone => exact .single (.walletEdges hdone)
    · exact .refl
  | funding page =>
    simp only [dispatch, committed]
    split
    · next done hdone => exact .single (.funding hdone)
    · exact .refl

/-- Whatever an execution commits, completed or not, is a sequence of such transactions. -/
theorem commits_processClaim (provider : String) (failedAt : Int) (admitted : Bool)
    (answer : ProviderAnswer) (store : SecurityStore) :
    ReflTransGen (Commit ids analysis policy) store
      (processClaim ids analysis policy context provider now failedAt admitted answer store).1 := by
  have hrun := commits_dispatch ids analysis policy context now answer store
  unfold processClaim
  cases admitted with
  | false => exact .refl
  | true =>
    rw [if_pos rfl]
    generalize dispatch ids analysis policy context now answer store = dispatched at hrun
    obtain ⟨mid, result⟩ := dispatched
    cases result with
    | ok result => exact hrun
    | error error =>
      cases error with
      | integrity message => exact hrun
      | provider message =>
        simp only
        split
        · exact hrun
        · next recorded hrecord => exact hrun.tail (.request hrecord)

end Executions

end PumpResearch.SecurityEnrichment
