import PumpResearch.Library.CountableTexts
import PumpResearch.SecurityEnrichment.Records

/-! A second execution of a task whose evidence is already committed. Its request is a new row,
so evidence whose identity leaves the request out cannot be stored again. -/
namespace PumpResearch.SecurityEnrichment
open Candidates CountableTexts KeyedOrder KeyedTable Results Relation

/-! ### Requests under new identities -/

/-- Digests of different documents and UUIDs of different names differ. -/
structure CollisionFree (ids : EvidenceIdentities) : Prop where
  digest : Function.Injective ids.digest
  uuid5 : Function.Injective ids.uuid5

/-- Neither identity of the row is taken. -/
def Unused (table : EvidenceTable) (values : EvidenceRow) : Prop :=
  ∀ row ∈ table.rows, row.id ≠ values.id ∧ row.semanticKey ≠ values.semanticKey

theorem insertVerified_of_unused {table : EvidenceTable} {values : EvidenceRow}
    (hnames : values.WellNamed) (h : Unused table values) :
    ∃ table', insertVerified values table = .ok (table', values) ∧
      table'.rows = table.rows ++ [values] :=
  insertVerified_of_free hnames (fun row hrow => (h row hrow).1) (fun row hrow => (h row hrow).2)

section Fresh
variable {ids : EvidenceIdentities} {context : SecurityTaskContext} {store : SecurityStore}
  {method payload : String} {requestedAt receivedAt : Int} {envelope : EvidenceEnvelope}

theorem requestRow_wellNamed :
    (requestRow ids context method requestedAt envelope payload).WellNamed := by
  simp [EvidenceRow.WellNamed, EvidenceRow.fields, requestRow]

theorem featureRow_wellNamed {mode : AcquisitionMode} {values : SecurityFeatureValues}
    {sha256 : String} : (featureRow ids context receivedAt mode values sha256).WellNamed := by
  simp [EvidenceRow.WellNamed, EvidenceRow.fields, featureRow]

/-- Two names under one prefix have the same UUID when they are the same. -/
theorem append_of_uuid5_eq (hids : CollisionFree ids) {start a b : String}
    (h : ids.uuid5 (start ++ a) = ids.uuid5 (start ++ b)) : a = b :=
  (String.append_right_inj start).mp (hids.uuid5 h)

/-- A request answered later than every stored request of its task is a new row. -/
theorem request_unused (method payload : String) (requestedAt : Int) (hids : CollisionFree ids)
    (hrecorded : Recorded ids store)
    (hlater : ∀ row ∈ store.requests.rows,
      row.get? "candidate_task_id" = some (.uuid context.claim.id) →
        ∀ earlier, row.get? "received_at" = some (.instant earlier) →
          earlier < envelope.receivedAt) :
    Unused store.requests (requestRow ids context method requestedAt envelope payload) := by
  intro row hrow
  obtain ⟨context', method', requestedAt', envelope', payload', hwritten⟩ :=
    hrecorded.requests row hrow
  have hkey : row.semanticKey ≠
      (requestRow ids context method requestedAt envelope payload).semanticKey := by
    intro h
    rw [hwritten] at h
    have hdocument : requestDocument ids context' method' envelope' =
        requestDocument ids context method envelope := hids.digest h
    have htask : context'.claim.id = context.claim.id := by
      injection hdocument
    have hreceived : envelope'.receivedAt = envelope.receivedAt := by
      injection hdocument
    have hbefore := hlater row hrow (by rw [hwritten, ← htask]; rfl) envelope'.receivedAt
      (by rw [hwritten]; rfl)
    omega
  refine ⟨fun h => hkey ?_, hkey⟩
  rw [hwritten] at h ⊢
  exact append_of_uuid5_eq hids h

theorem recordProviderRequest_of_unused
    (h : Unused store.requests (requestRow ids context method requestedAt envelope payload)) :
    ∃ requests, recordProviderRequest ids context method requestedAt envelope payload store =
        .ok ({ store with requests },
          requestRow ids context method requestedAt envelope payload) ∧
      requests.rows =
        store.requests.rows ++ [requestRow ids context method requestedAt envelope payload] := by
  obtain ⟨requests, hinsert, hrows⟩ := insertVerified_of_unused requestRow_wellNamed h
  refine ⟨requests, ?_, hrows⟩
  simp only [recordProviderRequest, hinsert]
  rfl

/-- A feature snapshot is new when none of its candidate is stored for its receipt time. -/
theorem refreshFeatures_of_unused (analysis : SecurityAnalysis) (policy : EnrichmentPolicy)
    (store : SecurityStore) (hids : CollisionFree ids)
    (hwritten : ∀ row ∈ store.features.rows, ∃ context receivedAt mode values sha256,
      row = featureRow ids context receivedAt mode values sha256)
    (hlater : ∀ row ∈ store.features.rows,
      row.get? "candidate_id" = some (.uuid context.candidateId) →
        row.get? "received_at" ≠ some (.instant receivedAt)) :
    ∃ features row, refreshFeatures ids analysis policy context receivedAt store =
      .ok ({ store with features }, row) := by
  have hunused : Unused store.features (featureRow ids context receivedAt .historicallyAvailable
      (analysis.features store context receivedAt) policy.sha256) := by
    intro row hrow
    obtain ⟨context', receivedAt', mode, values, sha256, hwritten⟩ := hwritten row hrow
    have hkey : row.semanticKey ≠ (featureRow ids context receivedAt .historicallyAvailable
        (analysis.features store context receivedAt) policy.sha256).semanticKey := by
      intro h
      rw [hwritten] at h
      have hdocument := hids.digest h
      have hcandidate : context'.candidateId = context.candidateId := by
        injection hdocument
      have hreceived : receivedAt' = receivedAt := by
        injection hdocument
      exact hlater row hrow (by rw [hwritten, ← hcandidate]; rfl)
        (by rw [hwritten, ← hreceived]; rfl)
    refine ⟨fun h => hkey ?_, hkey⟩
    rw [hwritten] at h ⊢
    exact append_of_uuid5_eq hids h
  obtain ⟨features, hinsert, _⟩ := insertVerified_of_unused featureRow_wellNamed hunused
  refine ⟨features, featureRow ids context receivedAt .historicallyAvailable
    (analysis.features store context receivedAt) policy.sha256, ?_⟩
  simp only [refreshFeatures, hinsert]
  rfl

end Fresh

/-! ### The same facts again -/

def TradeFact.facts (item : TradeFact) :
    String × Option Int × Option Int × Option String × TradeSide × Option ℚ × Int :=
  (item.signature, item.sourceSlot, item.sourceEventAt, item.wallet, item.side, item.notionalUsd,
    item.sequence)

def WalletEdgeFact.facts (edge : WalletEdgeFact) :
    String × String × WalletRelationshipType × Int × Int × List String :=
  (edge.walletA, edge.walletB, edge.relationshipType, edge.firstObservedAt, edge.strengthCount,
    edge.sourceFactIds)

def FundingFact.facts (item : FundingFact) :
    String × String × Option Int × Option Int × Int × String × EvidenceCompleteness :=
  (item.wallet, item.fundingSource, item.fundingAt, item.amountLamports, item.hopDepth,
    item.sourceSignature, item.completeness)

section Again
variable (ids : EvidenceIdentities) (analysis : SecurityAnalysis) (policy : EnrichmentPolicy)

/-- What the page loop collects from the answers to a task. -/
def collected (replies : List (Option TraderReply)) : Except EvidenceError TraderCollection :=
  (collectTraders policy replies [] [] none).2

/-- Two answers have the same trades, edges or funding facts, received at any times. -/
def SameFacts : ProviderAnswer → ProviderAnswer → Prop
  | .traders replies, .traders replies' => ∃ collection collection',
      collected policy replies = .ok collection ∧ collected policy replies' = .ok collection' ∧
        collection.trades.map (·.facts) = collection'.trades.map (·.facts)
  | .walletEdges page, .walletEdges page' => page.edges.map (·.facts) = page'.edges.map (·.facts)
  | .funding page, .funding page' =>
      page.relationships.map (·.facts) = page'.relationships.map (·.facts)
  | _, _ => False

/-- Two claims of one task. -/
structure SameTask (context context' : SecurityTaskContext) : Prop where
  id : context.claim.id = context'.claim.id
  inputWatermark : context.claim.inputWatermark = context'.claim.inputWatermark
  candidate : context.candidateId = context'.candidateId

/-- The transaction that commits the evidence of an execution. -/
def CommitsEvidence (context : SecurityTaskContext) (now : Int) (answer : ProviderAnswer)
    (store store' : SecurityStore) : Prop :=
  match answer with
  | .traders replies => ∃ collection, collected policy replies = .ok collection ∧
      ∃ request ∈ store.requests.rows, ∃ result,
        traderEvidence ids analysis policy context request collection store = .ok (store', result)
  | .walletEdges page => ∃ result,
      walletEdges ids analysis policy context now page store = .ok (store', result)
  | .funding page => ∃ result,
      funding ids analysis policy context now page store = .ok (store', result)

/-- The envelopes that an execution records requests for. -/
def sentEnvelopes : ProviderAnswer → List EvidenceEnvelope
  | .traders replies => (collectTraders policy replies [] [] none).1.map (·.envelope)
  | .walletEdges page => [page.envelope]
  | .funding page => [page.envelope]

/-- The answers arrive after every answer that is stored for the task, no feature snapshot of
the candidate was generated at their receipt times, and two pages differ in cursor or time. -/
structure Later (context : SecurityTaskContext) (answer : ProviderAnswer)
    (store : SecurityStore) : Prop where
  requests : ∀ envelope ∈ sentEnvelopes policy answer, ∀ row ∈ store.requests.rows,
    row.get? "candidate_task_id" = some (.uuid context.claim.id) →
      ∀ earlier, row.get? "received_at" = some (.instant earlier) → earlier < envelope.receivedAt
  features : ∀ envelope ∈ sentEnvelopes policy answer, ∀ row ∈ store.features.rows,
    row.get? "candidate_id" = some (.uuid context.candidateId) →
      row.get? "received_at" ≠ some (.instant envelope.receivedAt)
  pages : ((sentEnvelopes policy answer).map fun envelope =>
    (envelope.pageCursor, envelope.receivedAt)).Nodup

def traderKey (context : SecurityTaskContext) (trades : List TradeFact) : String :=
  ids.digest (.traders context.claim.id (context.claim.inputWatermark - seconds 3600)
    context.claim.inputWatermark (ids.digest (.sourceFactIds (sortOn id (sourceIds trades)))))

def edgeKey (context : SecurityTaskContext) (edge : WalletEdgeFact) : String :=
  ids.digest (.edge context.candidateId edge.wallets.1 edge.wallets.2
    edge.relationshipType.value (sortOn id edge.sourceFactIds))

def fundingKey (context : SecurityTaskContext) (item : FundingFact) : String :=
  ids.digest (.funding context.candidateId item.wallet item.fundingSource item.sourceSignature
    item.hopDepth)

/-- Nothing is to be stored under an identity without the request: no edge, no relationship,
and no snapshot of trades unless it is the first of its task and trades. -/
def SafeToRetry (context : SecurityTaskContext) (answer : ProviderAnswer)
    (store : SecurityStore) : Prop :=
  match answer with
  | .traders replies => ∀ collection, collected policy replies = .ok collection →
      Recordable collection.envelope →
        ∀ row ∈ store.traders.rows, row.semanticKey ≠ traderKey ids context collection.trades
  | .walletEdges page => (boundedEdges policy page).edges = []
  | .funding page => boundedFunding policy page.relationships = []

end Again

section SameKeys
variable {ids : EvidenceIdentities} {policy : EnrichmentPolicy}

theorem exists_of_map_eq {α β γ : Type} {f : α → γ} {g : β → γ} {as : List α} {bs : List β}
    (h : as.map f = bs.map g) {b : β} (hb : b ∈ bs) : ∃ a ∈ as, f a = g b := by
  have hmem : g b ∈ as.map f := h ▸ List.mem_map_of_mem hb
  obtain ⟨a, ha, heq⟩ := List.mem_map.mp hmem
  exact ⟨a, ha, heq⟩

theorem sourceIds_congr {trades trades' : List TradeFact}
    (h : trades.map (·.facts) = trades'.map (·.facts)) : sourceIds trades = sourceIds trades' := by
  have hsignatures : trades.map (·.signature) = trades'.map (·.signature) := by
    have hfirst := congrArg (List.map (·.1)) h
    simpa [TradeFact.facts, Function.comp_def] using hfirst
  rw [sourceIds, sourceIds, hsignatures]

theorem walletsOf_congr {edges edges' : List WalletEdgeFact}
    (h : edges.map (·.facts) = edges'.map (·.facts)) : walletsOf edges = walletsOf edges' := by
  have hwallets : edges.flatMap (fun edge => [edge.walletA, edge.walletB]) =
      edges'.flatMap fun edge => [edge.walletA, edge.walletB] := by
    have hpairs := congrArg (List.flatMap fun fact => [fact.1, fact.2.1]) h
    simpa [List.flatMap_map, WalletEdgeFact.facts] using hpairs
  rw [walletsOf, walletsOf, hwallets]

/-- The bounds of the policy look at the facts only. -/
theorem boundedEdges_congr {page page' : WalletEdgeEvidencePage}
    (h : page.edges.map (·.facts) = page'.edges.map (·.facts)) :
    (boundedEdges policy page).edges.map (·.facts) =
      (boundedEdges policy page').edges.map (·.facts) := by
  have htake : (page.edges.take policy.maxEdgesPerCandidate).map (·.facts) =
      (page'.edges.take policy.maxEdgesPerCandidate).map (·.facts) := by
    rw [List.map_take, List.map_take, h]
  have hwallets := walletsOf_congr htake
  unfold boundedEdges
  simp only [hwallets]
  split
  · have hfilter := congrArg (List.filter fun fact =>
      decide (fact.1 ∈ (walletsOf (page'.edges.take policy.maxEdgesPerCandidate)).take
        policy.maxWalletsPerCandidate ∧
        fact.2.1 ∈ (walletsOf (page'.edges.take policy.maxEdgesPerCandidate)).take
          policy.maxWalletsPerCandidate)) htake
    rw [List.filter_map, List.filter_map] at hfilter
    exact hfilter
  · exact htake

theorem boundedFunding_congr {items items' : List FundingFact}
    (h : items.map (·.facts) = items'.map (·.facts)) :
    (boundedFunding policy items).map (·.facts) = (boundedFunding policy items').map (·.facts) := by
  have htake : (items.take (policy.maxWalletsPerCandidate * 2)).map (·.facts) =
      (items'.take (policy.maxWalletsPerCandidate * 2)).map (·.facts) := by
    rw [List.map_take, List.map_take, h]
  have hfilter := congrArg (List.filter fun fact =>
    decide (fact.2.2.2.2.1 ≤ policy.maxFundingHops)) htake
  rw [List.filter_map, List.filter_map] at hfilter
  exact hfilter

theorem edgeKey_congr {context context' : SecurityTaskContext} (htask : SameTask context context')
    {edge edge' : WalletEdgeFact} (h : edge.facts = edge'.facts) :
    edgeKey ids context edge = edgeKey ids context' edge' := by
  simp only [WalletEdgeFact.facts, Prod.mk.injEq] at h
  obtain ⟨ha, hb, htype, _, _, hids⟩ := h
  simp only [edgeKey, WalletEdgeFact.wallets, ha, hb, htype, hids, htask.candidate]

theorem fundingKey_congr {context context' : SecurityTaskContext}
    (htask : SameTask context context') {item item' : FundingFact} (h : item.facts = item'.facts) :
    fundingKey ids context item = fundingKey ids context' item' := by
  simp only [FundingFact.facts, Prod.mk.injEq] at h
  obtain ⟨hwallet, hsource, _, _, hhop, hsignature, _⟩ := h
  simp only [fundingKey, hwallet, hsource, hhop, hsignature, htask.candidate]

theorem traderKey_congr {context context' : SecurityTaskContext}
    (htask : SameTask context context') {trades trades' : List TradeFact}
    (h : trades.map (·.facts) = trades'.map (·.facts)) :
    traderKey ids context trades = traderKey ids context' trades' := by
  simp only [traderKey, sourceIds_congr h, htask.id, htask.inputWatermark]

end SameKeys

/-! ### What an execution leaves -/

section Leaves
variable {ids : EvidenceIdentities} {analysis : SecurityAnalysis} {policy : EnrichmentPolicy}
  {context : SecurityTaskContext} {store : SecurityStore}

theorem edges_stored {now : Int} {answer : WalletEdgeEvidencePage}
    {done : SecurityStore × TaskResult}
    (h : walletEdges ids analysis policy context now answer store = .ok done)
    {edge : WalletEdgeFact} (hedge : edge ∈ (boundedEdges policy answer).edges) :
    ∃ row ∈ done.1.edges.rows, row.semanticKey = edgeKey ids context edge := by
  obtain ⟨recorded, edges, rows, clusters, feature, _, hedges, hfeature, hdone⟩ :=
    walletEdges_eq_ok h
  obtain ⟨features, _, hstore⟩ := refreshFeatures_eq_ok hfeature
  obtain ⟨row, hrow, hkey⟩ := stored_of_insertAllVerified hedges (List.mem_map_of_mem hedge)
  rw [hdone, hstore]
  exact ⟨row, hrow, hkey⟩

theorem fundings_stored {now : Int} {page : FundingEvidencePage}
    {done : SecurityStore × TaskResult}
    (h : funding ids analysis policy context now page store = .ok done)
    {item : FundingFact} (hitem : item ∈ boundedFunding policy page.relationships) :
    ∃ row ∈ done.1.fundings.rows, row.semanticKey = fundingKey ids context item := by
  obtain ⟨recorded, fundings, rows, feature, _, hfundings, hfeature, hdone⟩ := funding_eq_ok h
  obtain ⟨features, _, hstore⟩ := refreshFeatures_eq_ok hfeature
  obtain ⟨row, hrow, hkey⟩ := stored_of_insertAllVerified hfundings (List.mem_map_of_mem hitem)
  rw [hdone, hstore]
  exact ⟨row, hrow, hkey⟩

theorem traders_stored {request : EvidenceRow} {collection : TraderCollection}
    {done : SecurityStore × TaskResult}
    (h : traderEvidence ids analysis policy context request collection store = .ok done)
    (hrecordable : Recordable collection.envelope) :
    ∃ row ∈ done.1.traders.rows, row.semanticKey = traderKey ids context collection.trades := by
  obtain ⟨traders, feature, htraders, hfeature, hdone⟩ := traderEvidence_eq_ok h
  obtain ⟨features, _, hstore⟩ := refreshFeatures_eq_ok hfeature
  rw [if_pos hrecordable] at htraders
  obtain ⟨row, hinsert⟩ := htraders
  obtain ⟨_, hrow, hkey, _⟩ := insertVerified_eq_ok hinsert
  rw [hdone, hstore]
  exact ⟨row, hrow, hkey⟩

/-- The last page that was asked for gives the receipt time of the collection. -/
theorem sent_of_collectTraders {replies : List (Option TraderReply)} {trades : List TradeFact}
    {sent : List SentPage} {cursor : Option String} {collection : TraderCollection}
    (h : (collectTraders policy replies trades sent cursor).2 = .ok collection) :
    ∃ page ∈ (collectTraders policy replies trades sent cursor).1,
      page.envelope.receivedAt = collection.envelope.receivedAt := by
  induction replies generalizing trades sent cursor with
  | nil => cases h
  | cons reply rest ih =>
    cases reply with
    | none => cases h
    | some reply =>
      unfold collectTraders at h ⊢
      cases hmerged : mergeTrades trades reply.page.trades with
      | error error =>
        simp only [hmerged] at h
        cases h
      | ok merged =>
        simp only [hmerged] at h ⊢
        cases hnext : reply.page.envelope.nextCursor with
        | none =>
          simp only [hnext] at h ⊢
          cases h
          exact ⟨⟨cursor, reply.page.envelope⟩, by simp, rfl⟩
        | some next =>
          simp only [hnext] at h ⊢
          split at h
          · next hroom =>
            rw [if_pos hroom]
            split at h
            · next hreserved =>
              rw [if_pos hreserved]
              exact ih h
            · next hreserved =>
              rw [if_neg hreserved]
              cases h
              exact ⟨⟨cursor, reply.page.envelope⟩, by simp, rfl⟩
          · next hroom =>
            rw [if_neg hroom]
            cases h
            exact ⟨⟨cursor, reply.page.envelope⟩, by simp, rfl⟩

theorem boundedEdges_envelope (policy : EnrichmentPolicy) (page : WalletEdgeEvidencePage) :
    (boundedEdges policy page).envelope.receivedAt = page.envelope.receivedAt := by
  unfold boundedEdges
  simp only
  split
  · rfl
  · rfl

end Leaves

/-! ### The second execution -/

section Second
variable {ids : EvidenceIdentities} {analysis : SecurityAnalysis} {policy : EnrichmentPolicy}
  {context : SecurityTaskContext} {store : SecurityStore} {now : Int}

/-- The row of the request for a page of trades. -/
def pageRow (ids : EvidenceIdentities) (context : SecurityTaskContext) (now : Int)
    (page : SentPage) : EvidenceRow :=
  requestRow ids context "TRADER_DISTRIBUTION" now page.envelope (tokenPayload context page.cursor)

theorem pageRow_key_ne (hids : CollisionFree ids) {a b : SentPage}
    (h : (a.envelope.pageCursor, a.envelope.receivedAt) ≠
      (b.envelope.pageCursor, b.envelope.receivedAt)) :
    (pageRow ids context now a).semanticKey ≠ (pageRow ids context now b).semanticKey := by
  intro heq
  have hdocument : requestDocument ids context "TRADER_DISTRIBUTION" a.envelope =
      requestDocument ids context "TRADER_DISTRIBUTION" b.envelope := hids.digest heq
  have hcursor : a.envelope.pageCursor = b.envelope.pageCursor := by
    injection hdocument
  have hreceived : a.envelope.receivedAt = b.envelope.receivedAt := by
    injection hdocument
  exact h (by rw [hcursor, hreceived])

/-- Pages under new identities are recorded, and the last one is the request that is kept. -/
theorem recordPages_of_unused (hids : CollisionFree ids) (now : Int) {pages : List SentPage}
    (store : SecurityStore) (last : Option EvidenceRow)
    (hunused : ∀ page ∈ pages, Unused store.requests (pageRow ids context now page))
    (hdistinct : pages.Pairwise fun a b =>
      (a.envelope.pageCursor, a.envelope.receivedAt) ≠
        (b.envelope.pageCursor, b.envelope.receivedAt)) :
    ∃ requests last', recordPages ids context now pages store last =
        ({ store with requests }, .ok last') ∧
      (pages = [] ∧ last' = last ∨ ∃ page ∈ pages, last' = some (pageRow ids context now page)) := by
  induction pages generalizing store last with
  | nil => exact ⟨store.requests, last, rfl, .inl ⟨rfl, rfl⟩⟩
  | cons first rest ih =>
    obtain ⟨hfirst, hrest⟩ := List.pairwise_cons.mp hdistinct
    obtain ⟨requests, hrecord, hrows⟩ :=
      recordProviderRequest_of_unused (hunused first List.mem_cons_self)
    have hunused' : ∀ page ∈ rest, Unused requests (pageRow ids context now page) := by
      intro page hpage row hrow
      rw [hrows] at hrow
      cases List.mem_append.mp hrow with
      | inl hold => exact hunused page (List.mem_cons_of_mem _ hpage) row hold
      | inr hnew =>
        rw [List.mem_singleton.mp hnew]
        have hkey : (pageRow ids context now first).semanticKey ≠
            (pageRow ids context now page).semanticKey := pageRow_key_ne hids (hfirst page hpage)
        exact ⟨fun h => hkey (append_of_uuid5_eq hids h), hkey⟩
    obtain ⟨requests', last', hrun, hlast⟩ :=
      ih { store with requests } (some (pageRow ids context now first)) hunused' hrest
    refine ⟨requests', last', ?_, .inr ?_⟩
    · simp only [recordPages, hrecord]
      exact hrun
    · cases hlast with
      | inl hnil => exact ⟨first, List.mem_cons_self, hnil.2⟩
      | inr hpage =>
        obtain ⟨page, hpage, heq⟩ := hpage
        exact ⟨page, List.mem_cons_of_mem _ hpage, heq⟩

/-- A row that refers to a stored request keeps another one under its key out. -/
theorem insertVerified_of_taken {table : EvidenceTable} {stored request : EvidenceRow}
    (values : EvidenceRow)
    (hstored : stored ∈ table.rows) (hkey : stored.semanticKey = values.semanticKey)
    (hrefers : Refers store stored) (hnew : ∀ row ∈ store.requests.rows, row.id ≠ request.id)
    (hfield : ("provider_request_id", Column.uuid request.id) ∈ values.fields) :
    ∃ message, insertVerified values table = .error (.integrity message) := by
  obtain ⟨earlier, hearlier, hcolumn⟩ := hrefers
  refine insertVerified_conflict hstored hkey hfield ?_
  intro h
  rw [hcolumn] at h
  injection h with h
  injection h with h
  exact hnew earlier hearlier h

theorem traderValues_wellNamed {request : EvidenceRow} {collection : TraderCollection} :
    (traderValues ids analysis policy context request collection).WellNamed := by
  simp [EvidenceRow.WellNamed, EvidenceRow.fields, traderValues, traderRow,
    analysis.metrics_named, traderMetricNames]

/-- An execution whose pages are new requests reaches its last transaction. -/
theorem traders_reach (analysis : SecurityAnalysis) (now : Int) (hids : CollisionFree ids) (hrecorded : Recorded ids store)
    {replies : List (Option TraderReply)} {collection : TraderCollection}
    (hcollected : collected policy replies = .ok collection)
    (hlater : Later policy context (.traders replies) store) :
    ∃ requests request, (∀ row ∈ store.requests.rows, row.id ≠ request.id) ∧
      (∀ error, traderEvidence ids analysis policy context request collection
          { store with requests } = .error error →
        traders ids analysis policy context now replies store =
          ({ store with requests }, .error error)) ∧
      ∀ result, traderEvidence ids analysis policy context request collection
          { store with requests } = .ok result →
        traders ids analysis policy context now replies store = (result.1, .ok result.2) := by
  have hunused : ∀ page ∈ (collectTraders policy replies [] [] none).1,
      Unused store.requests (pageRow ids context now page) := fun page hpage =>
    request_unused _ _ _ hids hrecorded (hlater.requests page.envelope (List.mem_map_of_mem hpage))
  have hdistinct := hlater.pages
  rw [sentEnvelopes, List.map_map, List.Nodup, List.pairwise_map] at hdistinct
  obtain ⟨requests, last, hrun, hlast⟩ :=
    recordPages_of_unused hids now store none hunused hdistinct
  obtain ⟨page, hpage, _⟩ := sent_of_collectTraders hcollected
  cases hlast with
  | inl hnil =>
    rw [hnil.1] at hpage
    cases hpage
  | inr hkept =>
    obtain ⟨page, hpage, rfl⟩ := hkept
    have hcollected' : (collectTraders policy replies [] [] none).2 = .ok collection := hcollected
    refine ⟨requests, pageRow ids context now page,
      fun row hrow => (hunused page hpage row hrow).1, ?_, ?_⟩
    · intro error herror
      simp only [traders, hrun, hcollected', herror]
    · intro result hresult
      simp only [traders, hrun, hcollected', hresult]

/-- The snapshot is refused when one is stored under its key. -/
theorem traderEvidence_conflict (analysis : SecurityAnalysis) (policy : EnrichmentPolicy)
    (requests : EvidenceTable) {request : EvidenceRow} {collection : TraderCollection}
    (hrecorded : Recorded ids store)
    (hnew : ∀ row ∈ store.requests.rows, row.id ≠ request.id)
    (hrecordable : Recordable collection.envelope) {stored : EvidenceRow}
    (hstored : stored ∈ store.traders.rows)
    (hkey : stored.semanticKey = traderKey ids context collection.trades) :
    ∃ message, traderEvidence ids analysis policy context request collection
      { store with requests } = .error (.integrity message) := by
  obtain ⟨message, hrefused⟩ := insertVerified_of_taken
    (traderValues ids analysis policy context request collection) hstored hkey
    (hrecorded.traders stored hstored).2 hnew (by simp [EvidenceRow.fields, traderValues, traderRow])
  refine ⟨message, ?_⟩
  unfold traderEvidence
  simp only [if_pos hrecordable, hrefused]
  rfl

/-- Without a stored snapshot under its key the evidence is committed. -/
theorem traderEvidence_completes (analysis : SecurityAnalysis) (requests : EvidenceTable)
    (request : EvidenceRow) (hids : CollisionFree ids) {collection : TraderCollection}
    (hrecorded : Recorded ids store)
    (hfree : Recordable collection.envelope →
      ∀ row ∈ store.traders.rows, row.semanticKey ≠ traderKey ids context collection.trades)
    (hlater : ∀ row ∈ store.features.rows,
      row.get? "candidate_id" = some (.uuid context.candidateId) →
        row.get? "received_at" ≠ some (.instant collection.envelope.receivedAt)) :
    ∃ done, traderEvidence ids analysis policy context request collection
      { store with requests } = .ok done := by
  unfold traderEvidence
  by_cases hrecordable : Recordable collection.envelope
  · have hunused : Unused store.traders
        (traderValues ids analysis policy context request collection) := by
      intro row hrow
      have hkey := hfree hrecordable row hrow
      refine ⟨fun h => hkey ?_, hkey⟩
      rw [(hrecorded.traders row hrow).1] at h
      exact append_of_uuid5_eq hids h
    obtain ⟨traders, hinsert, _⟩ := insertVerified_of_unused traderValues_wellNamed hunused
    obtain ⟨features, feature, hfeature⟩ := refreshFeatures_of_unused analysis policy
      { store with requests, traders } hids hrecorded.features hlater
    simp only [if_pos hrecordable, hinsert, ok_bind, pure_bind, hfeature]
    exact ⟨_, rfl⟩
  · obtain ⟨features, feature, hfeature⟩ := refreshFeatures_of_unused analysis policy
      { store with requests } hids hrecorded.features hlater
    simp only [if_neg hrecordable, pure_bind, hfeature, ok_bind]
    exact ⟨_, rfl⟩

theorem walletEdges_conflict (analysis : SecurityAnalysis) {answer : WalletEdgeEvidencePage} (hrecorded : Recorded ids store)
    (hunused : Unused store.requests (requestRow ids context "WALLET_CLUSTER_ANALYSIS" now
      (boundedEdges policy answer).envelope
      ("wallet_limit=" ++ toString policy.maxWalletsPerCandidate)))
    {edge : WalletEdgeFact} {rest : List WalletEdgeFact}
    (hedges : (boundedEdges policy answer).edges = edge :: rest) {stored : EvidenceRow}
    (hstored : stored ∈ store.edges.rows) (hkey : stored.semanticKey = edgeKey ids context edge) :
    ∃ message, walletEdges ids analysis policy context now answer store =
      .error (.integrity message) := by
  obtain ⟨requests, hrecord, _⟩ := recordProviderRequest_of_unused hunused
  obtain ⟨message, hrefused⟩ := insertVerified_of_taken
    (edgeRow ids context (requestRow ids context "WALLET_CLUSTER_ANALYSIS" now
      (boundedEdges policy answer).envelope
      ("wallet_limit=" ++ toString policy.maxWalletsPerCandidate))
      (boundedEdges policy answer).envelope edge) hstored hkey
    (hrecorded.edges stored hstored) (fun row hrow => (hunused row hrow).1)
    (by simp [EvidenceRow.fields, edgeRow])
  refine ⟨message, ?_⟩
  simp only [walletEdges, hrecord, ok_bind, hedges, List.map_cons,
    insertAllVerified_conflict hrefused]
  rfl

theorem walletEdges_completes (analysis : SecurityAnalysis) (hids : CollisionFree ids) {answer : WalletEdgeEvidencePage}
    (hrecorded : Recorded ids store)
    (hunused : Unused store.requests (requestRow ids context "WALLET_CLUSTER_ANALYSIS" now
      (boundedEdges policy answer).envelope
      ("wallet_limit=" ++ toString policy.maxWalletsPerCandidate)))
    (hlater : ∀ row ∈ store.features.rows,
      row.get? "candidate_id" = some (.uuid context.candidateId) →
        row.get? "received_at" ≠ some (.instant (boundedEdges policy answer).envelope.receivedAt))
    (hedges : (boundedEdges policy answer).edges = []) :
    ∃ done, walletEdges ids analysis policy context now answer store = .ok done := by
  obtain ⟨requests, hrecord, _⟩ := recordProviderRequest_of_unused hunused
  obtain ⟨features, feature, hfeature⟩ := refreshFeatures_of_unused analysis policy
    { store with requests } hids hrecorded.features hlater
  simp only [walletEdges, hrecord, ok_bind, hedges, analysis.clusters_nil, List.map_nil,
    insertAllVerified, hfeature]
  exact ⟨_, rfl⟩

theorem funding_conflict (analysis : SecurityAnalysis) {page : FundingEvidencePage} (hrecorded : Recorded ids store)
    (hunused : Unused store.requests (requestRow ids context "FUNDING_GRAPH_ANALYSIS" now
      page.envelope ("maximum_hops=" ++ toString policy.maxFundingHops)))
    {item : FundingFact} {rest : List FundingFact}
    (hitems : boundedFunding policy page.relationships = item :: rest) {stored : EvidenceRow}
    (hstored : stored ∈ store.fundings.rows)
    (hkey : stored.semanticKey = fundingKey ids context item) :
    ∃ message, funding ids analysis policy context now page store =
      .error (.integrity message) := by
  obtain ⟨requests, hrecord, _⟩ := recordProviderRequest_of_unused hunused
  obtain ⟨message, hrefused⟩ := insertVerified_of_taken
    (fundingRow ids context (requestRow ids context "FUNDING_GRAPH_ANALYSIS" now
      page.envelope ("maximum_hops=" ++ toString policy.maxFundingHops)) page.envelope item)
    hstored hkey (hrecorded.fundings stored hstored) (fun row hrow => (hunused row hrow).1)
    (by simp [EvidenceRow.fields, fundingRow])
  refine ⟨message, ?_⟩
  simp only [funding, hrecord, ok_bind, hitems, List.map_cons,
    insertAllVerified_conflict hrefused]
  rfl

theorem funding_completes (analysis : SecurityAnalysis) (hids : CollisionFree ids) {page : FundingEvidencePage}
    (hrecorded : Recorded ids store)
    (hunused : Unused store.requests (requestRow ids context "FUNDING_GRAPH_ANALYSIS" now
      page.envelope ("maximum_hops=" ++ toString policy.maxFundingHops)))
    (hlater : ∀ row ∈ store.features.rows,
      row.get? "candidate_id" = some (.uuid context.candidateId) →
        row.get? "received_at" ≠ some (.instant page.envelope.receivedAt))
    (hitems : boundedFunding policy page.relationships = []) :
    ∃ done, funding ids analysis policy context now page store = .ok done := by
  obtain ⟨requests, hrecord, _⟩ := recordProviderRequest_of_unused hunused
  obtain ⟨features, feature, hfeature⟩ := refreshFeatures_of_unused analysis policy
    { store with requests } hids hrecorded.features hlater
  simp only [funding, hrecord, ok_bind, hitems, List.map_nil, insertAllVerified, hfeature]
  exact ⟨_, rfl⟩

/-- What the second execution does: it commits when it is safe to retry, and is refused with an
integrity error otherwise. -/
def Decided (ids : EvidenceIdentities) (analysis : SecurityAnalysis) (policy : EnrichmentPolicy)
    (context : SecurityTaskContext) (now : Int) (answer : ProviderAnswer)
    (store : SecurityStore) : Prop :=
  (SafeToRetry ids policy context answer store →
    ∃ store' result, dispatch ids analysis policy context now answer store =
      (store', .ok result)) ∧
  (¬ SafeToRetry ids policy context answer store →
    ∃ store' message, dispatch ids analysis policy context now answer store =
      (store', .error (.integrity message)))

theorem decided_traders (hids : CollisionFree ids) {replies : List (Option TraderReply)}
    {collection : TraderCollection} (hrecorded : Recorded ids store)
    (hcollected : collected policy replies = .ok collection)
    (hlater : Later policy context (.traders replies) store) :
    Decided ids analysis policy context now (.traders replies) store := by
  obtain ⟨requests, request, hnew, herror, hok⟩ :=
    traders_reach analysis now hids hrecorded hcollected hlater
  constructor
  · intro hsafe
    obtain ⟨page, hpage, hreceived⟩ := sent_of_collectTraders hcollected
    have hfeatures := hlater.features page.envelope (List.mem_map_of_mem hpage)
    rw [hreceived] at hfeatures
    obtain ⟨done, hdone⟩ := traderEvidence_completes analysis requests request hids hrecorded (hsafe collection hcollected) hfeatures
    exact ⟨done.1, done.2, hok done hdone⟩
  · intro hrejected
    have hstored : Recordable collection.envelope ∧
        ∃ row ∈ store.traders.rows, row.semanticKey = traderKey ids context collection.trades := by
      by_contra hnone
      refine hrejected fun other hother hrecordable row hrow hkey => hnone ?_
      have hsame : other = collection := by
        injection hother.symm.trans hcollected
      rw [hsame] at hrecordable hkey
      exact ⟨hrecordable, row, hrow, hkey⟩
    obtain ⟨hrecordable, row, hrow, hkey⟩ := hstored
    obtain ⟨message, hrefused⟩ := traderEvidence_conflict analysis policy requests hrecorded hnew hrecordable hrow hkey
    exact ⟨_, message, herror _ hrefused⟩

theorem decided_walletEdges (hids : CollisionFree ids) {page : WalletEdgeEvidencePage}
    (hrecorded : Recorded ids store) (hlater : Later policy context (.walletEdges page) store)
    (hstored : ∀ edge ∈ (boundedEdges policy page).edges,
      ∃ row ∈ store.edges.rows, row.semanticKey = edgeKey ids context edge) :
    Decided ids analysis policy context now (.walletEdges page) store := by
  have hsent : page.envelope ∈ sentEnvelopes policy (.walletEdges page) := List.mem_singleton_self _
  have hreceived := boundedEdges_envelope policy page
  have hrequests := hlater.requests page.envelope hsent
  have hfeatures := hlater.features page.envelope hsent
  rw [← hreceived] at hrequests hfeatures
  have hunused := request_unused "WALLET_CLUSTER_ANALYSIS"
    ("wallet_limit=" ++ toString policy.maxWalletsPerCandidate) now hids hrecorded hrequests
  constructor
  · intro hsafe
    obtain ⟨done, hdone⟩ :=
      walletEdges_completes analysis hids hrecorded hunused hfeatures hsafe
    exact ⟨done.1, done.2, by simp only [dispatch, hdone, committed]⟩
  · intro hrejected
    obtain ⟨edge, rest, hedges⟩ := List.exists_cons_of_ne_nil hrejected
    obtain ⟨row, hrow, hkey⟩ := hstored edge (hedges ▸ List.mem_cons_self)
    obtain ⟨message, hrefused⟩ :=
      walletEdges_conflict analysis hrecorded hunused hedges hrow hkey
    exact ⟨store, message, by simp only [dispatch, hrefused, committed]⟩

theorem decided_funding (hids : CollisionFree ids) {page : FundingEvidencePage}
    (hrecorded : Recorded ids store) (hlater : Later policy context (.funding page) store)
    (hstored : ∀ item ∈ boundedFunding policy page.relationships,
      ∃ row ∈ store.fundings.rows, row.semanticKey = fundingKey ids context item) :
    Decided ids analysis policy context now (.funding page) store := by
  have hsent : page.envelope ∈ sentEnvelopes policy (.funding page) := List.mem_singleton_self _
  have hfeatures := hlater.features page.envelope hsent
  have hunused := request_unused "FUNDING_GRAPH_ANALYSIS"
    ("maximum_hops=" ++ toString policy.maxFundingHops) now hids hrecorded
    (hlater.requests page.envelope hsent)
  constructor
  · intro hsafe
    obtain ⟨done, hdone⟩ :=
      funding_completes analysis hids hrecorded hunused hfeatures hsafe
    exact ⟨done.1, done.2, by simp only [dispatch, hdone, committed]⟩
  · intro hrejected
    obtain ⟨item, rest, hitems⟩ := List.exists_cons_of_ne_nil hrejected
    obtain ⟨row, hrow, hkey⟩ := hstored item (hitems ▸ List.mem_cons_self)
    obtain ⟨message, hrefused⟩ :=
      funding_conflict analysis hrecorded hunused hitems hrow hkey
    exact ⟨store, message, by simp only [dispatch, hrefused, committed]⟩

/-- What a first execution committed decides the second one on the same facts. -/
theorem decided_again (now' : Int) (hids : CollisionFree ids) {context' : SecurityTaskContext}
    {answer answer' : ProviderAnswer} {before after : SecurityStore}
    (hfirst : CommitsEvidence ids analysis policy context now answer before after)
    (hgrows : Grows after store) (hrecorded : Recorded ids store)
    (htask : SameTask context context') (hfacts : SameFacts policy answer answer')
    (hlater : Later policy context' answer' store) :
    Decided ids analysis policy context' now' answer' store := by
  cases answer with
  | traders replies =>
    cases answer' with
    | traders replies' =>
      obtain ⟨_, collection', _, hcollected, _⟩ := hfacts
      exact decided_traders hids hrecorded hcollected hlater
    | walletEdges page' => cases hfacts
    | funding page' => cases hfacts
  | walletEdges page =>
    cases answer' with
    | traders replies' => cases hfacts
    | walletEdges page' =>
      refine decided_walletEdges hids hrecorded hlater fun edge hedge => ?_
      obtain ⟨result, hdone⟩ := hfirst
      obtain ⟨earlier, hearlier, hsame⟩ := exists_of_map_eq (boundedEdges_congr hfacts) hedge
      obtain ⟨row, hrow, hkey⟩ := edges_stored hdone hearlier
      exact ⟨row, hgrows.edges row hrow, hkey.trans (edgeKey_congr htask hsame)⟩
    | funding page' => cases hfacts
  | funding page =>
    cases answer' with
    | traders replies' => cases hfacts
    | walletEdges page' => cases hfacts
    | funding page' =>
      refine decided_funding hids hrecorded hlater fun item hitem => ?_
      obtain ⟨result, hdone⟩ := hfirst
      obtain ⟨earlier, hearlier, hsame⟩ := exists_of_map_eq (boundedFunding_congr hfacts) hitem
      obtain ⟨row, hrow, hkey⟩ := fundings_stored hdone hearlier
      exact ⟨row, hgrows.fundings row hrow, hkey.trans (fundingKey_congr htask hsame)⟩

/-- After a first execution with an available or partial answer, no such answer with the same
trades is safe. -/
theorem unsafe_of_recordable {context' : SecurityTaskContext} {request : EvidenceRow}
    {replies' : List (Option TraderReply)} {collection collection' : TraderCollection}
    {before : SecurityStore} {done : SecurityStore × TaskResult}
    (hfirst : traderEvidence ids analysis policy context request collection before = .ok done)
    (hgrows : Grows done.1 store) (htask : SameTask context context')
    (hcollected : collected policy replies' = .ok collection')
    (hfacts : collection.trades.map (·.facts) = collection'.trades.map (·.facts))
    (hrecordable : Recordable collection.envelope) (hrecordable' : Recordable collection'.envelope) :
    ¬ SafeToRetry ids policy context' (.traders replies') store := by
  intro hsafe
  obtain ⟨row, hrow, hkey⟩ := traders_stored hfirst hrecordable
  exact hsafe collection' hcollected hrecordable' row (hgrows.traders row hrow)
    (hkey.trans (traderKey_congr htask hfacts))

/-- The evidence of a completed execution is committed by its last transaction. -/
theorem commitsEvidence_of_completed {provider : String} {failedAt : Int} {admitted : Bool}
    {answer : ProviderAnswer} {store' : SecurityStore} {result : TaskResult}
    (h : processClaim ids analysis policy context provider now failedAt admitted answer store =
      (store', .ok (.completed result))) :
    ∃ mid, ReflTransGen (Commit ids analysis policy) store mid ∧
      CommitsEvidence ids analysis policy context now answer mid store' := by
  have hdispatch : dispatch ids analysis policy context now answer store = (store', .ok result) := by
    unfold processClaim at h
    split at h
    · split at h
      · next hok =>
        cases h
        exact hok
      · cases h
      · split at h
        · cases h
        · cases h
    · cases h
  cases answer with
  | traders replies =>
    obtain ⟨hrun, hmem⟩ := commits_recordPages ids analysis policy context now
      (collectTraders policy replies [] [] none).1 store none (fun _ h => by cases h)
    cases traders_cases ids analysis policy context now replies store with
    | inl hstopped =>
      obtain ⟨error, herror⟩ := hstopped
      rw [dispatch, herror] at hdispatch
      cases hdispatch
    | inr hcommitted =>
      obtain ⟨collection, request, done, hcollected, hlast, hevidence, hdone⟩ := hcommitted
      rw [dispatch, hdone] at hdispatch
      cases hdispatch
      exact ⟨_, hrun, collection, hcollected, request, hmem request hlast, done.2, hevidence⟩
  | walletEdges page =>
    refine ⟨store, .refl, result, ?_⟩
    simp only [dispatch, committed] at hdispatch
    split at hdispatch
    · next done hdone =>
      cases hdispatch
      exact hdone
    · cases hdispatch
  | funding page =>
    refine ⟨store, .refl, result, ?_⟩
    simp only [dispatch, committed] at hdispatch
    split at hdispatch
    · next done hdone =>
      cases hdispatch
      exact hdone
    · cases hdispatch

/-- Whatever was committed before and since, a second execution on the same facts completes
exactly when nothing is to be stored under an identity without its request. -/
theorem retry_completes_iff (hids : CollisionFree ids) {context' : SecurityTaskContext}
    {provider : String} {now' failedAt : Int} {answer answer' : ProviderAnswer}
    {before after : SecurityStore}
    (hbefore : ReflTransGen (Commit ids analysis policy) emptyStore before)
    (hfirst : CommitsEvidence ids analysis policy context now answer before after)
    (hsince : ReflTransGen (Commit ids analysis policy) after store)
    (htask : SameTask context context') (hfacts : SameFacts policy answer answer')
    (hlater : Later policy context' answer' store) :
    (∃ store' result, processClaim ids analysis policy context' provider now' failedAt true answer'
      store = (store', .ok (.completed result))) ↔ SafeToRetry ids policy context' answer' store := by
  have hreached := (recorded_commits recorded_emptyStore hbefore).1
  have hcommit : Recorded ids after := by
    cases answer with
    | traders replies =>
      obtain ⟨_, _, request, hrequest, result, hdone⟩ := hfirst
      have hcommit : Commit ids analysis policy before after := .traders hrequest hdone
      exact (recorded_commit hreached hcommit).1
    | walletEdges page =>
      obtain ⟨result, hdone⟩ := hfirst
      have hcommit : Commit ids analysis policy before after := .walletEdges hdone
      exact (recorded_commit hreached hcommit).1
    | funding page =>
      obtain ⟨result, hdone⟩ := hfirst
      have hcommit : Commit ids analysis policy before after := .funding hdone
      exact (recorded_commit hreached hcommit).1
  obtain ⟨hrecorded, hgrows⟩ := recorded_commits hcommit hsince
  obtain ⟨hsafe, hrejected⟩ := decided_again now' hids hfirst hgrows hrecorded htask
    hfacts hlater
  constructor
  · intro hcompletes
    by_contra hnot
    obtain ⟨store', message, hrefused⟩ := hrejected hnot
    obtain ⟨_, _, hcompleted⟩ := hcompletes
    simp only [processClaim, if_pos, hrefused] at hcompleted
    cases hcompleted
  · intro h
    obtain ⟨store', result, hdone⟩ := hsafe h
    exact ⟨store', result, by simp only [processClaim, if_pos, hdone]⟩

end Second

/-! ### A funding task that is executed twice -/

deriving instance Encodable for SemanticDocument

/-- Texts that separate documents, and numbers that separate texts. -/
def separatingIdentities : EvidenceIdentities where
  digest document := unaryText (Encodable.encode document)
  uuid5 name := Encodable.encode name
  uuidString id := toString id
  sha256 text := text

theorem separatingIdentities_collisionFree : CollisionFree separatingIdentities where
  digest _ _ h := Encodable.encode_injective (unaryText_injective h)
  uuid5 := Encodable.encode_injective

/-- The receipt times in plain text. -/
def plainIdentities : EvidenceIdentities where
  digest := fun
    | .request _ _ _ _ receivedAt _ _ => "request " ++ toString receivedAt
    | .features _ receivedAt _ _ _ => "features " ++ toString receivedAt
    | .funding _ wallet source signature hop =>
      String.intercalate " " ["funding", wallet, source, signature, toString hop]
    | _ => "document"
  uuid5 name := name.toList.foldl (fun id c => id * 256 + c.toNat) 0
  uuidString id := toString id
  sha256 text := text

def plainAnalysis : SecurityAnalysis where
  traderMetrics _ := traderMetricNames.map fun name => (name, .null)
  clusterWalletEdges _ := []
  features _ _ _ := ⟨"values", "schema", "input", []⟩
  metrics_named _ := rfl
  clusters_nil := rfl

def plainEnrichment : EnrichmentPolicy := ⟨1, 10, 10, 2, "policy", Nat.one_pos⟩

def fundingContext : SecurityTaskContext where
  claim := ⟨1, 2, 3, 4, .tier2Investigate, "FUNDING_GRAPH_ANALYSIS", 0, "input", 1⟩
  candidateId := 3
  tokenId := 4
  tokenAddress := "mint"
  collectionEpochId := 5
  collectorRunId := none
  pairId := none
  pairAddress := none

/-- An answer that was received at a time. -/
def fundingPage (receivedAt : Int) (relationships : List FundingFact) : FundingEvidencePage where
  envelope := {
    provider := "provider"
    providerSchemaVersion := "1"
    sourceObservedAt := none
    receivedAt := receivedAt
    availability := .available
    completeness := .closedTimeRange
    acquisitionMode := .historicallyAvailable
    failed_has_code := fun h => by cases h
    status_valid := status_valid_none }
  relationships := relationships

def fundedWallet (receivedAt : Int) : FundingFact where
  wallet := "wallet"
  fundingSource := "source"
  fundingAt := none
  receivedAt := receivedAt
  amountLamports := none
  hopDepth := 1
  sourceSignature := "signature"
  completeness := .closedTimeRange
  hop_bounds := by decide
  amount_nonneg := fun _ h => by cases h

/-- A funding answer without relationships is committed twice. -/
theorem retry_completes_without_relationships :
    ∃ after, CommitsEvidence separatingIdentities plainAnalysis plainEnrichment fundingContext 10
        (.funding (fundingPage 20 [])) emptyStore after ∧
      ∃ store' result, processClaim separatingIdentities plainAnalysis plainEnrichment
        fundingContext "provider" 30 30 true (.funding (fundingPage 40 [])) after =
          (store', .ok (.completed result)) := by
  have hunused : Unused emptyStore.requests (requestRow separatingIdentities fundingContext
      "FUNDING_GRAPH_ANALYSIS" 10 (fundingPage 20 []).envelope
      ("maximum_hops=" ++ toString plainEnrichment.maxFundingHops)) := fun _ h => by cases h
  obtain ⟨done, hdone⟩ := funding_completes plainAnalysis
    separatingIdentities_collisionFree recorded_emptyStore hunused (fun _ h => by cases h) rfl
  have hcommits : CommitsEvidence separatingIdentities plainAnalysis plainEnrichment fundingContext
      10 (.funding (fundingPage 20 [])) emptyStore done.1 := ⟨done.2, hdone⟩
  obtain ⟨recorded, fundings, rows, feature, hrequest, _, hfeature, hstore⟩ := funding_eq_ok hdone
  obtain ⟨requests, hinsert, hrecorded⟩ := recordProviderRequest_eq_ok hrequest
  obtain ⟨features, hinsertFeature, hfeatured⟩ := refreshFeatures_eq_ok hfeature
  have hlater : Later plainEnrichment fundingContext (.funding (fundingPage 40 [])) done.1 := by
    rw [hstore, hfeatured, hrecorded]
    rw [hrecorded] at hinsertFeature
    refine ⟨fun envelope henvelope row hrow _ earlier => ?_,
      fun envelope henvelope row hrow _ => ?_, List.nodup_singleton _⟩
    · rw [List.mem_singleton.mp henvelope]
      exact forall_insertVerified
        (P := fun row => row.get? "received_at" = some (.instant earlier) → earlier < 40) hinsert
        (fun h => by cases h; decide) (fun _ h => by cases h) row hrow
    · rw [List.mem_singleton.mp henvelope]
      exact forall_insertVerified
        (P := fun row => row.get? "received_at" ≠ some (.instant 40)) hinsertFeature
        (fun h => by cases h) (fun _ h => by cases h) row hrow
  have hfacts : SameFacts plainEnrichment (.funding (fundingPage 20 []))
      (.funding (fundingPage 40 [])) := rfl
  exact ⟨done.1, hcommits, (retry_completes_iff separatingIdentities_collisionFree .refl hcommits
    .refl ⟨rfl, rfl, rfl⟩ hfacts hlater).mpr rfl⟩

def ProcessOutcome.isCompleted : ProcessOutcome → Bool
  | .completed _ => true
  | _ => false

/-- The error that an execution ends with. -/
def refusal (result : Except EvidenceError ProcessOutcome) : Option EvidenceError :=
  match result with
  | .error error => some error
  | .ok _ => none

/-- The same relationship, received later, is refused for the request that it came with. -/
theorem funding_retry_refused :
    let first := processClaim plainIdentities plainAnalysis plainEnrichment fundingContext
      "provider" 10 10 true (.funding (fundingPage 20 [fundedWallet 20])) emptyStore
    let second := processClaim plainIdentities plainAnalysis plainEnrichment fundingContext
      "provider" 30 30 true (.funding (fundingPage 40 [fundedWallet 40])) first.1
    first.2.toOption.any ProcessOutcome.isCompleted = true ∧
      SameFacts plainEnrichment (.funding (fundingPage 20 [fundedWallet 20]))
        (.funding (fundingPage 40 [fundedWallet 40])) ∧
      refusal second.2 =
        some (.integrity "security evidence identity maps to different provider_request_id") := by
  refine ⟨by decide +kernel, rfl, by decide +kernel⟩

end PumpResearch.SecurityEnrichment
