import PumpResearch.Library.CountableTexts
import PumpResearch.Library.UnionFind
import PumpResearch.SecurityEnrichment.Evidence

/-! Clusters of wallets: the connected components of the factual edges, with the digest of all
edges and the relationship types inside each component. -/
namespace PumpResearch.SecurityEnrichment
open CountableTexts KeyedOrder OrderedDict RelatedLists UnionFind

def clusterAlgorithmVersion : String := "explainable-connected-components-v1"

/-- An edge as it enters the digest of all edges. -/
structure EdgeDocument where
  a : String
  b : String
  type : String
  count : Int
  facts : List String
deriving DecidableEq

/-- What `_digest` is taken of. -/
inductive ClusterDocument where
  | edges (edges : List EdgeDocument)
  | cluster (algorithm : String) (members : List String) (edges : String)
deriving DecidableEq

deriving instance Encodable for EdgeDocument, ClusterDocument

/-- Relationship type, then the wallets, then the receipt. -/
def edgeOrder (edge : WalletEdgeFact) : String ×ₗ String ×ₗ String ×ₗ Int :=
  toLex (edge.relationshipType.value, toLex (min edge.walletA edge.walletB,
    toLex (max edge.walletA edge.walletB, edge.evidenceReceivedAt)))

def edgeDocument (edge : WalletEdgeFact) : EdgeDocument where
  a := min edge.walletA edge.walletB
  b := max edge.walletA edge.walletB
  type := edge.relationshipType.value
  count := edge.strengthCount
  facts := sortOn id edge.sourceFactIds

def edgeWallets (edge : WalletEdgeFact) : String × String := (edge.walletA, edge.walletB)

/-- The types of the edges inside a cluster. -/
def explanationOf (ordered : List WalletEdgeFact) (values : List String) : List String :=
  sortOn id ((ordered.filter fun edge => edge.walletA ∈ values ∧ edge.walletB ∈ values).map
    (·.relationshipType.value)).dedup

def clusterResult (digest : ClusterDocument → String) (ordered : List WalletEdgeFact)
    (values : List String) : WalletClusterResult :=
  let edgeHash := digest (.edges (ordered.map edgeDocument))
  { clusterId := digest (.cluster clusterAlgorithmVersion values edgeHash)
    members := values
    inputEdgeSha256 := edgeHash
    explanation := explanationOf ordered values }

/-- `cluster_wallet_edges`, with a bound on nested calls of `find`. -/
def clusterWalletEdges (digest : ClusterDocument → String) (depth : Nat)
    (edges : List WalletEdgeFact) : Option (List WalletClusterResult) := do
  let ordered := sortOn edgeOrder edges
  let parents ← joinAll depth (ordered.map edgeWallets) Dict.empty
  let members ← gather depth parents
  return (sortedGroups members).map (clusterResult digest ordered)

/-! ### Components -/

section Components
variable {digest : ClusterDocument → String} {edges : List WalletEdgeFact}

/-- The clusters are the classes of the edges' wallets. -/
theorem clusterWalletEdges_classes (digest : ClusterDocument → String) {depth : Nat} (hdepth : 2 * edges.length ≤ depth) :
    ∃ classes, clusterWalletEdges digest depth edges =
        some (classes.map (clusterResult digest (sortOn edgeOrder edges))) ∧
      Classes (edges.map edgeWallets) classes := by
  have hperm := sortOn_perm edgeOrder edges
  obtain ⟨parents, hjoin, hrepresents⟩ :=
    joinAll_total depth ((sortOn edgeOrder edges).map edgeWallets)
      (by rwa [List.length_map, hperm.length_eq])
  have hsize := hrepresents.size
  rw [List.length_map, hperm.length_eq] at hsize
  have hgather := gather_total depth hrepresents.forest (by omega)
  refine ⟨_, ?_, hrepresents.classes.congr
    (fun pair hpair => .inl ((hperm.map edgeWallets).mem_iff.mp hpair))
    fun pair hpair => .inl ((hperm.map edgeWallets).mem_iff.mpr hpair)⟩
  rw [clusterWalletEdges, hjoin, Option.bind_eq_bind, Option.bind_some, hgather]
  rfl

theorem mem_explanationOf {ordered : List WalletEdgeFact} {values : List String} {name : String} :
    name ∈ explanationOf ordered values ↔ ∃ edge ∈ ordered, edge.walletA ∈ values ∧
      edge.walletB ∈ values ∧ edge.relationshipType.value = name := by
  simp only [explanationOf, mem_sortOn, List.mem_dedup, List.mem_map, List.mem_filter,
    decide_eq_true_eq, and_assoc]

theorem explanationOf_sorted (ordered : List WalletEdgeFact) (values : List String) :
    (explanationOf ordered values).Pairwise (· < ·) := pairwise_lt_sortOn (List.nodup_dedup _)

end Components

/-! ### Order of the edges -/



section Order
variable {digest : ClusterDocument → String} {edges edges' : List WalletEdgeFact}

/-- The same edge with its wallets swapped. -/
def WalletEdgeFact.swap (edge : WalletEdgeFact) : WalletEdgeFact :=
  { edge with
    walletA := edge.walletB
    walletB := edge.walletA
    wallets_differ := edge.wallets_differ.symm }

theorem WalletEdgeFact.swap_swap (edge : WalletEdgeFact) : edge.swap.swap = edge := rfl

theorem edgeOrder_swap (edge : WalletEdgeFact) : edgeOrder edge.swap = edgeOrder edge := by
  rw [edgeOrder, edgeOrder, WalletEdgeFact.swap, min_comm, max_comm]

theorem edgeDocument_swap (edge : WalletEdgeFact) : edgeDocument edge.swap = edgeDocument edge := by
  rw [edgeDocument, edgeDocument, WalletEdgeFact.swap, min_comm, max_comm]

/-- Edges that the order does not tell apart are documented alike. -/
def DocumentedByOrder (edges : List WalletEdgeFact) : Prop :=
  ∀ edge ∈ edges, ∀ other ∈ edges, edgeOrder edge = edgeOrder other →
    edgeDocument edge = edgeDocument other

/-- What a result depends on: the documents in order, and the edges up to a swap of wallets. -/
theorem clusterWalletEdges_congr {depth : Nat} (hdepth : 2 * edges.length ≤ depth)
    (hdepth' : 2 * edges'.length ≤ depth)
    (hdocuments : (sortOn edgeOrder edges).map edgeDocument =
      (sortOn edgeOrder edges').map edgeDocument)
    (hsub : ∀ edge ∈ edges, edge ∈ edges' ∨ edge.swap ∈ edges')
    (hsub' : ∀ edge ∈ edges', edge ∈ edges ∨ edge.swap ∈ edges) :
    clusterWalletEdges digest depth edges = clusterWalletEdges digest depth edges' := by
  have hpairs : ∀ {xs ys : List WalletEdgeFact}, (∀ edge ∈ xs, edge ∈ ys ∨ edge.swap ∈ ys) →
      ∀ pair ∈ xs.map edgeWallets, pair ∈ ys.map edgeWallets ∨ pair.swap ∈ ys.map edgeWallets := by
    intro xs ys hxy pair hpair
    obtain ⟨edge, hedge, rfl⟩ := List.mem_map.mp hpair
    exact (hxy edge hedge).imp List.mem_map_of_mem fun hmem =>
      List.mem_map_of_mem (f := edgeWallets) hmem
  have hnames : ∀ {xs ys : List WalletEdgeFact}, (∀ edge ∈ xs, edge ∈ ys ∨ edge.swap ∈ ys) →
      ∀ values name, name ∈ explanationOf xs values → name ∈ explanationOf ys values := by
    intro xs ys hxy values name hname
    obtain ⟨edge, hedge, hA, hB, htype⟩ := mem_explanationOf.mp hname
    refine mem_explanationOf.mpr ?_
    cases hxy edge hedge with
    | inl hmem => exact ⟨edge, hmem, hA, hB, htype⟩
    | inr hmem => exact ⟨edge.swap, hmem, hB, hA, htype⟩
  have hordered : ∀ {xs ys : List WalletEdgeFact}, (∀ edge ∈ xs, edge ∈ ys ∨ edge.swap ∈ ys) →
      ∀ edge ∈ sortOn edgeOrder xs, edge ∈ sortOn edgeOrder ys ∨
        edge.swap ∈ sortOn edgeOrder ys := by
    intro xs ys hxy edge hedge
    rw [mem_sortOn, mem_sortOn]
    exact hxy edge ((mem_sortOn _ _ _).mp hedge)
  obtain ⟨classes, hresult, hclasses⟩ := clusterWalletEdges_classes digest hdepth
  obtain ⟨classes', hresult', hclasses'⟩ := clusterWalletEdges_classes digest hdepth'
  have hsame : classes = classes' :=
    (hclasses.congr (hpairs hsub) (hpairs hsub')).unique hclasses'
  have hcluster : ∀ values, clusterResult digest (sortOn edgeOrder edges) values =
      clusterResult digest (sortOn edgeOrder edges') values := by
    intro values
    have hexplanation : explanationOf (sortOn edgeOrder edges) values =
        explanationOf (sortOn edgeOrder edges') values :=
      eq_of_pairwise_lt (explanationOf_sorted _ _) (explanationOf_sorted _ _) fun name =>
        ⟨hnames (hordered hsub) values name, hnames (hordered hsub') values name⟩
    rw [clusterResult, clusterResult, hdocuments, hexplanation]
  rw [hresult, hresult', hsame, List.map_congr_left fun values _ => hcluster values]

/-- Documents that the order determines come in the same order from every permutation. -/
theorem ordered_documents_of_perm (hperm : edges'.Perm edges) (h : DocumentedByOrder edges) :
    (sortOn edgeOrder edges').map edgeDocument = (sortOn edgeOrder edges).map edgeDocument := by
  have hboth : (sortOn edgeOrder edges').map (fun edge => (edgeOrder edge, edgeDocument edge)) =
      (sortOn edgeOrder edges).map fun edge => (edgeOrder edge, edgeDocument edge) := by
    refine @List.Perm.eq_of_pairwise _ (fun a b => a.1 ≤ b.1) _ _ ?_ ?_ ?_ ?_
    · intro a b ha hb hab hba
      obtain ⟨edge, hedge, rfl⟩ := List.mem_map.mp ha
      obtain ⟨other, hother, rfl⟩ := List.mem_map.mp hb
      have heq : edgeOrder edge = edgeOrder other := le_antisymm hab hba
      rw [heq, h edge (hperm.mem_iff.mp ((mem_sortOn _ _ _).mp hedge)) other
        ((mem_sortOn _ _ _).mp hother) heq]
    · rw [List.pairwise_map]
      exact sortOn_pairwise _ _
    · rw [List.pairwise_map]
      exact sortOn_pairwise _ _
    · exact (((sortOn_perm _ _).trans hperm).trans (sortOn_perm _ _).symm).map _
  have hdocuments := congrArg (List.map Prod.snd) hboth
  simpa only [List.map_map, Function.comp_def] using hdocuments

/-- Swaps of wallets change nothing. -/
theorem ordered_documents_of_swaps
    (h : List.Forall₂ (fun edge edge' => edge' = edge ∨ edge' = edge.swap) edges edges') :
    (sortOn edgeOrder edges').map edgeDocument = (sortOn edgeOrder edges).map edgeDocument := by
  have hkeys : ∀ edge edge', edge' = edge ∨ edge' = edge.swap → edgeOrder edge = edgeOrder edge' := by
    intro edge edge' hedge
    cases hedge with
    | inl heq => rw [heq]
    | inr heq => rw [heq, edgeOrder_swap]
  refine (map_eq_of_forall₂ (sortOn_related hkeys h) fun edge edge' hedge => ?_).symm
  cases hedge with
  | inl heq => rw [heq]
  | inr heq => rw [heq, edgeDocument_swap]

/-- Equal results have equal documents, when there are edges at all. -/
theorem documents_of_clusters_eq (hdigest : Function.Injective digest) {depth : Nat}
    (hdepth : 2 * edges.length ≤ depth) (hdepth' : 2 * edges'.length ≤ depth)
    {edge : WalletEdgeFact} (hedge : edge ∈ edges)
    (h : clusterWalletEdges digest depth edges = clusterWalletEdges digest depth edges') :
    (sortOn edgeOrder edges).map edgeDocument = (sortOn edgeOrder edges').map edgeDocument := by
  obtain ⟨classes, hresult, hclasses⟩ := clusterWalletEdges_classes digest hdepth
  obtain ⟨classes', hresult', _⟩ := clusterWalletEdges_classes digest hdepth'
  rw [hresult, hresult', Option.some.injEq] at h
  have hoccurs : ∃ pair ∈ edges.map edgeWallets, edge.walletA = pair.1 ∨ edge.walletA = pair.2 :=
    ⟨edgeWallets edge, List.mem_map_of_mem hedge, .inl rfl⟩
  obtain ⟨members, hmembers, _⟩ := exists_isClass hoccurs
  have hin := List.mem_map_of_mem (f := clusterResult digest (sortOn edgeOrder edges))
    ((hclasses.mem_iff members).mpr hmembers)
  rw [h] at hin
  obtain ⟨other, _, hsame⟩ := List.mem_map.mp hin
  have hhash := hdigest (congrArg WalletClusterResult.inputEdgeSha256 hsame)
  exact (ClusterDocument.edges.inj hhash).symm

theorem exists_perm_cons {α : Type*} {a : α} {xs : List α} (h : a ∈ xs) :
    ∃ rest, xs.Perm (a :: rest) := by
  obtain ⟨before, after, rfl⟩ := List.append_of_mem h
  exact ⟨before ++ after, List.perm_middle⟩

/-- Neither the order of the edges nor that of their wallets matters exactly when edges that the
order does not tell apart are documented alike. -/
theorem wallet_clusters_order_independent_iff (hdigest : Function.Injective digest) {depth : Nat}
    (hdepth : 2 * edges.length ≤ depth) :
    ((∀ edges', edges'.Perm edges →
        clusterWalletEdges digest depth edges' = clusterWalletEdges digest depth edges) ∧
      ∀ edges', List.Forall₂ (fun edge edge' => edge' = edge ∨ edge' = edge.swap) edges edges' →
        clusterWalletEdges digest depth edges' = clusterWalletEdges digest depth edges) ↔
      DocumentedByOrder edges := by
  constructor
  · intro h edge hedge other hother htied
    by_contra hdocuments
    have hne : edge ≠ other := fun heq => hdocuments (heq ▸ rfl)
    obtain ⟨others, hothers⟩ := exists_perm_cons hedge
    have hin := (List.mem_cons.mp (hothers.mem_iff.mp hother)).resolve_left hne.symm
    obtain ⟨rest, hrestOthers⟩ := exists_perm_cons hin
    have hrest : edges.Perm (edge :: other :: rest) := hothers.trans (hrestOthers.cons edge)
    have hswapped := (List.Perm.swap edge other rest).trans hrest.symm
    obtain ⟨before, after, hfirst, hsecond⟩ := sortOn_tied htied rest
    have hlists := documents_of_clusters_eq hdigest (by rwa [← hrest.length_eq])
      (by rwa [hswapped.length_eq]) List.mem_cons_self
      ((h.1 _ hrest.symm).trans (h.1 _ hswapped).symm)
    rw [hfirst, hsecond, List.map_append, List.map_append, List.append_cancel_left_eq,
      List.map_cons, List.map_cons] at hlists
    exact hdocuments (List.cons.inj hlists).1
  · intro h
    refine ⟨fun edges' hperm => ?_, fun edges' hswaps => ?_⟩
    · exact clusterWalletEdges_congr (by rwa [hperm.length_eq]) hdepth
        (ordered_documents_of_perm hperm h) (fun edge hedge => .inl (hperm.mem_iff.mp hedge))
        fun edge hedge => .inl (hperm.mem_iff.mpr hedge)
    · refine clusterWalletEdges_congr (by rwa [← hswaps.length_eq]) hdepth
        (ordered_documents_of_swaps hswaps) ?_ ?_
      · intro edge' hedge'
        obtain ⟨edge, hedge, hswap⟩ := exists_related_left hswaps hedge'
        cases hswap with
        | inl heq => exact .inl (heq ▸ hedge)
        | inr heq => exact .inr (by rwa [heq, WalletEdgeFact.swap_swap])
      · intro edge hedge
        obtain ⟨edge', hedge', hswap⟩ := exists_related_right hswaps hedge
        cases hswap with
        | inl heq => exact .inl (heq ▸ hedge')
        | inr heq => exact .inr (heq ▸ hedge')

/-- A digest without collisions. -/
def separatingDigest (document : ClusterDocument) : String := unaryText (Encodable.encode document)

theorem separatingDigest_injective : Function.Injective separatingDigest := fun _ _ h =>
  Encodable.encode_injective (unaryText_injective h)

/-- An edge between two wallets, received at the start. -/
def sampleEdge (walletA walletB : String) (wallets_differ : walletA ≠ walletB)
    (relationshipType : WalletRelationshipType) (strength : Nat) : WalletEdgeFact where
  walletA := walletA
  walletB := walletB
  relationshipType := relationshipType
  firstObservedAt := 0
  evidenceReceivedAt := 0
  strengthCount := strength + 1
  sourceFactIds := []
  wallets_differ := wallets_differ
  strength_pos := by omega

/-- Two edges of different types. -/
theorem wallet_clusters_order_independent_two :
    clusterWalletEdges separatingDigest 4 [sampleEdge "b" "c" (by decide) .directTransfer 0,
        sampleEdge "a" "b" (by decide) .commonFunder 0] =
      clusterWalletEdges separatingDigest 4 [sampleEdge "a" "b" (by decide) .commonFunder 0,
        sampleEdge "b" "c" (by decide) .directTransfer 0] := by
  have hdocumented : DocumentedByOrder [sampleEdge "a" "b" (by decide) .commonFunder 0,
      sampleEdge "b" "c" (by decide) .directTransfer 0] := by
    simp [DocumentedByOrder, edgeOrder, sampleEdge, WalletRelationshipType.value]
  exact ((wallet_clusters_order_independent_iff separatingDigest_injective (by decide)).mpr
    hdocumented).1 _ (List.Perm.swap _ _ [])

/-- Two edges that differ in strength alone: their order is in the digest of all edges. -/
theorem wallet_clusters_order_dependent : ∃ edges edges', edges'.Perm edges ∧
    clusterWalletEdges separatingDigest 4 edges' ≠ clusterWalletEdges separatingDigest 4 edges := by
  refine ⟨[sampleEdge "a" "b" (by decide) .commonFunder 0,
    sampleEdge "a" "b" (by decide) .commonFunder 1],
    [sampleEdge "a" "b" (by decide) .commonFunder 1,
    sampleEdge "a" "b" (by decide) .commonFunder 0], List.Perm.swap _ _ [], fun h => ?_⟩
  have hdocuments := documents_of_clusters_eq separatingDigest_injective (by decide) (by decide)
    List.mem_cons_self h
  revert hdocuments
  decide +kernel

end Order

end PumpResearch.SecurityEnrichment
