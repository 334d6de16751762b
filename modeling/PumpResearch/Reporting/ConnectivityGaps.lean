import PumpResearch.Discovery.Contracts
import PumpResearch.Instants
import PumpResearch.Library.KeyedOrder

/-! The connectivity gap seconds of the validation summary, and the time in which a gap is open. -/
namespace PumpResearch.Reporting

open Discovery

/-! ### The query -/

/-- The columns of a connectivity event that the query reads. -/
structure ConnectivityRow where
  gapId : Uuid
  eventType : DiscoveryConnectivityEventType
  observedAt : Int
deriving DecidableEq

/-- `extract(epoch FROM …)` of an interval. -/
def extractEpoch (interval : Int) : ℚ := interval / 1000000

/-- `min(observed_at) FILTER (WHERE event_type = 'disconnected')`. -/
def downAt (group : List ConnectivityRow) : Option Int :=
  ((group.filter fun row => row.eventType = .disconnected).map ConnectivityRow.observedAt).min?

/-- `max(observed_at) FILTER (WHERE event_type = 'reconnected')`. -/
def upAt (group : List ConnectivityRow) : Option Int :=
  ((group.filter fun row => row.eventType = .reconnected).map ConnectivityRow.observedAt).max?

def groupSeconds (start stop : Int) (group : List ConnectivityRow) : ℚ :=
  match downAt group with
  | none => 0
  | some down => extractEpoch (min ((upAt group).getD stop) stop - max down start)

/-- `connectivity_gap_seconds` of `_validation_summary`, before its conversion to a float. -/
def connectivityGapSeconds (start stop : Int) (rows : List ConnectivityRow) : ℚ :=
  let seen := rows.filter fun row => start ≤ row.observedAt ∧ row.observedAt < stop
  ((seen.map ConnectivityRow.gapId).dedup.map fun gapId =>
    groupSeconds start stop (seen.filter fun row => row.gapId = gapId)).sum

/-! ### Gaps -/

/-- A gap of discovery: one disconnect, and its reconnect once there is one. -/
structure DiscoveryGap where
  gapId : Uuid
  downAt : Int
  upAt : Option Int
  ordered : ∀ up ∈ upAt, downAt ≤ up

def DiscoveryGap.rows (gap : DiscoveryGap) : List ConnectivityRow :=
  ⟨gap.gapId, .disconnected, gap.downAt⟩ ::
    gap.upAt.toList.map fun up => ⟨gap.gapId, .reconnected, up⟩

/-- A gap is open from its disconnect until its reconnect. -/
def DiscoveryGap.OpenAt (gap : DiscoveryGap) (t : Int) : Prop :=
  gap.downAt ≤ t ∧ ∀ up ∈ gap.upAt, t < up

instance decidableOpenAt (gap : DiscoveryGap) : DecidablePred gap.OpenAt :=
  fun _ => inferInstanceAs (Decidable (_ ∧ ∀ up ∈ gap.upAt, _))

/-- Gaps of distinct identities, no two open at one time. -/
structure SeparateGaps (gaps : List DiscoveryGap) : Prop where
  ids : (gaps.map DiscoveryGap.gapId).Nodup
  apart : gaps.Pairwise fun a b => ∀ t, ¬ (a.OpenAt t ∧ b.OpenAt t)

/-- The instants of a window in which some gap is open. -/
noncomputable def openInstants (start stop : Int) (gaps : List DiscoveryGap) : Finset Int :=
  (Finset.Ico start stop).filter fun t => ∃ gap ∈ gaps, gap.OpenAt t

/-- How long a gap is open in a window. -/
def DiscoveryGap.overlap (start stop : Int) (gap : DiscoveryGap) : Nat :=
  (min (gap.upAt.getD stop) stop - max gap.downAt start).toNat

/-- The time open is the sum over separate gaps. -/
theorem card_openInstants {gaps : List DiscoveryGap}
    (h : gaps.Pairwise fun a b => ∀ t, ¬ (a.OpenAt t ∧ b.OpenAt t)) (start stop : Int) :
    (openInstants start stop gaps).card = (gaps.map (DiscoveryGap.overlap start stop)).sum := by
  induction gaps with
  | nil =>
    rw [openInstants, Finset.filter_false_of_mem]
    · rfl
    · intro t _ hopen
      obtain ⟨gap, hgap, _⟩ := hopen
      cases hgap
  | cons gap rest ih =>
    obtain ⟨hapart, hrest⟩ := List.pairwise_cons.mp h
    have hgap : (Finset.Ico start stop).filter gap.OpenAt =
        Finset.Ico (max gap.downAt start) (min (gap.upAt.getD stop) stop) := by
      ext t
      rw [Finset.mem_filter, Finset.mem_Ico, Finset.mem_Ico, DiscoveryGap.OpenAt]
      cases gap.upAt with
      | none =>
        simp only [Option.getD_none, Option.not_mem_none, false_implies, implies_true, and_true]
        omega
      | some up =>
        simp only [Option.getD_some, Option.mem_some_iff, forall_eq']
        omega
    have hsplit : openInstants start stop (gap :: rest) =
        (Finset.Ico start stop).filter gap.OpenAt ∪ openInstants start stop rest := by
      rw [openInstants, openInstants, ← Finset.filter_or]
      refine Finset.filter_congr fun t _ => ?_
      simp only [List.mem_cons, exists_eq_or_imp]
    have hdisjoint : Disjoint ((Finset.Ico start stop).filter gap.OpenAt)
        (openInstants start stop rest) := by
      rw [Finset.disjoint_left]
      intro t hfirst hlater
      obtain ⟨other, hother, hopen⟩ := (Finset.mem_filter.mp hlater).2
      exact hapart other hother t ⟨(Finset.mem_filter.mp hfirst).2, hopen⟩
    rw [hsplit, Finset.card_union_of_disjoint hdisjoint, ih hrest, hgap, Int.card_Ico,
      List.map_cons, List.sum_cons]
    rfl

/-! ### The query on the rows of gaps -/

theorem downAt_congr {group group' : List ConnectivityRow} (h : group.Perm group') :
    downAt group = downAt group' :=
  KeyedOrder.min?_eq_of_mem_iff fun _ => ((h.filter _).map _).mem_iff

theorem upAt_congr {group group' : List ConnectivityRow} (h : group.Perm group') :
    upAt group = upAt group' :=
  KeyedOrder.max?_eq_of_mem_iff fun _ => ((h.filter _).map _).mem_iff

theorem groupSeconds_congr {start stop : Int} {group group' : List ConnectivityRow}
    (h : group.Perm group') : groupSeconds start stop group = groupSeconds start stop group' := by
  rw [groupSeconds, groupSeconds, downAt_congr h, upAt_congr h]

/-- The order of the rows does not matter. -/
theorem connectivityGapSeconds_congr {start stop : Int} {rows rows' : List ConnectivityRow}
    (h : rows.Perm rows') :
    connectivityGapSeconds start stop rows = connectivityGapSeconds start stop rows' := by
  have hseen := h.filter fun row => decide (start ≤ row.observedAt ∧ row.observedAt < stop)
  refine ((hseen.map ConnectivityRow.gapId).dedup.map _).sum_eq.trans ?_
  refine congrArg List.sum (List.map_congr_left fun gapId _ => ?_)
  exact groupSeconds_congr (hseen.filter _)

theorem gapId_of_mem_rows {gap : DiscoveryGap} {row : ConnectivityRow} (h : row ∈ gap.rows) :
    row.gapId = gap.gapId := by
  cases List.mem_cons.mp h with
  | inl heq => rw [heq]
  | inr hup =>
    obtain ⟨up, _, rfl⟩ := List.mem_map.mp hup
    rfl

/-- The rows of one gap among those of all. -/
theorem filter_rows {gaps : List DiscoveryGap} (hids : (gaps.map DiscoveryGap.gapId).Nodup)
    {gap : DiscoveryGap} (hgap : gap ∈ gaps) :
    (gaps.flatMap DiscoveryGap.rows).filter (fun row => row.gapId = gap.gapId) = gap.rows := by
  induction gaps with
  | nil => cases hgap
  | cons first rest ih =>
    rw [List.map_cons, List.nodup_cons] at hids
    rw [List.flatMap_cons, List.filter_append]
    rcases List.mem_cons.mp hgap with rfl | hlater
    · have hown : gap.rows.filter (fun row => row.gapId = gap.gapId) = gap.rows := by
        rw [List.filter_eq_self]
        intro row hrow
        exact decide_eq_true (gapId_of_mem_rows hrow)
      have hnone : (rest.flatMap DiscoveryGap.rows).filter
          (fun row => row.gapId = gap.gapId) = [] := by
        rw [List.filter_eq_nil_iff]
        intro row hrow heq
        obtain ⟨other, hother, hmem⟩ := List.mem_flatMap.mp hrow
        refine hids.1 ?_
        rw [← of_decide_eq_true heq, gapId_of_mem_rows hmem]
        exact List.mem_map_of_mem hother
      rw [hown, hnone, List.append_nil]
    · have hnone : first.rows.filter (fun row => row.gapId = gap.gapId) = [] := by
        rw [List.filter_eq_nil_iff]
        intro row hrow heq
        refine hids.1 ?_
        rw [← gapId_of_mem_rows hrow, of_decide_eq_true heq]
        exact List.mem_map_of_mem hlater
      rw [hnone, List.nil_append]
      exact ih hids.2 hlater

/-- The rows of a gap that lie in a window. -/
def DiscoveryGap.seen (start stop : Int) (gap : DiscoveryGap) : List ConnectivityRow :=
  gap.rows.filter fun row => start ≤ row.observedAt ∧ row.observedAt < stop

theorem downAt_seen (start stop : Int) (gap : DiscoveryGap) :
    downAt (gap.seen start stop) =
      if start ≤ gap.downAt ∧ gap.downAt < stop then some gap.downAt else none := by
  have hup : ∀ ups : List Int, ((ups.map fun up =>
      (⟨gap.gapId, .reconnected, up⟩ : ConnectivityRow)).filter
        fun row => row.eventType = .disconnected) = [] := by
    intro ups
    rw [List.filter_eq_nil_iff]
    intro row hrow
    obtain ⟨up, _, rfl⟩ := List.mem_map.mp hrow
    simp
  rw [downAt, DiscoveryGap.seen, List.filter_comm, DiscoveryGap.rows,
    List.filter_cons_of_pos (by simp), hup]
  split
  · next hin => rw [List.filter_cons_of_pos (by simpa using hin)]; rfl
  · next hout => rw [List.filter_cons_of_neg (by simpa using hout)]; rfl

theorem upAt_seen (start stop : Int) (gap : DiscoveryGap) :
    upAt (gap.seen start stop) = gap.upAt.filter fun up => start ≤ up ∧ up < stop := by
  rw [upAt, DiscoveryGap.seen, List.filter_comm, DiscoveryGap.rows,
    List.filter_cons_of_neg (by simp)]
  cases gap.upAt with
  | none => rfl
  | some up =>
    by_cases hin : start ≤ up ∧ up < stop
    · simp [hin, Option.filter]
    · simp [hin, Option.filter]

/-- What the query makes of one gap: its time open, if it began in the window. -/
theorem groupSeconds_seen (start stop : Int) (gap : DiscoveryGap) :
    groupSeconds start stop (gap.seen start stop) =
      if start ≤ gap.downAt then extractEpoch (gap.overlap start stop) else 0 := by
  have hordered := gap.ordered
  rw [groupSeconds, downAt_seen, upAt_seen, DiscoveryGap.overlap]
  by_cases hstart : start ≤ gap.downAt
  · rw [if_pos hstart]
    by_cases hstop : gap.downAt < stop
    · rw [if_pos ⟨hstart, hstop⟩]
      refine congrArg extractEpoch ?_
      cases hup : gap.upAt with
      | none =>
        rw [Option.filter_none, Option.getD_none]
        omega
      | some up =>
        have hle := hordered up hup
        by_cases hin : start ≤ up ∧ up < stop
        · rw [Option.filter_some_pos (by simpa using hin), Option.getD_some]
          omega
        · rw [Option.filter_some_neg (by simpa using hin), Option.getD_none, Option.getD_some]
          omega
    · have hnone : ((min (gap.upAt.getD stop) stop - max gap.downAt start).toNat : Int) = 0 := by
        omega
      rw [if_neg (fun h => hstop h.2), hnone, extractEpoch, Int.cast_zero, zero_div]
  · rw [if_neg hstart, if_neg (fun h => hstart h.1)]

/-- The query adds up the gaps that began in the window. -/
theorem connectivityGapSeconds_rows {gaps : List DiscoveryGap} {rows : List ConnectivityRow}
    (hids : (gaps.map DiscoveryGap.gapId).Nodup)
    (hrows : rows.Perm (gaps.flatMap DiscoveryGap.rows)) (start stop : Int) :
    connectivityGapSeconds start stop rows = (gaps.map fun gap =>
      if start ≤ gap.downAt then extractEpoch (gap.overlap start stop) else 0).sum := by
  rw [connectivityGapSeconds_congr hrows, connectivityGapSeconds]
  have hgroup : ∀ gap ∈ gaps, ((gaps.flatMap DiscoveryGap.rows).filter fun row =>
      start ≤ row.observedAt ∧ row.observedAt < stop).filter (fun row => row.gapId = gap.gapId) =
        gap.seen start stop := by
    intro gap hgap
    rw [List.filter_comm, filter_rows hids hgap, DiscoveryGap.seen]
  set seen := (gaps.flatMap DiscoveryGap.rows).filter fun row =>
    start ≤ row.observedAt ∧ row.observedAt < stop with hseen
  have hsubset : (seen.map ConnectivityRow.gapId).dedup.toFinset ⊆
      (gaps.map DiscoveryGap.gapId).toFinset := by
    intro gapId hmem
    rw [List.mem_toFinset, List.mem_dedup, List.mem_map] at hmem
    obtain ⟨row, hrow, rfl⟩ := hmem
    obtain ⟨gap, hgap, hown⟩ := List.mem_flatMap.mp (List.mem_filter.mp hrow).1
    rw [List.mem_toFinset, gapId_of_mem_rows hown]
    exact List.mem_map_of_mem hgap
  have hzero : ∀ gapId ∈ (gaps.map DiscoveryGap.gapId).toFinset,
      gapId ∉ (seen.map ConnectivityRow.gapId).dedup.toFinset →
      groupSeconds start stop (seen.filter fun row => row.gapId = gapId) = 0 := by
    intro gapId _ hmiss
    have hnone : seen.filter (fun row => row.gapId = gapId) = [] := by
      rw [List.filter_eq_nil_iff]
      intro row hrow heq
      refine hmiss ?_
      rw [List.mem_toFinset, List.mem_dedup, ← of_decide_eq_true heq]
      exact List.mem_map_of_mem hrow
    rw [hnone]
    rfl
  rw [← List.sum_toFinset _ (List.nodup_dedup _), Finset.sum_subset hsubset hzero,
    List.sum_toFinset _ hids, List.map_map]
  refine congrArg List.sum (List.map_congr_left fun gap hgap => ?_)
  rw [Function.comp_apply, hgroup gap hgap, groupSeconds_seen]

/-! ### Complete gap seconds -/

/-- A sum that leaves terms out is whole exactly when these are zero. -/
theorem sum_kept_iff {α : Type} {p : α → Prop} [DecidablePred p] {f : α → ℚ} {xs : List α}
    (hf : ∀ a, 0 ≤ f a) :
    (xs.map fun a => if p a then f a else 0).sum = (xs.map f).sum ↔
      ∀ a ∈ xs, ¬ p a → f a = 0 := by
  induction xs with
  | nil => simp
  | cons a rest ih =>
    have hle : (rest.map fun a => if p a then f a else 0).sum ≤ (rest.map f).sum := by
      refine List.sum_le_sum fun b _ => ?_
      split
      · exact le_rfl
      · exact hf b
    have ha := hf a
    rw [List.map_cons, List.map_cons, List.sum_cons, List.sum_cons, List.forall_mem_cons, ← ih]
    split
    · next hp => simp [hp]
    · next hp =>
      constructor
      · intro h
        constructor
        · intro _
          linarith
        · linarith
      · intro h
        rw [h.1 hp, h.2]

theorem extractEpoch_eq_zero {n : Nat} : extractEpoch n = 0 ↔ n = 0 := by
  simp [extractEpoch]

/-- The gap seconds are the time in which a gap is open, exactly when every gap that began before
the window had ended by its start. -/
theorem gap_seconds_complete_iff {gaps : List DiscoveryGap} {rows : List ConnectivityRow}
    (hgaps : SeparateGaps gaps) (hrows : rows.Perm (gaps.flatMap DiscoveryGap.rows))
    {start stop : Int} (hwindow : start < stop) :
    connectivityGapSeconds start stop rows = extractEpoch (openInstants start stop gaps).card ↔
      ∀ gap ∈ gaps, gap.downAt < start → ∃ up ∈ gap.upAt, up ≤ start := by
  have htotal : extractEpoch (openInstants start stop gaps).card =
      (gaps.map fun gap => extractEpoch (gap.overlap start stop)).sum := by
    rw [card_openInstants hgaps.apart]
    generalize gaps = remaining
    induction remaining with
    | nil => simp [extractEpoch]
    | cons gap rest ih =>
      rw [List.map_cons, List.sum_cons, List.map_cons, List.sum_cons, ← ih]
      simp only [extractEpoch]
      push_cast
      ring
  rw [connectivityGapSeconds_rows hgaps.ids hrows, htotal, sum_kept_iff]
  · refine forall₂_congr fun gap _ => ?_
    rw [not_le, extractEpoch_eq_zero, DiscoveryGap.overlap]
    refine imp_congr_right fun hbefore => ?_
    cases gap.upAt with
    | none =>
      simp only [Option.getD_none, Option.not_mem_none, false_and, exists_false, iff_false]
      omega
    | some up =>
      simp only [Option.getD_some, Option.mem_some_iff, exists_eq_left']
      omega
  · intro gap
    rw [extractEpoch]
    positivity

/-- A gap that ended before the window and one that is still open. -/
def closedAndOpenGaps : List DiscoveryGap :=
  [⟨1, -seconds 20, some (-seconds 10), by decide⟩, ⟨2, seconds 30, none, by decide⟩]

theorem separate_closedAndOpenGaps : SeparateGaps closedAndOpenGaps := by
  refine ⟨by decide, ?_⟩
  rw [closedAndOpenGaps, List.pairwise_pair]
  intro t h
  have hup := h.1.2 (-seconds 10) rfl
  have hdown := h.2.1
  simp only [seconds] at hup hdown
  omega

/-- Thirty seconds are reported of a window of sixty. -/
theorem gap_seconds_of_open_gap :
    connectivityGapSeconds 0 (seconds 60) (closedAndOpenGaps.flatMap DiscoveryGap.rows) =
      extractEpoch (openInstants 0 (seconds 60) closedAndOpenGaps).card := by
  refine (gap_seconds_complete_iff separate_closedAndOpenGaps (.refl _) (by decide)).mpr ?_
  decide

/-- A gap that is open over the whole window. -/
def overnightGap : DiscoveryGap := ⟨1, -seconds 10, some (seconds 70), by decide⟩

/-- Nothing is reported of a window of sixty seconds, in all of which a gap is open. -/
theorem gap_seconds_of_overnight_gap :
    SeparateGaps [overnightGap] ∧
    connectivityGapSeconds 0 (seconds 60) overnightGap.rows = 0 ∧
    extractEpoch (openInstants 0 (seconds 60) [overnightGap]).card = 60 := by
  have happart : [overnightGap].Pairwise fun a b => ∀ t, ¬ (a.OpenAt t ∧ b.OpenAt t) :=
    List.pairwise_singleton _ _
  refine ⟨⟨List.nodup_singleton _, happart⟩, by decide, ?_⟩
  have hsum : ([overnightGap].map (DiscoveryGap.overlap 0 (seconds 60))).sum = 60000000 := by decide
  rw [card_openInstants happart, hsum, extractEpoch]
  norm_num

end PumpResearch.Reporting
