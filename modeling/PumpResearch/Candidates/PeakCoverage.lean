import PumpResearch.Candidates.EpochSimulation
import PumpResearch.Library.Overlaps

/-! The sweep of `_peak_intervals`. Its heap holds the ends of the intervals that are open at the
current start, so its greatest size is the greatest overlap. -/
namespace PumpResearch.Candidates

open Overlaps

/-- The order of tuples. -/
theorem pairwise_sorted (intervals : List (Int × Int)) :
    (intervals.mergeSort fun a b => a.1 < b.1 ∨ a.1 = b.1 ∧ a.2 ≤ b.2).Pairwise
      fun a b => a.1 ≤ b.1 := by
  have hpairwise : (intervals.mergeSort fun a b => a.1 < b.1 ∨ a.1 = b.1 ∧ a.2 ≤ b.2).Pairwise
      fun a b => decide (a.1 < b.1 ∨ a.1 = b.1 ∧ a.2 ≤ b.2) = true := by
    refine List.pairwise_mergeSort ?_ ?_ intervals
    · intro a b c
      simp only [decide_eq_true_eq]
      omega
    · intro a b
      simp only [Bool.or_eq_true, decide_eq_true_eq]
      omega
  refine hpairwise.imp ?_
  intro a b h
  rw [decide_eq_true_eq] at h
  omega

/-- Popping the ends that are due keeps those after the start. -/
theorem dropWhile_le_eq_filter {active : List Int} (hsorted : active.Pairwise fun a b => a ≤ b)
    (start : Int) : active.dropWhile (· ≤ start) = active.filter (start < ·) := by
  induction active with
  | nil => rfl
  | cons a rest ih =>
    obtain ⟨hfirst, hrest⟩ := List.pairwise_cons.mp hsorted
    by_cases ha : a ≤ start
    · rw [List.dropWhile_cons_of_pos (by simpa using ha), ih hrest,
        List.filter_cons_of_neg (by simpa using ha)]
    · rw [List.dropWhile_cons_of_neg (by simpa using ha), List.filter_eq_self.mpr]
      intro b hb
      cases List.mem_cons.mp hb with
      | inl heq => rw [heq]; simpa using ha
      | inr hb =>
        have hab := hfirst b hb
        rw [decide_eq_true_eq]
        omega

/-- The heap before an interval: the ends after the start before it, least first. -/
structure ActiveEnds (before : List (Int × Int)) (bound : Int) (active : List Int) : Prop where
  sorted : active.Pairwise fun a b => a ≤ b
  perm : active.Perm ((before.map Prod.snd).filter (bound < ·))

theorem ActiveEnds.step {before : List (Int × Int)} {bound start finish : Int} {active : List Int}
    (h : ActiveEnds before bound active) (hbound : bound ≤ start) (hspan : start < finish) :
    ActiveEnds (before ++ [(start, finish)]) start
      ((active.dropWhile (· ≤ start)).orderedInsert (· ≤ ·) finish) := by
  rw [dropWhile_le_eq_filter h.sorted]
  refine ⟨(h.sorted.filter _).orderedInsert _ _, ?_⟩
  rw [List.map_append, List.filter_append, List.map_singleton,
    List.filter_cons_of_pos (by simpa using hspan), List.filter_nil]
  have hkeep : ((before.map Prod.snd).filter (bound < ·)).filter (start < ·) =
      (before.map Prod.snd).filter (start < ·) := by
    rw [List.filter_filter]
    refine List.filter_congr ?_
    intro finish' _
    rw [Bool.and_eq_left_iff_imp]
    intro hlt
    rw [decide_eq_true_eq] at hlt ⊢
    omega
  have hactive : (active.filter (start < ·)).Perm ((before.map Prod.snd).filter (start < ·)) := by
    rw [← hkeep]
    exact h.perm.filter _
  exact ((List.perm_orderedInsert _ _ _).trans (hactive.cons finish)).trans
    (List.perm_append_singleton _ _).symm

/-- The heap has one end for every interval counted at the start. -/
theorem ActiveEnds.length {before : List (Int × Int)} {bound : Int} {active : List Int}
    (h : ActiveEnds before bound active) :
    active.length = before.countP fun other => bound < other.2 := by
  rw [h.perm.length_eq, ← List.countP_eq_length_filter, List.countP_map]
  rfl

/-- The sweep takes the greatest of the counts at the starts. -/
theorem peakOf_eq {before : List (Int × Int)} {bound : Int} {active : List Int}
    (h : ActiveEnds before bound active) (peak : Nat) {rest : List (Int × Int)}
    (hsorted : rest.Pairwise fun a b => a.1 ≤ b.1) (hbound : ∀ span ∈ rest, bound ≤ span.1)
    (hspans : ∀ span ∈ rest, span.1 < span.2) :
    peakOf active peak rest = (startCounts before rest).foldl max peak := by
  induction rest generalizing before bound active peak with
  | nil => rfl
  | cons span rest ih =>
    obtain ⟨hfirst, hrest⟩ := List.pairwise_cons.mp hsorted
    have hnext := h.step (hbound span List.mem_cons_self) (hspans span List.mem_cons_self)
    rw [peakOf, ih hnext _ hrest hfirst fun other hother => hspans other (List.mem_cons_of_mem _ hother),
      hnext.length]
    rfl

/-- The peak is the greatest overlap, whatever the order of the intervals. -/
theorem peakIntervals_isGreatest {intervals : List (Int × Int)}
    (h : ∀ span ∈ intervals, span.1 < span.2) :
    IsGreatest {n | ∃ t, n = intervals.countP fun span => span.1 ≤ t && t < span.2}
        (peakIntervals intervals) ∧
      ∀ permuted, permuted.Perm intervals → peakIntervals permuted = peakIntervals intervals := by
  have hgreatest : ∀ spans : List (Int × Int), (∀ span ∈ spans, span.1 < span.2) →
      IsGreatest (Set.range (overlap spans)) (peakIntervals spans) := by
    intro spans hspans
    have hperm := List.mergeSort_perm spans fun a b => a.1 < b.1 ∨ a.1 = b.1 ∧ a.2 ≤ b.2
    have hsorted := pairwise_sorted spans
    rw [peakIntervals]
    generalize spans.mergeSort (fun a b => a.1 < b.1 ∨ a.1 = b.1 ∧ a.2 ≤ b.2) = sorted
      at hperm hsorted ⊢
    have hoverlap : overlap sorted = overlap spans := funext fun t => overlap_perm hperm t
    have hall : ∀ span ∈ sorted, span.1 < span.2 := fun span hspan =>
      hspans span (hperm.mem_iff.mp hspan)
    have hstart : ∃ bound, ∀ span ∈ sorted, bound ≤ span.1 := by
      cases sorted with
      | nil => exact ⟨0, by simp⟩
      | cons span rest =>
        refine ⟨span.1, ?_⟩
        intro other hother
        cases List.mem_cons.mp hother with
        | inl heq => rw [heq]
        | inr hrest => exact (List.pairwise_cons.mp hsorted).1 other hrest
    obtain ⟨bound, hbound⟩ := hstart
    have hempty : ActiveEnds [] bound [] := ⟨.nil, .nil⟩
    rw [peakOf_eq hempty 0 hsorted hbound hall, ← hoverlap]
    exact isGreatest_startCounts hsorted
  have hset (spans : List (Int × Int)) :
      {n | ∃ t, n = spans.countP fun span => span.1 ≤ t && t < span.2} =
        Set.range (overlap spans) := by
    ext n
    exact exists_congr fun t => eq_comm
  refine ⟨?_, ?_⟩
  · rw [hset]
    exact hgreatest intervals h
  · intro permuted hperm
    have hpermuted := hgreatest permuted fun span hspan => h span (hperm.mem_iff.mp hspan)
    rw [funext fun t => overlap_perm hperm t] at hpermuted
    exact hpermuted.unique (hgreatest intervals h)

/-- An interval that starts where another ends does not overlap it. -/
theorem peakIntervals_touching :
    IsGreatest {n | ∃ t : Int, n = [(3, 5), (0, 3), (2, 4)].countP fun span : Int × Int =>
        span.1 ≤ t && t < span.2} (peakIntervals [(3, 5), (0, 3), (2, 4)]) ∧
      ∀ permuted, permuted.Perm [(3, 5), (0, 3), (2, 4)] →
        peakIntervals permuted = peakIntervals [(3, 5), (0, 3), (2, 4)] :=
  peakIntervals_isGreatest (by decide)

end PumpResearch.Candidates
