import Mathlib

/-! How many half-open spans overlap at a time. The most that overlap are found at the starts of
the spans, each counted among the spans up to it in order of start. -/
namespace Overlaps

variable {α : Type*} [LinearOrder α]

/-- How many spans a time lies in. -/
def overlap (spans : List (α × α)) (t : α) : Nat :=
  spans.countP fun span => span.1 ≤ t && t < span.2

/-- For every span the number of spans up to it that end after its start. -/
def startCounts (before : List (α × α)) : List (α × α) → List Nat
  | [] => []
  | span :: rest =>
    (before ++ [span]).countP (fun other => span.1 < other.2) ::
      startCounts (before ++ [span]) rest

theorem overlap_perm {spans spans' : List (α × α)} (h : spans.Perm spans') (t : α) :
    overlap spans t = overlap spans' t := h.countP_eq _

theorem mem_startCounts {before spans : List (α × α)} {n : Nat} :
    n ∈ startCounts before spans ↔ ∃ first span rest, spans = first ++ span :: rest ∧
      n = (before ++ first ++ [span]).countP fun other => span.1 < other.2 := by
  induction spans generalizing before with
  | nil => simp [startCounts]
  | cons span spans ih =>
    rw [startCounts, List.mem_cons, ih]
    constructor
    · intro h
      cases h with
      | inl h => exact ⟨[], span, spans, rfl, by rw [List.append_nil]; exact h⟩
      | inr h =>
        obtain ⟨first, other, rest, rfl, hn⟩ := h
        exact ⟨span :: first, other, rest, rfl, by rw [hn, List.append_cons before span first]⟩
    · intro ⟨first, other, rest, hspans, hn⟩
      cases first with
      | nil =>
        obtain ⟨rfl, rfl⟩ := List.cons.inj hspans
        rw [List.append_nil] at hn
        exact .inl hn
      | cons head first =>
        obtain ⟨rfl, rfl⟩ := List.cons.inj hspans
        exact .inr ⟨first, other, rest, rfl, by rw [hn, List.append_cons before span first]⟩

/-- The spans counted at a start all contain it. -/
theorem count_le_overlap {first rest : List (α × α)} {span : α × α}
    (hsorted : (first ++ span :: rest).Pairwise fun a b => a.1 ≤ b.1) :
    (first ++ [span]).countP (fun other => span.1 < other.2) ≤
      overlap (first ++ span :: rest) span.1 := by
  have hcontain : (first ++ [span]).countP (fun other => span.1 < other.2) =
      overlap (first ++ [span]) span.1 := by
    refine List.countP_congr ?_
    intro other hother
    have hstart : other.1 ≤ span.1 := by
      cases List.mem_append.mp hother with
      | inl h => exact (List.pairwise_append.mp hsorted).2.2 other h span List.mem_cons_self
      | inr h => rw [List.mem_singleton.mp h]
    simp [hstart]
  have hsublist : (first ++ [span]).Sublist (first ++ span :: rest) :=
    (List.Sublist.refl first).append (List.singleton_sublist.mpr List.mem_cons_self)
  rw [hcontain]
  exact hsublist.countP_le

/-- A time in some span is in no more spans than are counted at the last one of them. -/
theorem exists_overlap_le {spans : List (α × α)} {t : α} (h : 0 < overlap spans t) :
    ∃ n ∈ startCounts [] spans, overlap spans t ≤ n := by
  induction spans using List.reverseRecOn with
  | nil => exact absurd h (lt_irrefl 0)
  | append_singleton spans last ih =>
    by_cases hlast : (last.1 ≤ t && t < last.2) = true
    · refine ⟨_, mem_startCounts.mpr ⟨spans, last, [], rfl, rfl⟩, ?_⟩
      refine List.countP_mono_left ?_
      intro span _ hspan
      rw [Bool.and_eq_true, decide_eq_true_eq, decide_eq_true_eq] at hlast hspan
      exact decide_eq_true (hlast.1.trans_lt hspan.2)
    · have hsame : overlap (spans ++ [last]) t = overlap spans t := by
        rw [overlap, List.countP_append, List.countP_singleton, if_neg hlast]
        rfl
      rw [hsame] at h ⊢
      obtain ⟨n, hn, hle⟩ := ih h
      obtain ⟨first, span, rest, hspans, hcount⟩ := mem_startCounts.mp hn
      refine ⟨n, mem_startCounts.mpr ⟨first, span, rest ++ [last], ?_, hcount⟩, hle⟩
      rw [hspans, List.append_assoc, List.cons_append]

/-- In order of start the greatest count is the greatest overlap. -/
theorem isGreatest_startCounts [Nonempty α] {spans : List (α × α)}
    (hsorted : spans.Pairwise fun a b => a.1 ≤ b.1) :
    IsGreatest (Set.range (overlap spans)) ((startCounts [] spans).foldl max 0) := by
  obtain ⟨hmem, hle⟩ := List.max?_eq_some_iff.mp
    (rfl : (0 :: startCounts [] spans).max? = some ((startCounts [] spans).foldl max 0))
  generalize (startCounts [] spans).foldl max 0 = peak at hmem hle ⊢
  have hbound : ∀ t, overlap spans t ≤ peak := by
    intro t
    cases Nat.eq_zero_or_pos (overlap spans t) with
    | inl hzero =>
      rw [hzero]
      exact Nat.zero_le _
    | inr hpos =>
      obtain ⟨n, hn, hcount⟩ := exists_overlap_le hpos
      exact hcount.trans (hle n (List.mem_cons_of_mem _ hn))
  constructor
  · cases List.mem_cons.mp hmem with
    | inl hzero =>
      obtain ⟨t⟩ := ‹Nonempty α›
      exact ⟨t, le_antisymm (hbound t) (hzero ▸ Nat.zero_le _)⟩
    | inr hcount =>
      obtain ⟨first, span, rest, rfl, rfl⟩ := mem_startCounts.mp hcount
      exact ⟨span.1, le_antisymm (hbound span.1) (count_le_overlap hsorted)⟩
  · intro n hn
    obtain ⟨t, rfl⟩ := hn
    exact hbound t

end Overlaps
