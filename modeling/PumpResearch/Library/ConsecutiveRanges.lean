import PumpResearch.Library.KeyedOrder

/-! Half-open ranges of integers that follow one another, and what is selected by them. -/
namespace ConsecutiveRanges
open KeyedOrder

/-- A time lies in a half-open range. -/
def within (range : Int × Int) (t : Int) : Bool := decide (range.1 ≤ t) && decide (t < range.2)

/-- The ranges lead from the first time to the last, each starting where the one before ends. -/
def Consecutive (start : Int) : List (Int × Int) → Int → Prop
  | [], finish => start = finish
  | range :: rest, finish => range.1 = start ∧ range.1 < range.2 ∧ Consecutive range.2 rest finish

variable {start finish : Int} {ranges : List (Int × Int)}

theorem Consecutive.le (h : Consecutive start ranges finish) : start ≤ finish := by
  induction ranges generalizing start with
  | nil => exact h.le
  | cons range rest ih =>
    obtain ⟨hstart, hlt, hrest⟩ := h
    have hle := ih hrest
    omega

theorem Consecutive.bounds (h : Consecutive start ranges finish) {range : Int × Int}
    (hmem : range ∈ ranges) : start ≤ range.1 ∧ range.2 ≤ finish := by
  induction ranges generalizing start with
  | nil => cases hmem
  | cons first rest ih =>
    obtain ⟨hstart, hlt, hrest⟩ := h
    cases List.mem_cons.mp hmem with
    | inl heq =>
      have hle := hrest.le
      rw [heq]
      omega
    | inr hin =>
      have hbounds := ih hrest hin
      omega

theorem Consecutive.bounds_le (h : Consecutive start ranges finish) {range : Int × Int}
    (hmem : range ∈ ranges) : range.1 ≤ range.2 := by
  induction ranges generalizing start with
  | nil => cases hmem
  | cons first rest ih =>
    obtain ⟨_, hlt, hrest⟩ := h
    cases List.mem_cons.mp hmem with
    | inl heq =>
      rw [heq]
      exact hlt.le
    | inr hin => exact ih hrest hin

theorem Consecutive.nodup (h : Consecutive start ranges finish) : ranges.Nodup := by
  induction ranges generalizing start with
  | nil => exact List.nodup_nil
  | cons range rest ih =>
    obtain ⟨_, hlt, hrest⟩ := h
    refine List.nodup_cons.mpr ⟨fun hmem => ?_, ih hrest⟩
    have hbounds := hrest.bounds hmem
    omega

/-- Ranges from one time to a later one end with it. -/
theorem Consecutive.exists_last (h : Consecutive start ranges finish) (hlt : start < finish) :
    ∃ range ∈ ranges, range.2 = finish := by
  induction ranges generalizing start with
  | nil =>
    have heq : start = finish := h
    omega
  | cons range rest ih =>
    obtain ⟨_, _, hrest⟩ := h
    by_cases hlast : range.2 = finish
    · exact ⟨range, List.mem_cons_self, hlast⟩
    · have hle := hrest.le
      obtain ⟨other, hother, hend⟩ := ih hrest (by omega)
      exact ⟨other, List.mem_cons_of_mem _ hother, hend⟩

/-- A time of the whole range lies in one of them. -/
theorem Consecutive.exists_within (h : Consecutive start ranges finish) {t : Int}
    (ht : within (start, finish) t = true) : ∃ range ∈ ranges, within range t = true := by
  induction ranges generalizing start with
  | nil =>
    have hlt : start < start := by
      simp only [within, Bool.and_eq_true, decide_eq_true_eq] at ht
      have heq : start = finish := h
      omega
    exact absurd hlt (lt_irrefl start)
  | cons range rest ih =>
    obtain ⟨hstart, hlt, hrest⟩ := h
    by_cases hin : t < range.2
    · refine ⟨range, List.mem_cons_self, ?_⟩
      simp only [within, Bool.and_eq_true, decide_eq_true_eq] at ht ⊢
      omega
    · have hlater : within (range.2, finish) t = true := by
        simp only [within, Bool.and_eq_true, decide_eq_true_eq] at ht ⊢
        omega
      obtain ⟨other, hother, hwithin⟩ := ih hrest hlater
      exact ⟨other, List.mem_cons_of_mem _ hother, hwithin⟩

theorem Consecutive.within_whole (h : Consecutive start ranges finish) {range : Int × Int}
    (hmem : range ∈ ranges) {t : Int} (ht : within range t = true) :
    within (start, finish) t = true := by
  have hbounds := h.bounds hmem
  simp only [within, Bool.and_eq_true, decide_eq_true_eq] at ht ⊢
  omega

/-- Selecting by consecutive ranges, one after the other, selects by the whole range. -/
theorem Consecutive.flatMap_filter_perm {α : Type} (h : Consecutive start ranges finish)
    (p : α → Bool) (time : α → Int) (xs : List α) :
    (ranges.flatMap fun range => xs.filter fun x => p x && within range (time x)).Perm
      (xs.filter fun x => p x && within (start, finish) (time x)) := by
  induction ranges generalizing start with
  | nil =>
    have hnone : (xs.filter fun x => p x && within (start, finish) (time x)) = [] := by
      rw [List.filter_eq_nil_iff]
      intro x _ hx
      obtain ⟨_, hmem, _⟩ := h.exists_within (Bool.and_eq_true_iff.mp hx).2
      cases hmem
    rw [hnone]
    exact List.Perm.refl _
  | cons range rest ih =>
    obtain ⟨hstart, hlt, hrest⟩ := h
    have hle := hrest.le
    rw [List.flatMap_cons]
    refine ((ih hrest).append_left _).trans ?_
    apply filter_append_filter_perm
    · intro x
      rw [← Bool.and_or_distrib_left]
      congr 1
      rw [Bool.eq_iff_iff]
      simp only [within, Bool.and_eq_true, Bool.or_eq_true, decide_eq_true_eq]
      omega
    · intro x hboth
      simp only [within, Bool.and_eq_true, decide_eq_true_eq] at hboth
      omega

end ConsecutiveRanges
