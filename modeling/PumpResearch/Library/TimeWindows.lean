import Mathlib

/-! How many entries of an ordered list of times lie in a half-open window. A window has room for
at most `n` exactly when entries that are `n` places apart are a width apart. -/
namespace TimeWindows

variable {τ : Type*} [AddCommGroup τ] [LinearOrder τ]

/-- The entries in a half-open window. -/
def inWindow (width t : τ) (times : List τ) : Nat :=
  times.countP fun x => t ≤ x && x < t + width

/-- Entries that are `n` places apart are a width apart. -/
def Apart (width : τ) (n : Nat) (times : List τ) : Prop :=
  ∀ i x y, times[i]? = some x → times[i + n]? = some y → x + width ≤ y

theorem Apart.tail {width a : τ} {n : Nat} {times : List τ} (h : Apart width n (a :: times)) :
    Apart width n times := by
  intro i x y hx hy
  refine h (i + 1) x y hx ?_
  rw [Nat.add_right_comm]
  exact hy

/-- One more entry has to be apart from the entry `n` places before it. -/
theorem apart_concat_iff {width y : τ} {n : Nat} {times : List τ} (hn : 0 < n) :
    Apart width n (times ++ [y]) ↔
      Apart width n times ∧
        ∀ i x, i + n = times.length → times[i]? = some x → x + width ≤ y := by
  constructor
  · intro h
    constructor
    · intro i x z hx hz
      have hlt := (List.getElem?_eq_some_iff.mp hz).1
      refine h i x z ?_ ?_
      · rw [List.getElem?_append_left (by omega), hx]
      · rw [List.getElem?_append_left hlt, hz]
    · intro i x hi hx
      refine h i x y ?_ ?_
      · rw [List.getElem?_append_left (by omega), hx]
      · rw [hi, List.getElem?_concat_length]
  · intro ⟨h, hlast⟩ i x z hx hz
    have hlt := (List.getElem?_eq_some_iff.mp hz).1
    rw [List.length_append, List.length_singleton] at hlt
    rw [List.getElem?_append_left (by omega)] at hx
    cases Nat.lt_or_eq_of_le (Nat.le_of_lt_succ hlt) with
    | inl hbefore =>
      rw [List.getElem?_append_left hbefore] at hz
      exact h i x z hx hz
    | inr hend =>
      rw [hend, List.getElem?_concat_length] at hz
      exact Option.some.inj hz ▸ hlast i x hend hx

variable [IsOrderedAddMonoid τ]

/-- Past the entry `n` places on, nothing lies in the window of the first entry. -/
theorem countP_le_of_apart {width t : τ} {n : Nat} {times : List τ}
    (hsorted : times.Pairwise fun a b => a ≤ b) (h : Apart width (n + 1) times) :
    inWindow width t times ≤ n + 1 := by
  induction times with
  | nil => exact Nat.zero_le _
  | cons a rest ih =>
    obtain ⟨_, hrest⟩ := List.pairwise_cons.mp hsorted
    rw [inWindow, List.countP_cons]
    by_cases ha : (t ≤ a && a < t + width) = true
    · rw [Bool.and_eq_true, decide_eq_true_eq, decide_eq_true_eq] at ha
      have hlate : (rest.drop n).countP (fun x => t ≤ x && x < t + width) = 0 := by
        rw [List.countP_eq_zero]
        intro x hx
        obtain ⟨i, hi⟩ := List.mem_iff_getElem?.mp hx
        rw [List.getElem?_drop] at hi
        have hfirst : ∃ y, rest[n]? = some y ∧ y ≤ x := by
          obtain ⟨hlt, hget⟩ := List.getElem?_eq_some_iff.mp hi
          refine ⟨rest[n], List.getElem?_eq_getElem (by omega), ?_⟩
          rw [← hget]
          cases Nat.eq_zero_or_pos i with
          | inl hzero => simp only [hzero, Nat.add_zero, le_refl]
          | inr hpos => exact List.pairwise_iff_getElem.mp hrest n (n + i) (by omega) hlt (by omega)
        obtain ⟨y, hy, hyx⟩ := hfirst
        have hapart := h 0 a y rfl (by rw [Nat.zero_add]; exact hy)
        have hafter : t + width ≤ x :=
          ((add_le_add_left ha.1 width).trans hapart).trans hyx
        simp [not_lt.mpr hafter]
      have hearly : (rest.take n).countP (fun x => t ≤ x && x < t + width) ≤ n :=
        List.countP_le_length.trans (List.length_take_le n rest)
      rw [← List.take_append_drop n rest, List.countP_append, hlate]
      split <;> omega
    · rw [if_neg ha]
      exact ih hrest h.tail

/-- No window has room for more than `n` entries exactly when entries `n` places apart are a
width apart. -/
theorem forall_inWindow_le_iff {width : τ} (hwidth : 0 < width) {n : Nat} {times : List τ}
    (hsorted : times.Pairwise fun a b => a ≤ b) :
    (∀ t, inWindow width t times ≤ n) ↔ Apart width n times := by
  constructor
  · intro h i x y hx hy
    by_contra hlt
    have hlt := not_le.mp hlt
    obtain ⟨hiy, hgety⟩ := List.getElem?_eq_some_iff.mp hy
    obtain ⟨hix, hgetx⟩ := List.getElem?_eq_some_iff.mp hx
    have hsub : ((times.drop i).take (n + 1)).Sublist times :=
      (List.take_sublist _ _).trans (List.drop_sublist _ _)
    have hall : ∀ z ∈ (times.drop i).take (n + 1), (x ≤ z && z < x + width) = true := by
      intro z hz
      obtain ⟨j, hj⟩ := List.mem_iff_getElem?.mp hz
      obtain ⟨hjlt, hgetz⟩ := List.getElem?_eq_some_iff.mp hj
      rw [List.length_take, List.length_drop] at hjlt
      rw [List.getElem_take, List.getElem_drop] at hgetz
      have hxz : x ≤ z := by
        rw [← hgetx, ← hgetz]
        cases Nat.eq_zero_or_pos j with
        | inl hzero => simp only [hzero, Nat.add_zero, le_refl]
        | inr hpos => exact List.pairwise_iff_getElem.mp hsorted i (i + j) hix (by omega) (by omega)
      have hzy : z ≤ y := by
        rw [← hgety, ← hgetz]
        cases Nat.eq_or_lt_of_le (show j ≤ n by omega) with
        | inl heq => simp only [heq, le_refl]
        | inr hlt => exact List.pairwise_iff_getElem.mp hsorted (i + j) (i + n) (by omega) hiy (by omega)
      simp [hxz, hzy.trans_lt hlt]
    have hcount : ((times.drop i).take (n + 1)).countP (fun z => x ≤ z && z < x + width) = n + 1 := by
      rw [List.countP_eq_length.mpr hall, List.length_take, List.length_drop]
      omega
    have hle := hsub.countP_le (p := fun z => decide (x ≤ z) && decide (z < x + width))
    rw [hcount] at hle
    exact absurd (h x) (not_le.mpr hle)
  · intro h t
    cases n with
    | succ n => exact countP_le_of_apart hsorted h
    | zero =>
      cases times with
      | nil => exact le_rfl
      | cons a rest =>
        have hself := h 0 a a rfl rfl
        exact absurd hself (not_le.mpr (lt_add_of_pos_right a hwidth))

/-- Neighbours that keep a gap are `n` gaps apart after `n` places. -/
theorem apart_of_gap {gap : τ} {times : List τ}
    (h : times.Pairwise fun a b => a + gap ≤ b) (n : Nat) (hgap : 0 ≤ gap) :
    Apart (n • gap) n times := by
  intro i x y hx hy
  induction n generalizing y with
  | zero =>
    rw [Nat.add_zero, hx] at hy
    rw [zero_nsmul, add_zero, Option.some.inj hy]
  | succ n ih =>
    obtain ⟨hiy, hgety⟩ := List.getElem?_eq_some_iff.mp hy
    have hprevious := ih times[i + n] (List.getElem?_eq_getElem (by omega))
    have hstep := List.pairwise_iff_getElem.mp h (i + n) (i + (n + 1)) (by omega) hiy (by omega)
    rw [hgety] at hstep
    calc x + (n + 1) • gap = x + n • gap + gap := by rw [succ_nsmul, add_assoc]
      _ ≤ times[i + n] + gap := by gcongr
      _ ≤ y := hstep

end TimeWindows
