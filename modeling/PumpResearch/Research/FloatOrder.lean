import PumpResearch.Research.Features

/-! What the laws of outcome labels need of floats and Decimals. Rounding keeps the order, and
comparison orders the floats that Decimals round to. -/
namespace PumpResearch.Research
open Numerics

structure OrderedFloats (F : Type) [Numerics F] : Prop where
  mono : ∀ {a b : ℚ}, a ≤ b → le (ofDecimal a : F) (ofDecimal b) = true
  trans : ∀ {a b c : ℚ}, le (ofDecimal a : F) (ofDecimal b) = true →
    le (ofDecimal b : F) (ofDecimal c) = true → le (ofDecimal a : F) (ofDecimal c) = true
  lt_iff : ∀ a b : ℚ, lt (ofDecimal a : F) (ofDecimal b) = !le (ofDecimal b : F) (ofDecimal a)
  fabs : ∀ a : ℚ, fabs (ofDecimal a : F) = ofDecimal |a|

section Extrema
variable {F : Type} [Numerics F]

/-- A fold that keeps the better of two rounded Decimals ends at one that none is better than. -/
theorem foldl_best_spec {R : ℚ → ℚ → Prop} [DecidableRel R] {step : F → F → F}
    (htotal : ∀ a b, R a b ∨ R b a) (htrans : ∀ a b c, R a b → R b c → R a c)
    (hstep : ∀ a b, step (ofDecimal a) (ofDecimal b) = if R b a then ofDecimal a else ofDecimal b)
    (x : ℚ) (xs : List ℚ) :
    ∃ m ∈ x :: xs, (xs.map ofDecimal).foldl step (ofDecimal x) = (ofDecimal m : F) ∧
      ∀ y ∈ x :: xs, R y m := by
  induction xs generalizing x with
  | nil => exact ⟨x, List.mem_cons_self, rfl, by simpa using htotal x x⟩
  | cons z rest ih =>
    rw [List.map_cons, List.foldl_cons, hstep]
    by_cases hz : R z x
    · rw [if_pos hz]
      obtain ⟨m, hm, hfold, hall⟩ := ih x
      refine ⟨m, by grind, hfold, ?_⟩
      intro y hy
      have hx := hall x List.mem_cons_self
      cases List.mem_cons.mp hy with
      | inl heq => rwa [heq]
      | inr hrest =>
        cases List.mem_cons.mp hrest with
        | inl heq =>
          rw [heq]
          exact htrans z x m hz hx
        | inr hmem => exact hall y (List.mem_cons_of_mem _ hmem)
    · rw [if_neg hz]
      obtain ⟨m, hm, hfold, hall⟩ := ih z
      refine ⟨m, List.mem_cons_of_mem _ hm, hfold, ?_⟩
      intro y hy
      cases List.mem_cons.mp hy with
      | inl heq =>
        rw [heq]
        exact htrans x z m ((htotal x z).resolve_right hz) (hall z List.mem_cons_self)
      | inr hrest => exact hall y hrest

theorem OrderedFloats.total (laws : OrderedFloats F) (a b : ℚ) :
    le (ofDecimal a : F) (ofDecimal b) = true ∨ le (ofDecimal b : F) (ofDecimal a) = true :=
  (le_total a b).imp laws.mono laws.mono

/-- The greatest float of a list of rounded Decimals, if there is one. -/
theorem floatMax_spec (laws : OrderedFloats F) {xs : List ℚ} {value : F}
    (h : floatMax (xs.map ofDecimal) = some value) :
    ∃ m ∈ xs, value = ofDecimal m ∧ ∀ y ∈ xs, le (ofDecimal y : F) value = true := by
  cases xs with
  | nil => cases h
  | cons x rest =>
    obtain ⟨m, hm, hfold, hall⟩ := @foldl_best_spec F _
      (fun a b => le (ofDecimal a : F) (ofDecimal b) = true) _
      (fun m y => if lt m y then y else m) laws.total (fun _ _ _ => laws.trans)
      (fun a b => by
        rw [laws.lt_iff]
        cases le (ofDecimal b : F) (ofDecimal a) with
        | true => rfl
        | false => rfl) x rest
    have hvalue : value = ofDecimal m := (Option.some.inj h).symm.trans hfold
    exact ⟨m, hm, hvalue, fun y hy => hvalue ▸ hall y hy⟩

theorem floatMin_spec (laws : OrderedFloats F) {xs : List ℚ} {value : F}
    (h : floatMin (xs.map ofDecimal) = some value) :
    ∃ m ∈ xs, value = ofDecimal m ∧ ∀ y ∈ xs, le value (ofDecimal y : F) = true := by
  cases xs with
  | nil => cases h
  | cons x rest =>
    obtain ⟨m, hm, hfold, hall⟩ := @foldl_best_spec F _
      (fun a b => le (ofDecimal b : F) (ofDecimal a) = true) _
      (fun m y => if lt y m then y else m) (fun a b => laws.total b a)
      (fun _ _ _ hab hbc => laws.trans hbc hab)
      (fun a b => by
        rw [laws.lt_iff]
        cases le (ofDecimal a : F) (ofDecimal b) with
        | true => rfl
        | false => rfl) x rest
    have hvalue : value = ofDecimal m := (Option.some.inj h).symm.trans hfold
    exact ⟨m, hm, hvalue, fun y hy => hvalue ▸ hall y hy⟩

theorem floatMax_eq_none {xs : List F} : floatMax xs = none ↔ xs = [] := by
  cases xs with
  | nil => simp [floatMax]
  | cons x rest => simp [floatMax]

theorem floatMin_eq_none {xs : List F} : floatMin xs = none ↔ xs = [] := by
  cases xs with
  | nil => simp [floatMin]
  | cons x rest => simp [floatMin]

end Extrema

/-- Exact arithmetic rounds nothing. -/
theorem orderedFloats_exact : @OrderedFloats ℚ exactNumerics :=
  @OrderedFloats.mk ℚ exactNumerics (fun h => decide_eq_true h)
    (fun hab hbc => decide_eq_true ((of_decide_eq_true hab).trans (of_decide_eq_true hbc)))
    (fun a b => by
      have hlt : decide (a < b) = !decide (b ≤ a) := by
        rw [← decide_not]
        exact decide_eq_decide.mpr not_le.symm
      exact hlt)
    (fun _ => rfl)

end PumpResearch.Research
