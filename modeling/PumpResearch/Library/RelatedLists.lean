import Mathlib

/-! Lists related item by item. -/
namespace RelatedLists
variable {α β γ : Type*}

theorem map_eq_of_forall₂ {R : α → β → Prop} {f : α → γ} {g : β → γ} {xs : List α} {ys : List β}
    (h : List.Forall₂ R xs ys) (hR : ∀ a b, R a b → f a = g b) : xs.map f = ys.map g := by
  induction h with
  | nil => rfl
  | cons hab _ ih => rw [List.map_cons, List.map_cons, hR _ _ hab, ih]

theorem exists_related_left {R : α → β → Prop} {xs : List α} {ys : List β}
    (h : List.Forall₂ R xs ys) {b : β} (hb : b ∈ ys) : ∃ a ∈ xs, R a b := by
  induction h with
  | nil => cases hb
  | cons hab _ ih =>
    cases List.mem_cons.mp hb with
    | inl heq =>
      subst heq
      exact ⟨_, List.mem_cons_self, hab⟩
    | inr hmem =>
      obtain ⟨a, ha, hR⟩ := ih hmem
      exact ⟨a, List.mem_cons_of_mem _ ha, hR⟩

theorem exists_related_right {R : α → β → Prop} {xs : List α} {ys : List β}
    (h : List.Forall₂ R xs ys) {a : α} (ha : a ∈ xs) : ∃ b ∈ ys, R a b :=
  exists_related_left (List.Forall₂.flip h) ha

/-- A relation that reaches something from every item relates the list to another. -/
theorem exists_related_list {R : α → β → Prop} {xs : List α} (h : ∀ a ∈ xs, ∃ b, R a b) :
    ∃ ys, List.Forall₂ R xs ys := by
  induction xs with
  | nil => exact ⟨[], .nil⟩
  | cons x xs ih =>
    obtain ⟨b, hb⟩ := h x (by simp)
    obtain ⟨ys, hys⟩ := ih fun a ha => h a (by simp [ha])
    exact ⟨b :: ys, .cons hb hys⟩

end RelatedLists
