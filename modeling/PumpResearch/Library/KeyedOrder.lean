import Mathlib

/-! Stable sorting by a key and selection of a first maximum. Two lists that agree
key by key are indistinguishable for both, whatever the positions of the items. -/
namespace KeyedOrder
variable {α β κ μ : Type*} [LinearOrder κ] [LinearOrder μ]

/-- Stable ascending sort by a key. -/
def sortOn (key : α → κ) (xs : List α) : List α :=
  xs.insertionSort fun a b => key a ≤ key b

/-- The items of every single key occur in the same order in both lists. -/
def SameByKey (key : α → κ) (xs ys : List α) : Prop :=
  ∀ k, xs.filter (fun a => key a = k) = ys.filter (fun a => key a = k)

theorem SameByKey.refl (key : α → κ) (xs : List α) : SameByKey key xs xs := fun _ => rfl

theorem SameByKey.symm {key : α → κ} {xs ys : List α} (h : SameByKey key xs ys) :
    SameByKey key ys xs := fun k => (h k).symm

theorem SameByKey.trans {key : α → κ} {xs ys zs : List α}
    (h : SameByKey key xs ys) (h' : SameByKey key ys zs) : SameByKey key xs zs :=
  fun k => (h k).trans (h' k)

theorem SameByKey.mem_iff {key : α → κ} {xs ys : List α} (h : SameByKey key xs ys) (a : α) :
    a ∈ xs ↔ a ∈ ys := by
  have ha := congrArg (fun l => a ∈ l) (h (key a))
  simpa [List.mem_filter] using ha

theorem SameByKey.filter {key : α → κ} {xs ys : List α} (h : SameByKey key xs ys)
    (p : α → Bool) : SameByKey key (xs.filter p) (ys.filter p) := by
  intro k
  have hk := congrArg (List.filter p) (h k)
  simpa only [List.filter_filter, Bool.and_comm] using hk

/-- A finer key splits the groups of a coarser one without reordering them. -/
theorem SameByKey.refine {key : α → κ} {fine : α → μ} {xs ys : List α}
    (h : SameByKey key xs ys) (hf : ∀ a b, fine a = fine b → key a = key b) :
    SameByKey fine xs ys := by
  intro k
  have hsplit : ∀ (zs : List α) (a : α), fine a = k → zs.filter (fun b => fine b = k) =
      (zs.filter (fun b => key b = key a)).filter (fun b => fine b = k) := by
    intro zs a ha
    rw [List.filter_filter]
    apply List.filter_congr
    intro b _
    by_cases hb : fine b = k
    · simp [hb, hf b a (hb.trans ha.symm)]
    · simp [hb]
  by_cases hx : ∃ a ∈ xs, fine a = k
  · obtain ⟨a, _, ha⟩ := hx
    rw [hsplit xs a ha, hsplit ys a ha, h (key a)]
  · have hxs : xs.filter (fun b => fine b = k) = [] := by
      simpa [List.filter_eq_nil_iff] using hx
    have hys : ys.filter (fun b => fine b = k) = [] := by
      rw [List.filter_eq_nil_iff]
      intro b hb hk
      exact hx ⟨b, (h.mem_iff b).mpr hb, by simpa using hk⟩
    rw [hxs, hys]

/-- Under distinct keys every item is alone in its group. -/
theorem filter_key_eq_singleton {key : α → κ} {xs : List α} (hx : (xs.map key).Nodup) {a : α}
    (ha : a ∈ xs) : xs.filter (fun b => key b = key a) = [a] := by
  induction xs with
  | nil => simp at ha
  | cons x xs ih =>
    rw [List.map_cons, List.nodup_cons] at hx
    rcases List.mem_cons.mp ha with rfl | hm
    · have hnone : xs.filter (fun b => key b = key a) = [] := by
        rw [List.filter_eq_nil_iff]
        intro b hb hk
        exact hx.1 (List.mem_map.mpr ⟨b, hb, of_decide_eq_true hk⟩)
      simp [hnone]
    · have hne : ¬ key x = key a := fun h => hx.1 (List.mem_map.mpr ⟨a, hm, h.symm⟩)
      simp [hne, ih hx.2 hm]

/-- Duplicate-free keys leave no order to compare, so equal membership suffices. -/
theorem SameByKey.of_nodup {key : α → κ} {xs ys : List α}
    (hx : (xs.map key).Nodup) (hy : (ys.map key).Nodup) (h : ∀ a, a ∈ xs ↔ a ∈ ys) :
    SameByKey key xs ys := by
  intro k
  by_cases hk : ∃ a ∈ xs, key a = k
  · obtain ⟨a, ha, rfl⟩ := hk
    rw [filter_key_eq_singleton hx ha, filter_key_eq_singleton hy ((h a).mp ha)]
  · have hxs : xs.filter (fun b => key b = k) = [] := by
      simpa [List.filter_eq_nil_iff] using hk
    have hys : ys.filter (fun b => key b = k) = [] := by
      rw [List.filter_eq_nil_iff]
      exact fun b hb hbk => hk ⟨b, (h b).mpr hb, of_decide_eq_true hbk⟩
    rw [hxs, hys]

theorem filter_orderedInsert (key : α → κ) (k : κ) (x : α) (xs : List α) :
    (List.orderedInsert (fun a b => key a ≤ key b) x xs).filter (fun a => key a = k) =
      (x :: xs).filter (fun a => key a = k) := by
  induction xs with
  | nil => rfl
  | cons b xs ih =>
    by_cases hxb : key x ≤ key b
    · simp [List.orderedInsert, hxb]
    · simp only [List.orderedInsert, hxb, if_false, List.filter_cons] at ih ⊢
      rw [ih]
      by_cases hx : key x = k
      · have hb : key b ≠ k := fun hb => hxb (by rw [hx, hb])
        simp [hx, hb]
      · simp [hx]

/-- Stability: sorting never reorders items of one key. -/
theorem sortOn_sameByKey (key : α → κ) (xs : List α) : SameByKey key (sortOn key xs) xs := by
  intro k
  induction xs with
  | nil => rfl
  | cons x xs ih =>
    rw [sortOn, List.insertionSort_cons, filter_orderedInsert]
    simp only [List.filter_cons]
    rw [← ih]
    rfl

theorem mem_sortOn (key : α → κ) (xs : List α) (a : α) : a ∈ sortOn key xs ↔ a ∈ xs :=
  (sortOn_sameByKey key xs).mem_iff a

theorem sortOn_pairwise (key : α → κ) (xs : List α) :
    (sortOn key xs).Pairwise (fun a b => key a ≤ key b) := by
  have : Std.Total (fun a b => key a ≤ key b) := ⟨fun a b => le_total (key a) (key b)⟩
  have : IsTrans α (fun a b => key a ≤ key b) := ⟨fun a b c => le_trans⟩
  exact List.pairwise_insertionSort _ xs

theorem sortOn_perm (key : α → κ) (xs : List α) : (sortOn key xs).Perm xs :=
  List.perm_insertionSort _ xs

/-- Sorted lists are determined by their groups. -/
theorem eq_of_pairwise_of_sameByKey {key : α → κ} {xs ys : List α}
    (hx : xs.Pairwise (fun a b => key a ≤ key b)) (hy : ys.Pairwise (fun a b => key a ≤ key b))
    (h : SameByKey key xs ys) : xs = ys := by
  induction xs generalizing ys with
  | nil =>
    cases ys with
    | nil => rfl
    | cons y ys => simpa using (h.mem_iff y).mpr (by simp)
  | cons x xs ih =>
    cases ys with
    | nil => simpa using (h.mem_iff x).mp (by simp)
    | cons y ys =>
      rw [List.pairwise_cons] at hx hy
      have hxy : key x ≤ key y := by
        rcases List.mem_cons.mp ((h.mem_iff y).mpr (by simp)) with rfl | hm
        · exact le_rfl
        · exact hx.1 y hm
      have hyx : key y ≤ key x := by
        rcases List.mem_cons.mp ((h.mem_iff x).mp (by simp)) with rfl | hm
        · exact le_rfl
        · exact hy.1 x hm
      have hkey : key x = key y := le_antisymm hxy hyx
      have hhead := h (key x)
      simp only [List.filter_cons, hkey, decide_true, if_true] at hhead
      have hxy' : x = y := (List.cons.inj hhead).1
      subst hxy'
      refine congrArg (List.cons x) (ih hx.2 hy.2 ?_)
      intro k
      have hk := h k
      simp only [List.filter_cons] at hk
      by_cases hxk : key x = k
      · simpa [hxk] using hk
      · simpa [hxk] using hk

theorem SameByKey.sortOn_eq {key : α → κ} {xs ys : List α} (h : SameByKey key xs ys) :
    sortOn key xs = sortOn key ys :=
  eq_of_pairwise_of_sameByKey (sortOn_pairwise key xs) (sortOn_pairwise key ys)
    ((sortOn_sameByKey key xs).trans (h.trans (sortOn_sameByKey key ys).symm))

theorem filter_sortOn (key : α → κ) (p : α → Bool) (xs : List α) :
    (sortOn key xs).filter p = sortOn key (xs.filter p) :=
  eq_of_pairwise_of_sameByKey ((sortOn_pairwise key xs).filter p) (sortOn_pairwise key _)
    (((sortOn_sameByKey key xs).filter p).trans (sortOn_sameByKey key (xs.filter p)).symm)

/-- The first item of greatest key. -/
def firstMax (key : α → κ) (xs : List α) : Option α := xs.argmax key

theorem firstMax_eq_none {key : α → κ} {xs : List α} : firstMax key xs = none ↔ xs = [] :=
  List.argmax_eq_none

theorem mem_of_firstMax {key : α → κ} {xs : List α} {m : α} (h : firstMax key xs = some m) : m ∈ xs :=
  List.argmax_mem h

theorem le_of_firstMax {key : α → κ} {xs : List α} {m : α} (h : firstMax key xs = some m) {a : α}
    (ha : a ∈ xs) : key a ≤ key m := List.le_of_mem_argmax ha h

/-- The selected maximum is the first item of its group. -/
theorem head_filter_of_firstMax {key : α → κ} {xs : List α} {m : α}
    (h : firstMax key xs = some m) : (xs.filter (fun a => key a = key m)).head? = some m := by
  induction xs using List.reverseRecOn generalizing m with
  | nil => simp [firstMax] at h
  | append_singleton xs a ih =>
    rw [firstMax, List.argmax_concat] at h
    cases hm : firstMax key xs with
    | none =>
      rw [firstMax_eq_none] at hm
      simp only [hm, List.argmax_nil, Option.some.injEq] at h
      simp [hm, h]
    | some c =>
      have hle : ∀ b ∈ xs, key b ≤ key c := fun b hb => le_of_firstMax hm hb
      have hc : xs.argmax key = some c := hm
      rw [hc] at h
      by_cases hlt : key c < key a
      · simp only [hlt, if_true, Option.some.injEq] at h
        subst h
        have hnone : xs.filter (fun b => key b = key a) = [] := by
          rw [List.filter_eq_nil_iff]
          intro b hb hk
          exact absurd (hle b hb) (not_le.mpr (by rw [of_decide_eq_true hk]; exact hlt))
        simp [List.filter_append, hnone]
      · simp only [hlt, if_false, Option.some.injEq] at h
        subst h
        rw [List.filter_append, List.head?_append, ih hm]
        rfl

theorem SameByKey.firstMax_eq {key : α → κ} {xs ys : List α} (h : SameByKey key xs ys) :
    firstMax key xs = firstMax key ys := by
  cases hx : firstMax key xs with
  | none =>
    rw [firstMax_eq_none] at hx
    subst hx
    cases ys with
    | nil => rfl
    | cons y ys => simpa using (h.mem_iff y).mpr (by simp)
  | some m =>
    have hm : m ∈ xs := mem_of_firstMax hx
    cases hy : firstMax key ys with
    | none =>
      rw [firstMax_eq_none] at hy
      subst hy
      simpa using (h.mem_iff m).mp hm
    | some m' =>
      have hm' : m' ∈ ys := mem_of_firstMax hy
      have hk : key m = key m' := le_antisymm (le_of_firstMax hy ((h.mem_iff m).mp hm))
        (le_of_firstMax hx ((h.mem_iff m').mpr hm'))
      have h1 := head_filter_of_firstMax hx
      have h2 := head_filter_of_firstMax hy
      rw [h (key m), hk, h2] at h1
      exact h1.symm

/-- Sorting the distinct values by an injective key depends on membership only. -/
theorem sortOn_dedup_congr [DecidableEq α] {key : α → κ} (hk : Function.Injective key)
    {xs ys : List α} (h : ∀ a, a ∈ xs ↔ a ∈ ys) :
    sortOn key xs.dedup = sortOn key ys.dedup := by
  apply SameByKey.sortOn_eq
  apply SameByKey.of_nodup
  · exact (List.nodup_dedup xs).map hk
  · exact (List.nodup_dedup ys).map hk
  · simpa only [List.mem_dedup] using h

theorem max?_eq_of_mem_iff {xs ys : List κ} (h : ∀ a, a ∈ xs ↔ a ∈ ys) : xs.max? = ys.max? := by
  ext m
  simp only [List.max?_eq_some_iff, h]

theorem min?_eq_of_mem_iff {xs ys : List κ} (h : ∀ a, a ∈ xs ↔ a ∈ ys) : xs.min? = ys.min? := by
  ext m
  simp only [List.min?_eq_some_iff, h]

theorem sortOn_eq_self {key : α → κ} {xs : List α}
    (h : xs.Pairwise (fun a b => key a ≤ key b)) : sortOn key xs = xs :=
  eq_of_pairwise_of_sameByKey (sortOn_pairwise key xs) h (sortOn_sameByKey key xs)

/-- Two disjoint selections together are a rearrangement of their union. -/
theorem filter_append_filter_perm {p q r : α → Bool} (hr : ∀ a, r a = (p a || q a))
    (hpq : ∀ a, ¬ (p a = true ∧ q a = true)) (xs : List α) :
    (xs.filter p ++ xs.filter q).Perm (xs.filter r) := by
  have hp : (xs.filter r).filter p = xs.filter p := by
    rw [List.filter_filter]
    apply List.filter_congr
    intro a _
    cases h : p a <;> simp [hr, h]
  have hq : (xs.filter r).filter (fun a => !p a) = xs.filter q := by
    rw [List.filter_filter]
    apply List.filter_congr
    intro a _
    have := hpq a
    cases h : p a <;> cases h' : q a <;> simp_all
  rw [← hp, ← hq]
  exact List.filter_append_perm p (xs.filter r)

/-- Of a sorted list, what lies below a bound begins what lies below a greater bound. -/
theorem filter_le_prefix {key : α → κ} {xs : List α} (h : xs.Pairwise fun a b => key a ≤ key b)
    {low high : κ} (hle : low ≤ high) :
    xs.filter (fun a => key a ≤ low) <+: xs.filter (fun a => key a ≤ high) := by
  induction xs with
  | nil => exact List.prefix_rfl
  | cons x rest ih =>
    obtain ⟨hfirst, hrest⟩ := List.pairwise_cons.mp h
    by_cases hlow : key x ≤ low
    · have hhigh : key x ≤ high := hlow.trans hle
      rw [List.filter_cons_of_pos (by simpa using hlow),
        List.filter_cons_of_pos (by simpa using hhigh)]
      exact (List.prefix_cons_inj x).mpr (ih hrest)
    · have hnil : (x :: rest).filter (fun a => key a ≤ low) = [] := by
        rw [List.filter_eq_nil_iff]
        intro a ha
        have hxa : key x ≤ key a := by
          cases List.mem_cons.mp ha with
          | inl heq => rw [heq]
          | inr hmem => exact hfirst a hmem
        have hnot : ¬ key a ≤ low := fun hal => hlow (hxa.trans hal)
        simpa using hnot
      rw [hnil]
      exact List.nil_prefix

/-! ### Related lists and ties -/

theorem insert_related {key : α → κ} {key' : β → κ} {R : α → β → Prop}
    (hkey : ∀ a b, R a b → key a = key' b) {a : α} {b : β} (hab : R a b) {xs : List α} {ys : List β}
    (h : List.Forall₂ R xs ys) :
    List.Forall₂ R (xs.orderedInsert (fun a b => key a ≤ key b) a)
      (ys.orderedInsert (fun a b => key' a ≤ key' b) b) := by
  induction h with
  | nil => exact .cons hab .nil
  | @cons x y xs ys hxy hrest ih =>
    rw [List.orderedInsert_cons, List.orderedInsert_cons, hkey a b hab, hkey x y hxy]
    by_cases hle : key' b ≤ key' y
    · rw [if_pos hle, if_pos hle]
      exact .cons hab (.cons hxy hrest)
    · rw [if_neg hle, if_neg hle]
      exact .cons hxy ih

/-- Lists that are related item by item, with equal keys, stay so when sorted. -/
theorem sortOn_related {key : α → κ} {key' : β → κ} {R : α → β → Prop}
    (hkey : ∀ a b, R a b → key a = key' b) {xs : List α} {ys : List β}
    (h : List.Forall₂ R xs ys) : List.Forall₂ R (sortOn key xs) (sortOn key' ys) := by
  induction h with
  | nil => exact .nil
  | cons hab _ ih => exact insert_related hkey hab ih

/-- Two items of one key are next to each other after they are inserted, the first one first. -/
theorem orderedInsert_tied {key : α → κ} {a b : α} (h : key a = key b) (xs : List α) :
    ∃ before after,
      (xs.orderedInsert (fun a b => key a ≤ key b) b).orderedInsert (fun a b => key a ≤ key b) a =
        before ++ a :: b :: after ∧
      (xs.orderedInsert (fun a b => key a ≤ key b) a).orderedInsert (fun a b => key a ≤ key b) b =
        before ++ b :: a :: after := by
  induction xs with
  | nil => exact ⟨[], [], by simp [List.orderedInsert, h], by simp [List.orderedInsert, h]⟩
  | cons x xs ih =>
    by_cases hx : key b ≤ key x
    · exact ⟨[], x :: xs, by simp [List.orderedInsert, h, hx], by simp [List.orderedInsert, h, hx]⟩
    · obtain ⟨before, after, hfirst, hsecond⟩ := ih
      refine ⟨x :: before, after, ?_, ?_⟩
      · simpa [List.orderedInsert, h, hx] using hfirst
      · simpa [List.orderedInsert, h, hx] using hsecond

theorem sortOn_tied {key : α → κ} {a b : α} (h : key a = key b) (xs : List α) :
    ∃ before after, sortOn key (a :: b :: xs) = before ++ a :: b :: after ∧
      sortOn key (b :: a :: xs) = before ++ b :: a :: after :=
  orderedInsert_tied h (sortOn key xs)

end KeyedOrder
