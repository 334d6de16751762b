import PumpResearch.Library.OrderedDict

/-! Totals of weights by key, and sums of the largest of them. Neither depends on the order of the
items, nor on how the weight of one key is spread over items. -/
namespace KeyedTotals
open OrderedDict
variable {α κ M : Type*} [DecidableEq κ]

/-! ### Totals -/

section Totals
variable [AddCommMonoid M] (key : α → κ) (weight : α → M)

/-- Adds the weight of every item to the total of its key. -/
def totals (xs : List α) : Dict κ M :=
  xs.foldl (fun d x => d.set (key x) ((d.get? (key x)).getD 0 + weight x)) .empty

/-- What the items of one key weigh together. -/
def weightOf (xs : List α) (k : κ) : M := ((xs.filter fun x => key x = k).map weight).sum

theorem mem_keys_totals (xs : List α) (k : κ) :
    k ∈ (totals key weight xs).keys ↔ ∃ x ∈ xs, key x = k := by
  have hmem := mem_keys_foldl_set key
    (fun (d : Dict κ M) x => (d.get? (key x)).getD 0 + weight x) xs .empty k
  rw [totals, hmem]
  simp

theorem totals_concat (xs : List α) (x : α) :
    totals key weight (xs ++ [x]) = (totals key weight xs).set (key x)
      (((totals key weight xs).get? (key x)).getD 0 + weight x) := by
  rw [totals, List.foldl_append]
  rfl

theorem getD_totals (xs : List α) (k : κ) :
    ((totals key weight xs).get? k).getD 0 = weightOf key weight xs k := by
  induction xs using List.reverseRecOn with
  | nil => rfl
  | append_singleton xs x ih =>
    rw [totals_concat, Dict.get?_set]
    by_cases hk : key x = k
    · subst hk
      simp [weightOf, ih]
    · have hk' : k ≠ key x := fun h => hk h.symm
      rw [if_neg hk', ih]
      simp [weightOf, hk]

theorem values_totals (xs : List α) :
    (totals key weight xs).values = (totals key weight xs).keys.map (weightOf key weight xs) := by
  rw [Dict.values_eq_map_get? _ 0]
  exact List.map_congr_left fun k _ => getD_totals key weight xs k

theorem mem_values_totals {xs : List α} {v : M} :
    v ∈ (totals key weight xs).values ↔ ∃ x ∈ xs, weightOf key weight xs (key x) = v := by
  rw [values_totals, List.mem_map]
  constructor
  · intro h
    obtain ⟨k, hk, hv⟩ := h
    obtain ⟨x, hx, rfl⟩ := (mem_keys_totals key weight xs k).mp hk
    exact ⟨x, hx, hv⟩
  · intro h
    obtain ⟨x, hx, hv⟩ := h
    exact ⟨key x, (mem_keys_totals key weight xs _).mpr ⟨x, hx, rfl⟩, hv⟩

/-- Everything is in some total, once. -/
theorem sum_totals (xs : List α) : (totals key weight xs).values.sum = (xs.map weight).sum := by
  induction xs using List.reverseRecOn with
  | nil => rfl
  | append_singleton xs x ih =>
    have hset : ∀ (d : Dict κ M) (k : κ) (w : M),
        (d.set k ((d.get? k).getD 0 + w)).values.sum = d.values.sum + w := by
      intro d k w
      obtain ⟨es, hes⟩ := d
      simp only [Dict.get?, Dict.set, Dict.values]
      clear hes
      induction es with
      | nil => simp [setEntry]
      | cons e rest ihe =>
        obtain ⟨a, b⟩ := e
        by_cases ha : a = k
        · subst ha
          simp [setEntry, add_assoc, add_comm w]
        · have ha' : (k == a) = false := beq_false_of_ne fun h => ha h.symm
          simp [setEntry, ha, List.lookup_cons, ha', ihe, add_assoc]
    rw [totals_concat, hset, ih]
    simp

/-- The same keys with the same weights have the same totals, in some order. -/
theorem values_totals_perm {xs ys : List α}
    (hkeys : ∀ k, (∃ x ∈ xs, key x = k) ↔ ∃ y ∈ ys, key y = k)
    (hweights : ∀ k, weightOf key weight xs k = weightOf key weight ys k) :
    (totals key weight xs).values.Perm (totals key weight ys).values := by
  have hperm : (totals key weight xs).keys.Perm (totals key weight ys).keys := by
    refine (List.perm_ext_iff_of_nodup (totals key weight xs).nodup
      (totals key weight ys).nodup).mpr fun k => ?_
    have hx := mem_keys_totals key weight xs k
    have hy := mem_keys_totals key weight ys k
    exact hx.trans ((hkeys k).trans hy.symm)
  rw [values_totals, values_totals, funext hweights]
  exact hperm.map _

end Totals

/-! ### The largest totals -/

section Descending
variable [LinearOrder M]

/-- `sorted(xs, reverse=True)`. -/
def descending (xs : List M) : List M := xs.insertionSort (· ≥ ·)

theorem descending_perm (xs : List M) : (descending xs).Perm xs := List.perm_insertionSort _ xs

theorem descending_pairwise (xs : List M) : (descending xs).Pairwise (· ≥ ·) :=
  List.pairwise_insertionSort _ xs

theorem descending_congr {xs ys : List M} (h : xs.Perm ys) : descending xs = descending ys :=
  List.Perm.eq_of_pairwise (fun _ _ _ _ hab hba => le_antisymm hba hab) (descending_pairwise xs)
    (descending_pairwise ys) ((descending_perm xs).trans (h.trans (descending_perm ys).symm))

theorem max?_congr {xs ys : List M} (h : xs.Perm ys) : xs.max? = ys.max? := by
  cases hmax : xs.max? with
  | none =>
    rw [List.max?_eq_none_iff] at hmax
    subst hmax
    rw [← h.nil_eq]
    rfl
  | some x =>
    obtain ⟨hmem, hle⟩ := List.max?_eq_some_iff.mp hmax
    exact (List.max?_eq_some_iff.mpr
      ⟨h.mem_iff.mp hmem, fun y hy => hle y (h.mem_iff.mpr hy)⟩).symm

end Descending

section Largest
variable [AddCommMonoid M] [LinearOrder M]

/-- The sum of the `n` largest values. -/
def topSum (n : Nat) (xs : List M) : M := ((descending xs).take n).sum

theorem sum_descending (xs : List M) : (descending xs).sum = xs.sum := (descending_perm xs).sum_eq

theorem le_topSum_one {xs : List M} {x : M} (hx : x ∈ xs) : x ≤ topSum 1 xs := by
  have hmem : x ∈ descending xs := (descending_perm xs).mem_iff.mpr hx
  have hsorted := descending_pairwise xs
  unfold topSum
  cases hys : descending xs with
  | nil =>
    rw [hys] at hmem
    cases hmem
  | cons y ys =>
    rw [hys] at hmem hsorted
    have hle : x ≤ y := by
      cases List.mem_cons.mp hmem with
      | inl heq => exact heq.le
      | inr hrest => exact (List.pairwise_cons.mp hsorted).1 x hrest
    simpa using hle

/-- The largest value is one of them, unless there is none. -/
theorem topSum_one_mem {xs : List M} (hne : xs ≠ []) : topSum 1 xs ∈ xs := by
  unfold topSum
  cases hys : descending xs with
  | nil =>
    have hperm := descending_perm xs
    rw [hys] at hperm
    exact absurd hperm.symm.eq_nil hne
  | cons y ys =>
    have hmem : y ∈ descending xs := by simp [hys]
    simpa using (descending_perm xs).mem_iff.mp hmem

variable [IsOrderedAddMonoid M]

theorem topSum_mono {xs : List M} (hxs : ∀ x ∈ xs, 0 ≤ x) {m n : Nat} (h : m ≤ n) :
    topSum m xs ≤ topSum n xs :=
  (List.take_sublist_take_left h).sum_le_sum fun x hx =>
    hxs x ((descending_perm xs).mem_iff.mp (List.mem_of_mem_take hx))

theorem topSum_le_sum {xs : List M} (hxs : ∀ x ∈ xs, 0 ≤ x) (n : Nat) : topSum n xs ≤ xs.sum := by
  rw [← sum_descending xs]
  exact (List.take_sublist n _).sum_le_sum fun x hx => hxs x ((descending_perm xs).mem_iff.mp hx)

theorem topSum_nonneg {xs : List M} (hxs : ∀ x ∈ xs, 0 ≤ x) (n : Nat) : 0 ≤ topSum n xs :=
  List.sum_nonneg fun x hx =>
    hxs x ((descending_perm xs).mem_iff.mp (List.mem_of_mem_take hx))

end Largest
end KeyedTotals
