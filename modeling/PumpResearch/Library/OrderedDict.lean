import Mathlib

/-! Dictionaries that remember the order in which their keys first arrived. Setting a
present key replaces its value in place. -/
namespace OrderedDict
variable {κ ν : Type*}

/-- An insertion-ordered dictionary. -/
@[ext] structure Dict (κ ν : Type*) where
  entries : List (κ × ν)
  nodup : (entries.map Prod.fst).Nodup
deriving DecidableEq

namespace Dict

def empty : Dict κ ν := ⟨[], List.nodup_nil⟩

def keys (d : Dict κ ν) : List κ := d.entries.map Prod.fst

def values (d : Dict κ ν) : List ν := d.entries.map Prod.snd

@[simp] theorem keys_empty : (empty : Dict κ ν).keys = [] := rfl

@[simp] theorem values_empty : (empty : Dict κ ν).values = [] := rfl

end Dict

variable [DecidableEq κ]

/-- Entries with a key set: replaced at the key's position, or appended. -/
def setEntry (k : κ) (v : ν) : List (κ × ν) → List (κ × ν)
  | [] => [(k, v)]
  | e :: rest => if e.1 = k then (k, v) :: rest else e :: setEntry k v rest

theorem map_fst_setEntry (k : κ) (v : ν) (es : List (κ × ν)) :
    (setEntry k v es).map Prod.fst =
      if k ∈ es.map Prod.fst then es.map Prod.fst else es.map Prod.fst ++ [k] := by
  induction es with
  | nil => simp [setEntry]
  | cons e rest ih =>
    by_cases he : e.1 = k
    · simp [setEntry, he]
    · have he' : k ≠ e.1 := fun h => he h.symm
      simp only [setEntry, he, if_false, List.map_cons, List.mem_cons, he', false_or, ih]
      by_cases hm : k ∈ rest.map Prod.fst
      · rw [if_pos hm, if_pos hm]
      · rw [if_neg hm, if_neg hm, List.cons_append]

theorem forall_setEntry {k : κ} {v : ν} {es : List (κ × ν)} {P : κ × ν → Prop} (hnew : P (k, v))
    (hold : ∀ e ∈ es, P e) : ∀ e ∈ setEntry k v es, P e := by
  induction es with
  | nil => simpa [setEntry] using hnew
  | cons e rest ih =>
    have hrest := ih fun e' he' => hold e' (List.mem_cons_of_mem e he')
    unfold setEntry
    split
    · exact List.forall_mem_cons.mpr ⟨hnew, fun e' he' => hold e' (List.mem_cons_of_mem e he')⟩
    · exact List.forall_mem_cons.mpr ⟨hold e List.mem_cons_self, hrest⟩

namespace Dict

def get? (d : Dict κ ν) (k : κ) : Option ν := d.entries.lookup k

@[simp] theorem get?_empty (k : κ) : (empty : Dict κ ν).get? k = none := rfl

def set (d : Dict κ ν) (k : κ) (v : ν) : Dict κ ν where
  entries := setEntry k v d.entries
  nodup := by
    rw [map_fst_setEntry]
    by_cases hk : k ∈ d.entries.map Prod.fst
    · rw [if_pos hk]
      exact d.nodup
    · rw [if_neg hk]
      exact List.nodup_append.mpr ⟨d.nodup, by simp, fun a ha b hb => by
        rintro rfl
        exact hk (by simpa [List.mem_singleton.mp hb] using ha)⟩

/-- Sets made one after the other, in order. -/
def setAll (d : Dict κ ν) (writes : List (κ × ν)) : Dict κ ν :=
  writes.foldl (fun d w => d.set w.1 w.2) d

theorem get?_set (d : Dict κ ν) (k k' : κ) (v : ν) :
    (d.set k v).get? k' = if k' = k then some v else d.get? k' := by
  obtain ⟨es, hes⟩ := d
  simp only [get?, set]
  clear hes
  induction es with
  | nil =>
    by_cases hk : k' = k
    · simp [setEntry, hk]
    · simp [setEntry, hk, List.lookup_cons, beq_false_of_ne hk]
  | cons e rest ih =>
    obtain ⟨a, b⟩ := e
    by_cases ha : a = k
    · by_cases hk : k' = k
      · simp [setEntry, ha, hk]
      · simp [setEntry, ha, hk, List.lookup_cons, beq_false_of_ne hk]
    · simp only [setEntry, ha, if_false, List.lookup_cons, ih]
      by_cases hk : k' = k
      · have hka : (k' == a) = false := beq_false_of_ne (fun h => ha (h.symm.trans hk))
        simp [hk, hk ▸ hka]
      · simp [hk]

theorem get?_set_self (d : Dict κ ν) (k : κ) (v : ν) : (d.set k v).get? k = some v := by
  rw [get?_set, if_pos rfl]

theorem get?_set_of_ne (d : Dict κ ν) {k k' : κ} (v : ν) (h : k' ≠ k) :
    (d.set k v).get? k' = d.get? k' := by
  rw [get?_set, if_neg h]

theorem setAll_append (d : Dict κ ν) (ws ws' : List (κ × ν)) :
    d.setAll (ws ++ ws') = (d.setAll ws).setAll ws' := List.foldl_append

/-- Frame rule: a key that is not written keeps its value. -/
theorem get?_setAll_of_forall_ne (d : Dict κ ν) (ws : List (κ × ν)) (k : κ)
    (h : ∀ w ∈ ws, k ≠ w.1) : (d.setAll ws).get? k = d.get? k := by
  induction ws generalizing d with
  | nil => rfl
  | cons w ws ih =>
    have hw : k ≠ w.1 := h w (by simp)
    have hrest := ih (d.set w.1 w.2) (fun u hu => h u (by simp [hu]))
    rw [get?_set_of_ne d w.2 hw] at hrest
    exact hrest

/-- Of distinct keys each gets its own value. -/
theorem get?_setAll_of_mem (d : Dict κ ν) {ws : List (κ × ν)} (hnodup : (ws.map Prod.fst).Nodup)
    {k : κ} {v : ν} (h : (k, v) ∈ ws) : (d.setAll ws).get? k = some v := by
  induction ws generalizing d with
  | nil => cases h
  | cons w rest ih =>
    obtain ⟨hfirst, hrest⟩ := List.nodup_cons.mp hnodup
    cases List.mem_cons.mp h with
    | inl hhead =>
      have hfresh : ∀ u ∈ rest, k ≠ u.1 := by
        intro u hu heq
        have hkey : k = w.1 := congrArg Prod.fst hhead
        exact hfirst (List.mem_map.mpr ⟨u, hu, heq.symm.trans hkey⟩)
      have hkept := get?_setAll_of_forall_ne (d.set w.1 w.2) rest k hfresh
      rw [← hhead, get?_set_self] at hkept
      rw [← hhead]
      exact hkept
    | inr htail => exact ih (d.set w.1 w.2) hrest htail

/-- `{**d, **d'}`. -/
def update (d d' : Dict κ ν) : Dict κ ν := d.setAll d'.entries

theorem get?_eq_some_iff (d : Dict κ ν) (k : κ) (v : ν) :
    d.get? k = some v ↔ (k, v) ∈ d.entries := by
  obtain ⟨es, hes⟩ := d
  simp only [get?]
  induction es with
  | nil => simp
  | cons e rest ih =>
    obtain ⟨a, b⟩ := e
    simp only [List.map_cons, List.nodup_cons] at hes
    by_cases ha : k = a
    · subst ha
      have hout : (k, v) ∉ rest := fun hm => hes.1 (List.mem_map_of_mem (f := Prod.fst) hm)
      simp [hout, eq_comm]
    · simp [List.lookup_cons, beq_false_of_ne ha, ha, ih hes.2]

theorem get?_eq_none_iff (d : Dict κ ν) (k : κ) : d.get? k = none ↔ k ∉ d.keys := by
  constructor
  · intro h hk
    obtain ⟨e, he, rfl⟩ := List.mem_map.mp hk
    have hs := (d.get?_eq_some_iff e.1 e.2).mpr he
    rw [h] at hs
    cases hs
  · intro h
    cases hg : d.get? k with
    | none => rfl
    | some v => exact absurd (List.mem_map_of_mem (f := Prod.fst)
        ((d.get?_eq_some_iff k v).mp hg)) h

/-- Setting a key to the value it has changes nothing. -/
theorem set_of_get? (d : Dict κ ν) (k : κ) (v : ν) (h : d.get? k = some v) : d.set k v = d := by
  apply Dict.ext
  obtain ⟨es, hes⟩ := d
  simp only [get?, set] at h ⊢
  clear hes
  induction es with
  | nil => simp at h
  | cons e rest ih =>
    obtain ⟨a, b⟩ := e
    by_cases ha : a = k
    · subst ha
      simp only [List.lookup_cons, beq_self_eq_true, Option.some.injEq] at h
      simp [setEntry, h]
    · have hb : (k == a) = false := beq_false_of_ne (fun hk => ha hk.symm)
      simp only [List.lookup_cons, hb] at h
      simp [setEntry, ha, ih h]

/-- A new key goes to the end. -/
theorem entries_set_of_notMem (d : Dict κ ν) (k : κ) (v : ν) (h : k ∉ d.keys) :
    (d.set k v).entries = d.entries ++ [(k, v)] := by
  obtain ⟨es, hes⟩ := d
  simp only [keys, set] at h ⊢
  clear hes
  induction es with
  | nil => rfl
  | cons e rest ih =>
    simp only [List.map_cons, List.mem_cons, not_or] at h
    have he : ¬ e.1 = k := fun hk => h.1 hk.symm
    simp [setEntry, he, ih h.2]

theorem values_set_of_notMem (d : Dict κ ν) (k : κ) (v : ν) (h : k ∉ d.keys) :
    (d.set k v).values = d.values ++ [v] := by
  simp [values, entries_set_of_notMem d k v h]

theorem keys_set (d : Dict κ ν) (k : κ) (v : ν) :
    (d.set k v).keys = if k ∈ d.keys then d.keys else d.keys ++ [k] :=
  map_fst_setEntry k v d.entries

/-- The values in key order. -/
theorem values_eq_map_get? (d : Dict κ ν) (default : ν) :
    d.values = d.keys.map fun k => (d.get? k).getD default := by
  simp only [values, keys, List.map_map]
  apply List.map_congr_left
  intro e he
  simp [(d.get?_eq_some_iff e.1 e.2).mpr he]

end Dict

section Group
variable {α : Type*} (key : α → κ)

/-- A loop that sets the key of every item, to whatever value. -/
theorem mem_keys_foldl_set (value : Dict κ ν → α → ν) (xs : List α) (d : Dict κ ν) (k : κ) :
    k ∈ (xs.foldl (fun d x => d.set (key x) (value d x)) d).keys ↔
      k ∈ d.keys ∨ ∃ x ∈ xs, key x = k := by
  induction xs generalizing d with
  | nil => simp
  | cons x xs ih =>
    rw [List.foldl_cons, ih, Dict.keys_set]
    by_cases hmem : key x ∈ d.keys
    · rw [if_pos hmem]
      constructor
      · intro h
        cases h with
        | inl hk => exact .inl hk
        | inr hx =>
          obtain ⟨y, hy, rfl⟩ := hx
          exact .inr ⟨y, List.mem_cons_of_mem _ hy, rfl⟩
      · intro h
        cases h with
        | inl hk => exact .inl hk
        | inr hx =>
          obtain ⟨y, hy, rfl⟩ := hx
          cases List.mem_cons.mp hy with
          | inl heq => exact .inl (heq ▸ hmem)
          | inr hrest => exact .inr ⟨y, hrest, rfl⟩
    · simp [hmem, or_assoc, eq_comm]

/-- Appends every item to the list kept under its key. -/
def groupInto (xs : List α) (d : Dict κ (List α)) : Dict κ (List α) :=
  xs.foldl (fun d x => d.set (key x) ((d.get? (key x)).getD [] ++ [x])) d

theorem getD_groupInto (xs : List α) (d : Dict κ (List α)) (k : κ) :
    ((groupInto key xs d).get? k).getD [] = (d.get? k).getD [] ++ xs.filter (fun x => key x = k) := by
  induction xs generalizing d with
  | nil => simp [groupInto]
  | cons x xs ih =>
    have hstep := ih (d.set (key x) ((d.get? (key x)).getD [] ++ [x]))
    rw [groupInto, List.foldl_cons, ← groupInto, hstep, Dict.get?_set]
    by_cases hk : key x = k
    · simp [hk]
    · have hk' : k ≠ key x := fun h => hk h.symm
      simp [hk, hk']

/-- Grouping under keys that are all present adds none. -/
theorem keys_groupInto_of_subset (xs : List α) (d : Dict κ (List α))
    (h : ∀ x ∈ xs, key x ∈ d.keys) : (groupInto key xs d).keys = d.keys := by
  induction xs generalizing d with
  | nil => rfl
  | cons x xs ih =>
    have hkeys : (d.set (key x) ((d.get? (key x)).getD [] ++ [x])).keys = d.keys := by
      rw [Dict.keys_set, if_pos (h x (by simp))]
    rw [groupInto, List.foldl_cons, ← groupInto, ih _ (by
      intro y hy
      rw [hkeys]
      exact h y (by simp [hy])), hkeys]

/-- Grouping under distinct new keys appends them in order. -/
theorem keys_groupInto_of_fresh (xs : List α) (d : Dict κ (List α))
    (h : (d.keys ++ xs.map key).Nodup) : (groupInto key xs d).keys = d.keys ++ xs.map key := by
  induction xs generalizing d with
  | nil => simp [groupInto]
  | cons x xs ih =>
    have hx : key x ∉ d.keys := by
      intro hm
      exact (List.nodup_append.mp h).2.2 _ hm _ (by simp) rfl
    have hkeys : (d.set (key x) ((d.get? (key x)).getD [] ++ [x])).keys = d.keys ++ [key x] := by
      rw [Dict.keys_set, if_neg hx]
    rw [groupInto, List.foldl_cons, ← groupInto, ih _ (by rw [hkeys]; simpa using h), hkeys]
    simp

/-- The keys of a grouping are the keys of its items. -/
theorem mem_keys_groupInto (xs : List α) (d : Dict κ (List α)) (k : κ) :
    k ∈ (groupInto key xs d).keys ↔ k ∈ d.keys ∨ ∃ x ∈ xs, key x = k :=
  mem_keys_foldl_set key _ xs d k

end Group
end OrderedDict
