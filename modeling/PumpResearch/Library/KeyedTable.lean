import PumpResearch.Library.KeyedOrder
import PumpResearch.Library.RelatedLists
import PumpResearch.Library.Results

/-! Tables whose rows have distinct keys, with the two writes a store makes: inserting a row
unless its key is taken, and writing changed rows back over those of the same keys. -/
namespace KeyedTable
open RelatedLists
variable {α κ : Type*}

/-- A join keeps the keys of its left side distinct. -/
theorem nodup_joined {γ : Type*} {key : α → κ} {xs : List α} (h : (xs.map key).Nodup)
    (f : α → Option γ) :
    ((xs.filterMap fun a => (f a).map fun c => (a, c)).map fun row => key row.1).Nodup := by
  have hsub : List.Sublist ((xs.filterMap fun a => (f a).map fun c => (a, c)).map
      fun row => key row.1) (xs.map key) := by
    clear h
    induction xs with
    | nil => exact .slnil
    | cons a rest ih =>
      rw [List.filterMap_cons]
      cases f a with
      | none => exact ih.cons _
      | some c => exact ih.cons_cons _
  exact h.sublist hsub

/-- Rows with pairwise distinct keys, in insertion order. -/
structure Table (key : α → κ) where
  rows : List α
  nodup : (rows.map key).Nodup

namespace Table
variable {key : α → κ}

def empty : Table key := ⟨[], List.nodup_nil⟩

@[simp] theorem rows_empty : (empty : Table key).rows = [] := rfl

theorem eq_of_key_eq (t : Table key) {a b : α} (ha : a ∈ t.rows) (hb : b ∈ t.rows)
    (h : key a = key b) : a = b :=
  List.inj_on_of_nodup_map t.nodup ha hb h

theorem rows_nodup (t : Table key) : t.rows.Nodup := t.nodup.of_map

/-- Rows at the same positions have the same key and are related. -/
def Related (R : α → α → Prop) (t t' : Table key) : Prop :=
  List.Forall₂ (fun a b => key a = key b ∧ R a b) t.rows t'.rows

section Related
variable {R S : α → α → Prop} {t t' t'' : Table key}

theorem Related.refl (hR : ∀ a, R a a) (t : Table key) : Related R t t :=
  List.forall₂_same.mpr fun a _ => ⟨rfl, hR a⟩

theorem Related.trans (hR : ∀ a b c, R a b → R b c → R a c) (h : Related R t t')
    (h' : Related R t' t'') : Related R t t'' := by
  unfold Related at *
  generalize t.rows = as at h
  generalize t'.rows = bs at h h'
  generalize t''.rows = cs at h'
  induction h generalizing cs with
  | nil =>
    cases h'
    exact .nil
  | cons hab _ ih =>
    cases h' with
    | cons hbc hrest => exact .cons ⟨hab.1.trans hbc.1, hR _ _ _ hab.2 hbc.2⟩ (ih _ hrest)

theorem Related.mono (hRS : ∀ a b, R a b → S a b) (h : Related R t t') : Related S t t' :=
  List.Forall₂.imp (fun _ _ hab => ⟨hab.1, hRS _ _ hab.2⟩) h

theorem Related.exists_before (h : Related R t t') {b : α} (hb : b ∈ t'.rows) :
    ∃ a ∈ t.rows, key a = key b ∧ R a b := exists_related_left h hb

theorem Related.exists_after (h : Related R t t') {a : α} (ha : a ∈ t.rows) :
    ∃ b ∈ t'.rows, key a = key b ∧ R a b := exists_related_right h ha

theorem Related.forall {P : α → Prop} (h : Related R t t') (hP : ∀ a b, R a b → P a → P b)
    (ht : ∀ a ∈ t.rows, P a) : ∀ b ∈ t'.rows, P b := by
  intro b hb
  obtain ⟨a, ha, _, hR⟩ := h.exists_before hb
  exact hP a b hR (ht a ha)

/-- A count that no row joins drops when a row leaves it. -/
theorem Related.countP_lt {p : α → Bool} (h : Related R t t')
    (hp : ∀ a, ∀ b ∈ t'.rows, R a b → p b = true → p a = true) {b : α} (hb : b ∈ t'.rows)
    (hnot : p b = false) (hwas : ∀ a ∈ t.rows, key a = key b → p a = true) :
    t'.rows.countP p < t.rows.countP p := by
  unfold Related at h
  generalize t.rows = as at h hwas
  generalize t'.rows = bs at h hb hp
  have hle : ∀ {as bs : List α}, List.Forall₂ (fun a b => key a = key b ∧ R a b) as bs →
      (∀ a, ∀ b ∈ bs, R a b → p b = true → p a = true) → bs.countP p ≤ as.countP p := by
    intro as bs hrel hkeep
    induction hrel with
    | nil => exact le_rfl
    | @cons a c as bs hac _ ih =>
      have htail := ih fun a b hb => hkeep a b (List.mem_cons_of_mem _ hb)
      rw [List.countP_cons, List.countP_cons]
      cases hc : p c with
      | false =>
        simp only [Bool.false_eq_true, if_false]
        omega
      | true =>
        simp only [hkeep a c List.mem_cons_self hac.2 hc, if_true]
        omega
  induction h with
  | nil => cases hb
  | @cons a c as bs hac hrest ih =>
    have hkeep : ∀ a, ∀ b ∈ bs, R a b → p b = true → p a = true :=
      fun a b hb => hp a b (List.mem_cons_of_mem _ hb)
    have htail := hle hrest hkeep
    rw [List.countP_cons, List.countP_cons]
    cases List.mem_cons.mp hb with
    | inl heq =>
      subst heq
      simp only [hnot, hwas a List.mem_cons_self hac.1, Bool.false_eq_true, if_false, if_true]
      omega
    | inr hmem =>
      have hlt := ih (fun a ha hk => hwas a (List.mem_cons_of_mem _ ha) hk) hmem hkeep
      cases hc : p c with
      | false =>
        simp only [Bool.false_eq_true, if_false]
        omega
      | true =>
        simp only [hp a c List.mem_cons_self hac.2 hc, if_true]
        omega

end Related

variable [DecidableEq κ]

def find? (t : Table key) (k : κ) : Option α := t.rows.find? fun a => key a = k

@[simp] theorem find?_empty (k : κ) : (empty : Table key).find? k = none := rfl

theorem find?_eq_some_iff {t : Table key} {k : κ} {a : α} :
    t.find? k = some a ↔ a ∈ t.rows ∧ key a = k := by
  constructor
  · intro h
    have hk := List.find?_some h
    exact ⟨List.mem_of_find?_eq_some h, of_decide_eq_true hk⟩
  · intro h
    cases hf : t.find? k with
    | none =>
      have hnone := List.find?_eq_none.mp hf a h.1
      simp [h.2] at hnone
    | some b =>
      have hb : key b = k := of_decide_eq_true (List.find?_some (p := fun a => key a = k) hf)
      have hm : b ∈ t.rows := List.mem_of_find?_eq_some hf
      rw [t.eq_of_key_eq h.1 hm (h.2.trans hb.symm)]

theorem find?_eq_none_iff {t : Table key} {k : κ} :
    t.find? k = none ↔ ∀ a ∈ t.rows, key a ≠ k := by
  simp [find?, List.find?_eq_none]

theorem find?_key {t : Table key} {a : α} (h : a ∈ t.rows) : t.find? (key a) = some a :=
  find?_eq_some_iff.mpr ⟨h, rfl⟩

/-- Insert, doing nothing on a conflict. -/
def insertNew (t : Table key) (a : α) : Table key :=
  if h : key a ∈ t.rows.map key then t
  else ⟨t.rows ++ [a], by
    rw [List.map_append]
    exact List.nodup_append.mpr ⟨t.nodup, by simp, fun x hx y hy => by
      rw [List.map_singleton, List.mem_singleton] at hy
      exact fun hxy => h (hy ▸ hxy ▸ hx)⟩⟩

theorem rows_insertNew_of_find?_eq_none {t : Table key} {a : α} (h : t.find? (key a) = none) :
    (t.insertNew a).rows = t.rows ++ [a] := by
  have hnot : key a ∉ t.rows.map key := by
    intro hm
    obtain ⟨b, hb, hk⟩ := List.mem_map.mp hm
    exact find?_eq_none_iff.mp h b hb hk
  rw [insertNew, dif_neg hnot]

theorem insertNew_eq_self {t : Table key} {a b : α} (h : t.find? (key a) = some b) :
    t.insertNew a = t := by
  obtain ⟨hb, hk⟩ := find?_eq_some_iff.mp h
  rw [insertNew, dif_pos (List.mem_map.mpr ⟨b, hb, hk⟩)]

theorem forall_insertNew {P : α → Prop} {t : Table key} {a : α} (ha : P a)
    (h : ∀ b ∈ t.rows, P b) : ∀ b ∈ (t.insertNew a).rows, P b := by
  cases hf : t.find? (key a) with
  | some b => rwa [insertNew_eq_self hf]
  | none =>
    rw [rows_insertNew_of_find?_eq_none hf]
    intro b hb
    cases List.mem_append.mp hb with
    | inl hb => exact h b hb
    | inr hb => exact List.mem_singleton.mp hb ▸ ha

/-- A row of another key is not the inserted one. -/
theorem mem_of_mem_insertNew {t : Table key} {a b : α} (h : b ∈ (t.insertNew a).rows)
    (hne : key a ≠ key b) : b ∈ t.rows := by
  cases hf : t.find? (key a) with
  | some c => rwa [insertNew_eq_self hf] at h
  | none =>
    rw [rows_insertNew_of_find?_eq_none hf] at h
    cases List.mem_append.mp h with
    | inl hold => exact hold
    | inr hnew => exact absurd (congrArg key (List.mem_singleton.mp hnew).symm) hne

theorem mem_insertNew_of_mem {t : Table key} {a b : α} (h : b ∈ t.rows) :
    b ∈ (t.insertNew a).rows := by
  cases hf : t.find? (key a) with
  | some c => rwa [insertNew_eq_self hf]
  | none =>
    rw [rows_insertNew_of_find?_eq_none hf]
    exact List.mem_append_left _ h

theorem find?_insertNew (t : Table key) (a : α) (k : κ) :
    (t.insertNew a).find? k = (t.find? k).or (if key a = k then some a else none) := by
  cases hf : t.find? (key a) with
  | some b =>
    rw [insertNew_eq_self hf]
    by_cases hk : key a = k
    · simp [← hk, hf]
    · simp [hk]
  | none =>
    rw [find?, rows_insertNew_of_find?_eq_none hf, List.find?_append]
    by_cases hk : key a = k
    · simp [find?, hk]
    · simp [find?, hk]

/-- The rows of `as` that an insert of all of them in turn adds, doing nothing on conflicts. -/
def added (t : Table key) : List α → List α
  | [] => []
  | a :: as =>
    if (t.find? (key a)).isSome then t.added as else a :: (t.insertNew a).added as

/-- The rows of `as` that such an insert skips. -/
def skipped (t : Table key) : List α → List α
  | [] => []
  | a :: as =>
    if (t.find? (key a)).isSome then a :: t.skipped as else (t.insertNew a).skipped as

theorem rows_foldl_insertNew (t : Table key) (as : List α) :
    (as.foldl insertNew t).rows = t.rows ++ t.added as := by
  induction as generalizing t with
  | nil => simp [added]
  | cons a as ih =>
    rw [List.foldl_cons, ih, added]
    cases hf : t.find? (key a) with
    | some b =>
      rw [insertNew_eq_self hf]
      simp
    | none =>
      rw [rows_insertNew_of_find?_eq_none hf]
      simp

theorem added_append_skipped_perm (t : Table key) (as : List α) :
    (t.added as ++ t.skipped as).Perm as := by
  induction as generalizing t with
  | nil => exact .nil
  | cons a as ih =>
    rw [added, skipped]
    split
    · exact List.perm_middle.trans ((ih t).cons a)
    · exact (ih _).cons a

/-- What is added has a key of its own, free before. -/
theorem nodup_added (t : Table key) (as : List α) : ((t.rows ++ t.added as).map key).Nodup := by
  rw [← rows_foldl_insertNew]
  exact (as.foldl insertNew t).nodup

/-- The keys that are added are the free ones. -/
theorem mem_keys_added {t : Table key} {as : List α} {k : κ} :
    k ∈ (t.added as).map key ↔ k ∈ as.map key ∧ t.find? k = none := by
  induction as generalizing t with
  | nil => simp [added]
  | cons a as ih =>
    rw [added]
    cases hf : t.find? (key a) with
    | some b =>
      simp only [Option.isSome_some, if_true, ih, List.map_cons, List.mem_cons]
      constructor
      · exact fun h => ⟨.inr h.1, h.2⟩
      · intro h
        refine ⟨h.1.resolve_left fun hk => ?_, h.2⟩
        rw [hk, hf] at h
        cases h.2
    | none =>
      simp only [Option.isSome_none, Bool.false_eq_true, if_false, List.map_cons, List.mem_cons, ih,
        find?_insertNew, Option.or_eq_none_iff, ite_eq_right_iff, reduceCtorEq, imp_false]
      constructor
      · intro h
        obtain rfl | h := h
        · exact ⟨.inl rfl, hf⟩
        · exact ⟨.inr h.1, h.2.1⟩
      · intro h
        by_cases hk : key a = k
        · exact .inl hk.symm
        · exact .inr ⟨h.1.resolve_left fun h => hk h.symm, h.2, hk⟩

/-- Insert, failing on a taken key. -/
def insert? (t : Table key) (a : α) : Option (Table key) :=
  if (t.find? (key a)).isSome then none else some (t.insertNew a)

theorem insert?_eq_some {t t' : Table key} {a : α} (h : t.insert? a = some t') :
    t.find? (key a) = none ∧ t'.rows = t.rows ++ [a] := by
  unfold insert? at h
  split at h
  · cases h
  · next hnone =>
    have hfind : t.find? (key a) = none := by simpa using hnone
    cases h
    exact ⟨hfind, rows_insertNew_of_find?_eq_none hfind⟩

def insertAll? (t : Table key) (as : List α) : Option (Table key) := as.foldlM insert? t

theorem rows_insertAll? {t t' : Table key} {as : List α} (h : t.insertAll? as = some t') :
    t'.rows = t.rows ++ as := by
  induction as generalizing t with
  | nil =>
    cases h
    exact (List.append_nil _).symm
  | cons a as ih =>
    rw [insertAll?, List.foldlM_cons, Option.bind_eq_bind, Option.bind_eq_some_iff] at h
    obtain ⟨mid, hmid, hrest⟩ := h
    have htail : t'.rows = mid.rows ++ as := ih hrest
    rw [htail, (insert?_eq_some hmid).2, List.append_assoc, List.singleton_append]

/-- The row written back in place of `b`: the changed row of its key, if there is one. -/
def written (key : α → κ) (as : List α) (b : α) : α := (as.find? fun a => key a = key b).getD b

theorem key_written (as : List α) (b : α) : key (written key as b) = key b := by
  unfold written
  cases hf : as.find? (fun a => key a = key b) with
  | none => rfl
  | some a => exact of_decide_eq_true (List.find?_some (p := fun a => key a = key b) hf)

/-- Write changed rows back; rows of other keys stay, and no row is added. -/
def write (t : Table key) (as : List α) : Table key where
  rows := t.rows.map (written key as)
  nodup := by
    rw [List.map_map, show key ∘ written key as = key from funext (key_written as)]
    exact t.nodup

@[simp] theorem rows_write (t : Table key) (as : List α) :
    (t.write as).rows = t.rows.map (written key as) := rfl

theorem write_nil (t : Table key) : t.write [] = t := by
  obtain ⟨rows, hrows⟩ := t
  simp only [write, mk.injEq]
  exact List.map_id' rows

theorem written_mem_or (key : α → κ) (as : List α) (b : α) :
    written key as b ∈ as ∨
      (written key as b = b ∧ ∀ a ∈ as, key a ≠ key b) := by
  unfold written
  cases hf : as.find? (fun a => key a = key b) with
  | none => exact .inr ⟨rfl, by simpa [List.find?_eq_none] using hf⟩
  | some a => exact .inl (List.mem_of_find?_eq_some hf)

/-- Two writes are one: the later rows come first. -/
theorem write_write (t : Table key) (as bs : List α) :
    (t.write as).write bs = t.write (bs ++ as) := by
  have hrows : ((t.write as).write bs).rows = (t.write (bs ++ as)).rows := by
    rw [rows_write, rows_write, rows_write, List.map_map]
    apply List.map_congr_left
    intro b _
    rw [Function.comp_apply]
    have hkey : key (written key as b) = key b := key_written as b
    rw [written, hkey, written, written, List.find?_append]
    cases bs.find? fun a => key a = key b with
    | none => rfl
    | some a => rfl
  rw [write, mk.injEq]
  exact hrows

/-- A write whose rows are all written again leaves no trace. -/
theorem write_write_of_covered {t : Table key} {as bs : List α}
    (h : ∀ a ∈ as, ∃ b ∈ bs, key b = key a) : (t.write as).write bs = t.write bs := by
  rw [write_write, write, write, mk.injEq]
  apply List.map_congr_left
  intro c _
  rw [written, written, List.find?_append]
  cases hb : bs.find? fun b => key b = key c with
  | some b => rfl
  | none =>
    cases ha : as.find? fun a => key a = key c with
    | none => rfl
    | some a =>
      obtain ⟨b, hmem, hk⟩ := h a (List.mem_of_find?_eq_some ha)
      have hac : key a = key c := of_decide_eq_true (List.find?_some (p := fun a => key a = key c) ha)
      exact absurd (decide_eq_true (hk.trans hac)) (List.find?_eq_none.mp hb b hmem)

/-- Every row after a write is a changed row or an untouched one. -/
theorem mem_write {t : Table key} {as : List α} {a : α} (h : a ∈ (t.write as).rows) :
    a ∈ as ∨ (a ∈ t.rows ∧ ∀ b ∈ as, key b ≠ key a) := by
  obtain ⟨b, hb, hba⟩ := List.mem_map.mp h
  cases written_mem_or key as b with
  | inl hm => exact .inl (hba ▸ hm)
  | inr hm =>
    have hab : a = b := hba.symm.trans hm.1
    exact .inr ⟨hab ▸ hb, hab ▸ hm.2⟩

theorem forall_write {P : α → Prop} {t : Table key} {as : List α} (has : ∀ a ∈ as, P a)
    (h : ∀ b ∈ t.rows, P b) : ∀ b ∈ (t.write as).rows, P b := by
  intro b hb
  cases mem_write hb with
  | inl hm => exact has b hm
  | inr hm => exact h b hm.1

theorem find?_write (t : Table key) (as : List α) (k : κ) :
    (t.write as).find? k = (t.find? k).map (written key as) := by
  rw [find?, rows_write, List.find?_map]
  have hfun : ((fun a => decide (key a = k)) ∘ written key as) =
      fun a => decide (key a = k) := by
    funext a
    simp [key_written]
  rw [hfun, find?]

/-- Frame rule: rows of unwritten keys are found as before. -/
theorem find?_write_of_ne {t : Table key} {as : List α} {k : κ} (h : ∀ a ∈ as, key a ≠ k) :
    (t.write as).find? k = t.find? k := by
  rw [find?_write]
  cases hf : t.find? k with
  | none => rfl
  | some b =>
    cases written_mem_or key as b with
    | inl hm =>
      have hk := (find?_eq_some_iff.mp hf).2
      exact absurd ((key_written as b).trans hk) (h _ hm)
    | inr hm => rw [Option.map_some, hm.1]

theorem written_of_mem {as : List α} (has : (as.map key).Nodup) {a b : α} (ha : a ∈ as)
    (hk : key a = key b) : written key as b = a := by
  have hfound : (⟨as, has⟩ : Table key).find? (key b) = some a := find?_eq_some_iff.mpr ⟨ha, hk⟩
  have hlist : as.find? (fun a => key a = key b) = some a := hfound
  rw [written, hlist, Option.getD_some]

theorem find?_write_of_mem {t : Table key} {as : List α} (has : (as.map key).Nodup) {a b : α}
    (ha : a ∈ as) (hb : t.find? (key a) = some b) : (t.write as).find? (key a) = some a := by
  have hk := (find?_eq_some_iff.mp hb).2
  rw [find?_write, hb, Option.map_some, written_of_mem has ha hk.symm]

/-- Insert, then write under the same key: the written row is stored, whatever was stored before. -/
theorem find?_insertNew_write (t : Table key) {a b : α} (hkey : key a = key b) (k : κ) :
    ((t.insertNew a).write [b]).find? k = if key b = k then some b else t.find? k := by
  by_cases hk : key b = k
  · subst hk
    have hfound : ∃ c, (t.insertNew a).find? (key b) = some c := by
      rw [find?_insertNew, if_pos hkey]
      cases t.find? (key b) with
      | none => exact ⟨a, rfl⟩
      | some c => exact ⟨c, rfl⟩
    obtain ⟨c, hc⟩ := hfound
    rw [if_pos rfl]
    exact find?_write_of_mem (by simp) (List.mem_singleton_self b) hc
  · rw [if_neg hk, find?_write_of_ne, find?_insertNew, if_neg (hkey ▸ hk), Option.or_none]
    intro c hc
    rw [List.mem_singleton.mp hc]
    exact hk

theorem find?_upsert (t : Table key) (a : α) (k : κ) :
    ((t.insertNew a).write [a]).find? k = if key a = k then some a else t.find? k :=
  find?_insertNew_write t rfl k

/-- Stored rows are found after an append, and so is the new row. -/
theorem find?_append {t t' : Table key} {a b : α} (hrows : t'.rows = t.rows ++ [b]) {k : κ}
    (h : t.find? k = some a) : t'.find? k = some a := by
  obtain ⟨hmem, hkey⟩ := find?_eq_some_iff.mp h
  exact find?_eq_some_iff.mpr ⟨hrows ▸ List.mem_append_left _ hmem, hkey⟩

theorem find?_last {t t' : Table key} {b : α} (hrows : t'.rows = t.rows ++ [b]) :
    t'.find? (key b) = some b :=
  find?_key (hrows ▸ List.mem_append_right _ (List.mem_singleton_self b))

/-- A changed row of a stored key is stored after the write. -/
theorem mem_write_of_mem {t : Table key} {as : List α} (has : (as.map key).Nodup) {a b : α}
    (ha : a ∈ as) (hb : b ∈ t.rows) (hk : key b = key a) : a ∈ (t.write as).rows :=
  List.mem_map.mpr ⟨b, hb, written_of_mem has ha hk.symm⟩

/-- Writing back images of distinct rows, under a map that keeps keys, applies the map to
those rows. -/
theorem written_map {f : α → α} (hf : ∀ a, key (f a) = key a) (t : Table key) {sel : List α}
    (hsel : ∀ a ∈ sel, a ∈ t.rows) (hnd : (sel.map key).Nodup) {b : α} (hb : b ∈ t.rows)
    [Decidable (b ∈ sel)] :
    written key (sel.map f) b = if b ∈ sel then f b else b := by
  have hkeys : (sel.map f).map key = sel.map key := by
    rw [List.map_map, show key ∘ f = key from funext hf]
  by_cases hm : b ∈ sel
  · rw [if_pos hm]
    exact written_of_mem (hkeys ▸ hnd) (List.mem_map_of_mem hm) (hf b)
  · rw [if_neg hm]
    cases written_mem_or key (sel.map f) b with
    | inr h => exact h.1
    | inl h =>
      obtain ⟨a, ha, hab⟩ := List.mem_map.mp h
      have hkab : key a = key b := by
        rw [← hf a, hab]
        exact key_written (sel.map f) b
      exact absurd (t.eq_of_key_eq (hsel a ha) hb hkab ▸ ha) hm

/-- A count that written rows do not change. -/
theorem countP_write_of_agree {t : Table key} {as : List α} {p : α → Bool}
    (h : ∀ a ∈ as, ∀ b ∈ t.rows, key b = key a → p a = p b) :
    (t.write as).rows.countP p = t.rows.countP p := by
  rw [rows_write, List.countP_map]
  apply List.countP_congr
  intro b hb
  rw [Function.comp_apply]
  cases written_mem_or key as b with
  | inl hm => rw [h _ hm b hb (key_written as b).symm]
  | inr hm => rw [hm.1]

/-- A write adds to a count only through rows not counted before. -/
theorem countP_write_le {t : Table key} {as : List α} {p : α → Bool}
    (h : ∀ a ∈ as, p a = true → ∀ b ∈ t.rows, key b = key a → p b = true) :
    (t.write as).rows.countP p ≤ t.rows.countP p := by
  rw [rows_write, List.countP_map]
  apply List.countP_mono_left
  intro b hb hp
  cases written_mem_or key as b with
  | inl hm => exact h _ hm hp b hb (key_written as b).symm
  | inr hm => rwa [Function.comp_apply, hm.1] at hp

/-- A count that one row loses drops. -/
theorem countP_lt_of_mem {l : List α} {p q : α → Bool} (h : ∀ a ∈ l, p a = true → q a = true)
    {a : α} (ha : a ∈ l) (hp : p a = false) (hq : q a = true) : l.countP p < l.countP q := by
  induction l with
  | nil => simp at ha
  | cons b rest ih =>
    have htail : ∀ c ∈ rest, p c = true → q c = true := fun c hc => h c (List.mem_cons_of_mem b hc)
    have hle : rest.countP p ≤ rest.countP q := List.countP_mono_left htail
    rw [List.countP_cons, List.countP_cons]
    cases List.mem_cons.mp ha with
    | inl hab =>
      subst hab
      simp only [hp, hq, Bool.false_eq_true, if_false, if_true]
      omega
    | inr hmem =>
      have hlt := ih htail hmem
      have hb : p b = true → q b = true := h b List.mem_cons_self
      cases hpb : p b with
      | false =>
        simp only [Bool.false_eq_true, if_false]
        omega
      | true =>
        simp only [hb hpb, if_true]
        omega

/-- Rows that a write newly counts are counted once each. -/
theorem countP_write_map {f : α → α} (hf : ∀ a, key (f a) = key a) (t : Table key) {sel : List α}
    (hsel : ∀ a ∈ sel, a ∈ t.rows) (hnd : (sel.map key).Nodup) {p : α → Bool}
    (hbefore : ∀ a ∈ sel, p a = false) (hafter : ∀ a ∈ sel, p (f a) = true) :
    (t.write (sel.map f)).rows.countP p = t.rows.countP p + sel.length := by
  classical
  have hpick : (t.rows.filter (· ∈ sel)).Perm sel := by
    rw [List.perm_ext_iff_of_nodup (t.rows_nodup.filter _) hnd.of_map]
    intro a
    simpa using hsel a
  have hwritten : ∀ b ∈ t.rows, (p ∘ written key (sel.map f)) b =
      (p b || decide (b ∈ sel)) := by
    intro b hb
    rw [Function.comp_apply, written_map hf t hsel hnd hb]
    by_cases hm : b ∈ sel
    · simp [hm, hafter b hm]
    · simp [hm]
  have hsplit := (KeyedOrder.filter_append_filter_perm (p := p) (q := (· ∈ sel))
    (r := fun b => p b || decide (b ∈ sel)) (fun _ => rfl) (fun a ha => by
      rw [decide_eq_true_eq] at ha
      simp [hbefore a ha.2] at ha) t.rows).length_eq
  rw [List.length_append, hpick.length_eq] at hsplit
  rw [rows_write, List.countP_map, List.countP_congr (fun b hb => by rw [hwritten b hb]),
    List.countP_eq_length_filter, List.countP_eq_length_filter, ← hsplit]

/-- Writing one row adds at most one to a count. -/
theorem countP_write_singleton_le (t : Table key) (a : α) (p : α → Bool) :
    (t.write [a]).rows.countP p ≤ t.rows.countP p + 1 := by
  cases hf : t.find? (key a) with
  | none =>
    have hle : (t.write [a]).rows.countP p ≤ t.rows.countP p := by
      apply countP_write_le
      intro c hc _ b hb hk
      rw [List.mem_singleton] at hc
      subst hc
      exact absurd hk (find?_eq_none_iff.mp hf b hb)
    omega
  | some b =>
    obtain ⟨hb, hk⟩ := find?_eq_some_iff.mp hf
    by_cases hgrow : p a = true ∧ p b = false
    · have hsel : ∀ c ∈ [b], c ∈ t.rows := by simpa using hb
      have hcount := countP_write_map (f := fun c => if key c = key a then a else c)
        (fun c => by split <;> simp_all) t hsel (by simp)
        (p := p) (by simpa using hgrow.2) (by simpa [hk] using hgrow.1)
      simp only [List.map_singleton, hk, if_true, List.length_singleton] at hcount
      exact hcount.le
    · have hle : (t.write [a]).rows.countP p ≤ t.rows.countP p := by
        apply countP_write_le
        intro c hc hpc d hd hkd
        rw [List.mem_singleton] at hc
        subst hc
        have hbd : d = b := t.eq_of_key_eq hd hb (hkd.trans hk.symm)
        subst hbd
        cases hpd : p d with
        | true => rfl
        | false => exact absurd ⟨hpc, hpd⟩ hgrow
      omega

/-- A write relates a table to itself when every written row is related to the row it
replaces. -/
theorem related_write {R : α → α → Prop} {t : Table key} {as : List α}
    (hR : ∀ b ∈ t.rows, R b b)
    (has : ∀ a ∈ as, ∀ b ∈ t.rows, key b = key a → R b a) : Related R t (t.write as) := by
  unfold Related
  rw [rows_write, List.forall₂_map_right_iff, List.forall₂_same]
  intro b hb
  refine ⟨(key_written as b).symm, ?_⟩
  cases written_mem_or key as b with
  | inl hm => exact has _ hm b hb (key_written as b).symm
  | inr hm =>
    rw [hm.1]
    exact hR b hb

/-- Overwriting every row: only the later rows count. -/
theorem related_write_write {R : α → α → Prop} {t : Table key} {as bs : List α}
    (hcover : ∀ b ∈ t.rows, ∃ a ∈ bs, key a = key b)
    (hbs : ∀ a ∈ bs, ∀ b ∈ t.rows, key b = key a → R b a) :
    Related R t ((t.write as).write bs) := by
  unfold Related
  rw [rows_write, rows_write, List.map_map, List.forall₂_map_right_iff, List.forall₂_same]
  intro b hb
  have hkey : key (written key as b) = key b := key_written as b
  rw [Function.comp_apply]
  refine ⟨(hkey.symm.trans (key_written bs _).symm), ?_⟩
  cases written_mem_or key bs (written key as b) with
  | inl hm => exact hbs _ hm b hb (hkey.symm.trans (key_written bs _).symm)
  | inr hm =>
    obtain ⟨a, ha, hab⟩ := hcover b hb
    exact absurd (hab.trans hkey.symm) (hm.2 a ha)

end Table

section Inserts
variable {α β κ ε : Type} [DecidableEq κ] {key : α → κ}

/-- A loop of inserts that do nothing on a conflict: no row is lost, every item has a row of its
key afterwards, and a new row is that of an item. -/
theorem insertLoop_eq_ok {insert : Table key → β → Except ε (Table key)} (row : β → α)
    (hinsert : ∀ t item t', insert t item = .ok t' → t' = t.insertNew (row item))
    {items : List β} {t t' : Table key} (h : items.foldlM insert t = .ok t') :
    (∀ a ∈ t.rows, a ∈ t'.rows) ∧ (∀ item ∈ items, ∃ a ∈ t'.rows, key a = key (row item)) ∧
      ∀ a ∈ t'.rows, a ∈ t.rows ∨ ∃ item ∈ items, a = row item := by
  have hrows : t' = (items.map row).foldl Table.insertNew t := by
    refine Results.foldlM_invariant
      (fun done s => s = (done.map row).foldl Table.insertNew t) ?_ h rfl
    intro done item s s' hdone hstep
    rw [hinsert s item s' hstep, hdone]
    simp
  have hadded : t'.rows = t.rows ++ t.added (items.map row) := by
    rw [hrows, Table.rows_foldl_insertNew]
  have hperm := Table.added_append_skipped_perm t (items.map row)
  rw [hadded]
  refine ⟨fun a ha => List.mem_append_left _ ha, ?_, ?_⟩
  · intro item hitem
    cases hfind : t.find? (key (row item)) with
    | some a =>
      obtain ⟨ha, hkey⟩ := Table.find?_eq_some_iff.mp hfind
      exact ⟨a, List.mem_append_left _ ha, hkey⟩
    | none =>
      have hmem : key (row item) ∈ (t.added (items.map row)).map key :=
        Table.mem_keys_added.mpr ⟨List.mem_map_of_mem (List.mem_map_of_mem hitem), hfind⟩
      obtain ⟨a, ha, hkey⟩ := List.mem_map.mp hmem
      exact ⟨a, List.mem_append_right _ ha, hkey⟩
  · intro a ha
    cases List.mem_append.mp ha with
    | inl hold => exact .inl hold
    | inr hnew =>
      have hmem : a ∈ items.map row := hperm.mem_iff.mp (List.mem_append_left _ hnew)
      obtain ⟨item, hitem, hrow⟩ := List.mem_map.mp hmem
      exact .inr ⟨item, hitem, hrow.symm⟩

end Inserts

end KeyedTable
