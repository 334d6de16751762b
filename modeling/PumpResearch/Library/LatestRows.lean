import PumpResearch.Library.KeyedOrder

/-! Rows of several scopes, to which a row is appended when its content is not that of the latest row
of its scope. The latest row is the one of the greatest key, which need not be the last one appended:
a batch that is offered twice is silent the second time exactly when it left each scope with a latest
row of the one content that it offered there. -/
namespace LatestRows

open KeyedOrder

variable {ρ σ κ δ : Type*} [DecidableEq σ] [LinearOrder κ] [DecidableEq δ]
  (scope : ρ → σ) (key : ρ → κ) (content : ρ → δ)

def latest (rows : List ρ) (s : σ) : Option ρ := firstMax key (rows.filter fun row => scope row = s)

/-- The latest row of the scope of `r` has its content. -/
def Current (rows : List ρ) (r : ρ) : Prop :=
  ∃ row ∈ latest scope key rows (scope r), content row = content r

instance decidableCurrent (rows : List ρ) : DecidablePred (Current scope key content rows) :=
  fun r => inferInstanceAs (Decidable (∃ row ∈ latest scope key rows (scope r), _))

def appendChanged (rows : List ρ) (r : ρ) : List ρ :=
  if Current scope key content rows r then rows else rows ++ [r]

def offer (rows : List ρ) (batch : List ρ) : List ρ :=
  batch.foldl (appendChanged scope key content) rows

section Offers

variable {scope key content} {rows batch : List ρ} {r row : ρ}

theorem mem_latest {s : σ} (h : row ∈ latest scope key rows s) : row ∈ rows ∧ scope row = s := by
  have hmem := List.mem_filter.mp (mem_of_firstMax h)
  exact ⟨hmem.1, of_decide_eq_true hmem.2⟩

theorem key_le_latest {other : ρ} (h : row ∈ latest scope key rows (scope other))
    (hother : other ∈ rows) : key other ≤ key row :=
  le_of_firstMax h (List.mem_filter.mpr ⟨hother, decide_eq_true rfl⟩)

theorem appendChanged_of_current (h : Current scope key content rows r) :
    appendChanged scope key content rows r = rows := if_pos h

theorem appendChanged_of_changed (h : ¬ Current scope key content rows r) :
    appendChanged scope key content rows r = rows ++ [r] := if_neg h

theorem prefix_appendChanged : rows <+: appendChanged scope key content rows r := by
  by_cases h : Current scope key content rows r
  · rw [appendChanged_of_current h]
  · rw [appendChanged_of_changed h]
    exact List.prefix_append rows [r]

theorem prefix_offer : rows <+: offer scope key content rows batch := by
  induction batch generalizing rows with
  | nil => exact List.prefix_rfl
  | cons r batch ih => exact prefix_appendChanged.trans ih

theorem mem_offer (h : row ∈ offer scope key content rows batch) : row ∈ rows ∨ row ∈ batch := by
  induction batch generalizing rows with
  | nil => exact .inl h
  | cons r batch ih =>
    cases ih h with
    | inr hbatch => exact .inr (List.mem_cons_of_mem r hbatch)
    | inl hrows =>
      by_cases hcurrent : Current scope key content rows r
      · rw [appendChanged_of_current hcurrent] at hrows
        exact .inl hrows
      · rw [appendChanged_of_changed hcurrent, List.mem_append, List.mem_singleton] at hrows
        cases hrows with
        | inl hold => exact .inl hold
        | inr heq => exact .inr (heq ▸ List.mem_cons_self)

theorem offer_append (rows batch batch' : List ρ) :
    offer scope key content rows (batch ++ batch') =
      offer scope key content (offer scope key content rows batch) batch' := List.foldl_append

/-- A batch is silent exactly when each of its rows has the content of the latest one. -/
theorem offer_eq_self_iff : offer scope key content rows batch = rows ↔
    ∀ r ∈ batch, Current scope key content rows r := by
  induction batch with
  | nil => exact ⟨fun _ _ h => absurd h List.not_mem_nil, fun _ => rfl⟩
  | cons r batch ih =>
    rw [List.forall_mem_cons]
    by_cases hcurrent : Current scope key content rows r
    · have hoffer : offer scope key content rows (r :: batch) =
          offer scope key content rows batch := by
        rw [offer, List.foldl_cons, appendChanged_of_current hcurrent]
        rfl
      rw [hoffer, ih]
      exact (and_iff_right hcurrent).symm
    · refine iff_of_false (fun hsame => ?_) fun hall => hcurrent hall.1
      have hextends : rows ++ [r] <+: offer scope key content rows (r :: batch) := by
        rw [offer, List.foldl_cons, appendChanged_of_changed hcurrent]
        exact prefix_offer
      have hlength := hextends.length_le
      rw [hsame, List.length_append, List.length_singleton] at hlength
      omega

/-- Each row of a batch is stored, or a stored row of its content was the latest when it came. -/
theorem offered (scope : ρ → σ) (key : ρ → κ) (content : ρ → δ) (rows : List ρ) (h : r ∈ batch) :
    r ∈ offer scope key content rows batch ∨
    ∃ row ∈ offer scope key content rows batch, scope row = scope r ∧ content row = content r ∧
      ∀ other ∈ rows, scope other = scope r → key other ≤ key row := by
  induction batch generalizing rows with
  | nil => cases h
  | cons a batch ih =>
    have hextends : appendChanged scope key content rows a <+:
        offer scope key content rows (a :: batch) := prefix_offer
    cases List.mem_cons.mp h with
    | inr hbatch =>
      cases ih (appendChanged scope key content rows a) hbatch with
      | inl hstored => exact .inl hstored
      | inr hlatest =>
        obtain ⟨row, hrow, hscope, hcontent, hle⟩ := hlatest
        exact .inr ⟨row, hrow, hscope, hcontent, fun other hother =>
          hle other (prefix_appendChanged.subset hother)⟩
    | inl heq =>
      subst heq
      by_cases hcurrent : Current scope key content rows r
      · obtain ⟨row, hrow, hcontent⟩ := hcurrent
        have hmem := mem_latest hrow
        refine .inr ⟨row, prefix_offer.subset hmem.1, hmem.2, hcontent, ?_⟩
        intro other hother hscope
        exact key_le_latest (hscope ▸ hrow) hother
      · rw [appendChanged_of_changed hcurrent] at hextends
        exact .inl (hextends.subset (List.mem_append_right rows List.mem_cons_self))

omit [LinearOrder κ] in
theorem eq_of_key (hkeys : ((rows ++ batch).map key).Nodup) {a b : ρ} (ha : a ∈ rows ∨ a ∈ batch)
    (hb : b ∈ rows ∨ b ∈ batch) (h : key a = key b) : a = b :=
  List.inj_on_of_nodup_map hkeys (List.mem_append.mpr ha) (List.mem_append.mpr hb) h

theorem exists_latest (key : ρ → κ) {s : σ} (hrow : row ∈ rows) (hscope : scope row = s) :
    ∃ m, m ∈ latest scope key rows s := by
  cases h : latest scope key rows s with
  | some m => exact ⟨m, rfl⟩
  | none =>
    have hempty := firstMax_eq_none.mp h
    have hmem : row ∈ rows.filter fun row => scope row = s :=
      List.mem_filter.mpr ⟨hrow, decide_eq_true hscope⟩
    rw [hempty] at hmem
    cases hmem

/-- What a batch has to be for its scopes to end with its contents: it offers one content in a scope,
which the latest row had before or which comes later than every row of the scope. -/
def Settles (scope : ρ → σ) (key : ρ → κ) (content : ρ → δ) (rows batch : List ρ) : Prop :=
  ∀ r ∈ batch, (∀ r' ∈ batch, scope r' = scope r → content r' = content r) ∧
    (Current scope key content rows r ∨
      ∃ r' ∈ batch, scope r' = scope r ∧ ∀ row ∈ rows, scope row = scope r → key row < key r')

theorem current_of_settles (hkeys : ((rows ++ batch).map key).Nodup)
    (h : Settles scope key content rows batch) (hr : r ∈ batch) :
    Current scope key content (offer scope key content rows batch) r := by
  obtain ⟨hone, hlater⟩ := h r hr
  -- the scope is not empty afterwards
  obtain ⟨row, hrow⟩ : ∃ row, row ∈ latest scope key (offer scope key content rows batch)
      (scope r) := by
    cases offered scope key content rows hr with
    | inl hstored => exact exists_latest key hstored rfl
    | inr hstored =>
      obtain ⟨row, hrow, hscope, _⟩ := hstored
      exact exists_latest key hrow hscope
  refine ⟨row, hrow, ?_⟩
  obtain ⟨hmem, hscope⟩ := mem_latest hrow
  cases mem_offer hmem with
  | inr hbatch => exact hone row hbatch hscope
  | inl hold =>
    cases hlater with
    | inl hcurrent =>
      obtain ⟨m, hm, hcontent⟩ := hcurrent
      obtain ⟨hmRows, hmScope⟩ := mem_latest hm
      have hle : key row ≤ key m := key_le_latest (hscope.symm ▸ hm) hold
      have hge : key m ≤ key row := key_le_latest (hmScope.symm ▸ hrow) (prefix_offer.subset hmRows)
      rw [eq_of_key hkeys (.inl hold) (.inl hmRows) (le_antisymm hle hge)]
      exact hcontent
    | inr hexists =>
      obtain ⟨r', hr', hscope', hlt⟩ := hexists
      -- the later row was not stored, so its content was the latest when it came
      cases offered scope key content rows hr' with
      | inl hstored =>
        have hle : key r' ≤ key row := key_le_latest (hscope'.symm ▸ hrow) hstored
        exact absurd (hlt row hold hscope) (not_lt.mpr hle)
      | inr hearlier =>
        obtain ⟨m, hm, hmScope, hmContent, hmax⟩ := hearlier
        have hge : key m ≤ key row :=
          key_le_latest ((hmScope.trans hscope').symm ▸ hrow) hm
        have hle : key row ≤ key m := hmax row hold (hscope.trans hscope'.symm)
        rw [eq_of_key hkeys (.inl hold) (mem_offer hm) (le_antisymm hle hge), hmContent]
        exact hone r' hr' hscope'

theorem settles_of_current (hkeys : ((rows ++ batch).map key).Nodup)
    (h : ∀ r ∈ batch, Current scope key content (offer scope key content rows batch) r) :
    Settles scope key content rows batch := by
  intro r hr
  obtain ⟨row, hrow, hcontent⟩ := h r hr
  obtain ⟨hmem, hscope⟩ := mem_latest hrow
  constructor
  · intro r' hr' hscope'
    obtain ⟨row', hrow', hcontent'⟩ := h r' hr'
    rw [hscope', hrow] at hrow'
    rw [← hcontent', ← hcontent, Option.some.inj hrow']
  · have hmax (other : ρ) (hother : other ∈ rows) (hsame : scope other = scope r) :
        key other ≤ key row := key_le_latest (hsame.symm ▸ hrow) (prefix_offer.subset hother)
    by_cases hold : row ∈ rows
    · refine .inl ?_
      obtain ⟨m, hm⟩ := exists_latest key hold hscope
      obtain ⟨hmRows, hmScope⟩ := mem_latest hm
      have hle : key row ≤ key m := key_le_latest (hscope.symm ▸ hm) hold
      have heq : row = m := eq_of_key hkeys (.inl hold) (.inl hmRows)
        (le_antisymm hle (hmax m hmRows hmScope))
      exact ⟨m, hm, heq ▸ hcontent⟩
    · have hbatch : row ∈ batch := (mem_offer hmem).resolve_left hold
      refine .inr ⟨row, hbatch, hscope, fun other hother hsame => ?_⟩
      refine lt_of_le_of_ne (hmax other hother hsame) fun hkey => hold ?_
      exact eq_of_key hkeys (.inl hother) (.inr hbatch) hkey ▸ hother

omit [DecidableEq δ] in
theorem current_congr {r' : ρ} (h : scope r = scope r' ∧ content r = content r') :
    Current scope key content rows r ↔ Current scope key content rows r' := by
  rw [Current, Current, h.1, h.2]

/-- A second batch of the same scopes and contents is silent exactly when the first one settled. -/
theorem offer_again_iff {again : List ρ} (hkeys : ((rows ++ batch).map key).Nodup)
    (hagain : List.Forall₂ (fun r r' => scope r = scope r' ∧ content r = content r') batch again) :
    offer scope key content (offer scope key content rows batch) again =
      offer scope key content rows batch ↔ Settles scope key content rows batch := by
  rw [offer_eq_self_iff]
  have hsame : (∀ r ∈ again, Current scope key content (offer scope key content rows batch) r) ↔
      ∀ r ∈ batch, Current scope key content (offer scope key content rows batch) r := by
    generalize offer scope key content rows batch = stored
    clear hkeys
    induction hagain with
    | nil => exact Iff.rfl
    | cons hhead _ ih => rw [List.forall_mem_cons, List.forall_mem_cons, ih, current_congr hhead]
  rw [hsame]
  exact ⟨settles_of_current hkeys, fun h r hr => current_of_settles hkeys h hr⟩

end Offers

end LatestRows
