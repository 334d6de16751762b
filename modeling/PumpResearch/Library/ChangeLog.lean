import PumpResearch.Library.Results

/-! A log that keeps an entry only if its content differs from the entry kept before. At every time
it tells the content that the full log tells. -/
namespace ChangeLog

open Results

variable {α κ τ : Type*}

/-! ### Compression -/

section Compression

variable [DecidableEq κ] (content : α → κ)

/-- Appends an entry, unless the last one kept has its content. -/
def keep (kept : List α) (a : α) : List α :=
  if kept.getLast?.map content = some (content a) then kept else kept ++ [a]

def compress (log : List α) : List α := log.foldl (keep content) []

/-- How many contents differ from the one before them. -/
def changes : Option κ → List κ → Nat
  | _, [] => 0
  | before, c :: rest => (if before = some c then 0 else 1) + changes (some c) rest

theorem compress_concat (log : List α) (a : α) :
    compress content (log ++ [a]) = keep content (compress content log) a := by
  rw [compress, List.foldl_append]
  rfl

theorem compress_sublist (log : List α) : (compress content log).Sublist log := by
  induction log using List.reverseRecOn with
  | nil => exact .slnil
  | append_singleton log a ih =>
    rw [compress_concat, keep]
    split
    · exact ih.trans (List.sublist_append_left log [a])
    · exact ih.append (List.Sublist.refl [a])

/-- The last entry kept has the content of the last entry. -/
theorem getLast?_compress (log : List α) :
    (compress content log).getLast?.map content = log.getLast?.map content := by
  induction log using List.reverseRecOn with
  | nil => rfl
  | append_singleton log a ih =>
    rw [compress_concat, keep, List.getLast?_concat]
    split
    · next hsame => exact hsame
    · rw [List.getLast?_concat]

theorem changes_concat (before : Option κ) (cs : List κ) (c : κ) :
    changes before (cs ++ [c]) =
      changes before cs + if cs.getLast?.or before = some c then 0 else 1 := by
  induction cs generalizing before with
  | nil => exact (Nat.zero_add _).symm
  | cons b cs ih =>
    have hlast : (b :: cs).getLast?.or before = cs.getLast?.or (some b) := by
      rw [List.getLast?_cons]
      cases cs.getLast? with
      | none => rfl
      | some d => rfl
    rw [List.cons_append, changes, ih, changes, hlast]
    omega

/-- One entry is kept for every change. -/
theorem length_compress (log : List α) :
    (compress content log).length = changes none (log.map content) := by
  induction log using List.reverseRecOn with
  | nil => rfl
  | append_singleton log a ih =>
    have hlast : (log.map content).getLast?.or none = (compress content log).getLast?.map content := by
      rw [getLast?_compress, List.getLast?_map, Option.or_none]
    rw [compress_concat, List.map_append, List.map_singleton, changes_concat, hlast, ← ih, keep]
    split
    · rfl
    · rw [List.length_append, List.length_singleton]

/-- A digest tells contents apart, so it can stand for them. -/
theorem compress_comp {δ : Type*} [DecidableEq δ] {digest : κ → δ} (hdigest : digest.Injective)
    (log : List α) : compress (fun a => digest (content a)) log = compress content log := by
  induction log using List.reverseRecOn with
  | nil => rfl
  | append_singleton log a ih =>
    have hmap : (compress content log).getLast?.map (fun a => digest (content a)) =
        ((compress content log).getLast?.map content).map digest := by
      rw [Option.map_map]
      rfl
    rw [compress_concat, compress_concat, ih, keep, keep, hmap, ← Option.map_some]
    exact if_congr (Option.map_injective hdigest).eq_iff rfl rfl

end Compression

/-! ### Recording -/

section Recording

variable {σ ε ρ : Type} {α : Type} [DecidableEq κ] (content : α → κ) (row : α → ρ)
  (rowsOf : σ → List ρ) (step : σ → α → Except ε σ) (fits : α → Prop) (follows : α → α → Prop)

/-- An entry that can be kept after those kept before. -/
def Admitted (kept : List α) (a : α) : Prop := fits a ∧ ∀ b ∈ kept.getLast?, follows b a

/-- A log whose every kept entry was admitted. -/
def Accepted (log : List α) : Prop :=
  (∀ a ∈ compress content log, fits a) ∧ (compress content log).IsChain follows

/-- A step that keeps an entry as a row if its content is new. -/
structure Records (before : List ρ) (kept : List α) (a : α) : Prop where
  same : ∀ s, rowsOf s = before ++ kept.map row → kept.getLast?.map content = some (content a) →
    ∃ s', step s a = .ok s' ∧ rowsOf s' = before ++ kept.map row
  changed : ∀ s, rowsOf s = before ++ kept.map row →
    kept.getLast?.map content ≠ some (content a) → Admitted fits follows kept a →
      ∃ s', step s a = .ok s' ∧ rowsOf s' = before ++ (kept ++ [a]).map row
  refused : ∀ s s', rowsOf s = before ++ kept.map row →
    kept.getLast?.map content ≠ some (content a) → step s a = .ok s' →
      Admitted fits follows kept a

variable {content row rowsOf step fits follows}

theorem accepted_concat {log : List α} {a : α} :
    Accepted content fits follows (log ++ [a]) ↔
      Accepted content fits follows log ∧
        ((compress content log).getLast?.map content ≠ some (content a) →
          Admitted fits follows (compress content log) a) := by
  rw [Accepted, compress_concat, keep]
  by_cases h : (compress content log).getLast?.map content = some (content a)
  · rw [if_pos h]
    exact ⟨fun hlog => ⟨hlog, fun hne => absurd h hne⟩, fun hlog => hlog.1⟩
  · rw [if_neg h, List.isChain_append]
    simp only [List.mem_append, List.mem_singleton, List.isChain_singleton, List.head?_cons,
      Option.mem_some_iff, true_and, forall_eq']
    constructor
    · intro ⟨hfits, hchain, hlast⟩
      exact ⟨⟨fun b hb => hfits b (.inl hb), hchain⟩, fun _ => ⟨hfits a (.inr rfl), hlast⟩⟩
    · intro ⟨⟨hfits, hchain⟩, hnew⟩
      refine ⟨?_, hchain, (hnew h).2⟩
      intro b hb
      cases hb with
      | inl hb => exact hfits b hb
      | inr hb => exact hb ▸ (hnew h).1

/-- A recording run keeps the compressed log, and it ends if the log is accepted. -/
theorem run_records {before : List ρ} {log : List α} {s₀ : σ} (hstart : rowsOf s₀ = before)
    (hrecords : ∀ done a, (done ++ [a]) <+: log →
      Records content row rowsOf step fits follows before (compress content done) a) :
    (∀ s, log.foldlM step s₀ = .ok s →
      rowsOf s = before ++ (compress content log).map row ∧ Accepted content fits follows log) ∧
    (Accepted content fits follows log → ∃ s, log.foldlM step s₀ = .ok s) := by
  induction log using List.reverseRecOn with
  | nil =>
    refine ⟨?_, fun _ => ⟨s₀, rfl⟩⟩
    intro s hs
    cases hs
    exact ⟨by rw [hstart]; exact (List.append_nil before).symm, by simp [compress], .nil⟩
  | append_singleton log a ih =>
    obtain ⟨hrun, hexists⟩ := ih fun done b hdone =>
      hrecords done b (hdone.trans (List.prefix_append log [a]))
    have hlast := hrecords log a (List.prefix_refl _)
    constructor
    · intro s hs
      obtain ⟨mid, hmid, hstep⟩ := foldlM_concat.mp hs
      obtain ⟨hrows, haccepted⟩ := hrun mid hmid
      rw [accepted_concat, compress_concat, keep]
      by_cases h : (compress content log).getLast?.map content = some (content a)
      · obtain ⟨s', hs', hrows'⟩ := hlast.same mid hrows h
        obtain rfl := Except.ok.inj (hs'.symm.trans hstep)
        rw [if_pos h]
        exact ⟨hrows', haccepted, fun hne => absurd h hne⟩
      · have hadmitted := hlast.refused mid s hrows h hstep
        obtain ⟨s', hs', hrows'⟩ := hlast.changed mid hrows h hadmitted
        obtain rfl := Except.ok.inj (hs'.symm.trans hstep)
        rw [if_neg h]
        exact ⟨hrows', haccepted, fun _ => hadmitted⟩
    · intro haccepted
      obtain ⟨hlog, hnew⟩ := accepted_concat.mp haccepted
      obtain ⟨mid, hmid⟩ := hexists hlog
      obtain ⟨hrows, _⟩ := hrun mid hmid
      by_cases h : (compress content log).getLast?.map content = some (content a)
      · obtain ⟨s', hs', _⟩ := hlast.same mid hrows h
        exact ⟨s', foldlM_concat.mpr ⟨mid, hmid, hs'⟩⟩
      · obtain ⟨s', hs', _⟩ := hlast.changed mid hrows h (hnew h)
        exact ⟨s', foldlM_concat.mpr ⟨mid, hmid, hs'⟩⟩

end Recording

/-! ### The log at a time -/

section AsOf

variable [LinearOrder τ] (time : α → τ)

/-- The last entry that is not later than a time. -/
def asOf (t : τ) (log : List α) : Option α := (log.filter fun a => time a ≤ t).getLast?

theorem asOf_concat (t : τ) (log : List α) (a : α) :
    asOf time t (log ++ [a]) = if time a ≤ t then some a else asOf time t log := by
  rw [asOf, List.filter_append]
  by_cases h : time a ≤ t
  · rw [if_pos h, List.filter_cons_of_pos (by simpa using h), List.filter_nil, List.getLast?_concat]
  · rw [if_neg h, List.filter_cons_of_neg (by simpa using h), List.filter_nil, List.append_nil]
    rfl

theorem asOf_of_forall_le {t : τ} {log : List α} (h : ∀ a ∈ log, time a ≤ t) :
    asOf time t log = log.getLast? := by
  rw [asOf, List.filter_eq_self.mpr fun a ha => by simpa using h a ha]

/-- A compressed log in order of time tells the content of every time. -/
theorem asOf_compress [DecidableEq κ] (content : α → κ) {log : List α}
    (hsorted : log.Pairwise fun a b => time a ≤ time b) (t : τ) :
    (asOf time t (compress content log)).map content = (asOf time t log).map content := by
  induction log using List.reverseRecOn with
  | nil => rfl
  | append_singleton log a ih =>
    obtain ⟨hlog, _, hlast⟩ := List.pairwise_append.mp hsorted
    rw [compress_concat, asOf_concat, keep]
    by_cases ha : time a ≤ t
    · rw [if_pos ha]
      split
      · next hsame =>
        have hall : ∀ b ∈ compress content log, time b ≤ t := fun b hb =>
          (hlast b ((compress_sublist content log).subset hb) a List.mem_cons_self).trans ha
        rw [asOf_of_forall_le time hall, hsame, Option.map_some]
      · rw [asOf_concat, if_pos ha]
    · rw [if_neg ha]
      split
      · exact ih hlog
      · rw [asOf_concat, if_neg ha, ih hlog]

end AsOf

/-! ### The greatest entry -/

section Greatest

variable [LinearOrder τ] {time : α → τ}

/-- In order of time the greatest entry is the last. -/
theorem argmax_eq_getLast? {log : List α} (h : log.Pairwise fun a b => time a < time b) :
    log.argmax time = log.getLast? := by
  induction log using List.reverseRecOn with
  | nil => rfl
  | append_singleton log a ih =>
    obtain ⟨hlog, _, hlast⟩ := List.pairwise_append.mp h
    rw [List.getLast?_concat, List.argmax_concat, ih hlog]
    cases hg : log.getLast? with
    | none => rfl
    | some b =>
      have hlt := hlast b (List.mem_of_getLast? hg) a List.mem_cons_self
      simp only
      rw [if_pos hlt]

end Greatest

end ChangeLog
