import PumpResearch.Library.KeyedOrder

/-! Service of a fixed population in batches: each round serves the items that are first in order
and puts them behind all others. Every item is served within as many rounds as the population
fills, and service is balanced when batches fill the population exactly. -/
namespace Rotation
open KeyedOrder

variable {α κ ρ : Type*} [LinearOrder κ] [LinearOrder ρ]

/-- One round. Items served together stand in the order of a fixed rank afterwards. -/
structure Served (population : List α) (rank : α → ρ) (batch : Nat) (key key' : α → κ)
    (picked : List α) : Prop where
  distinct : ∀ a ∈ population, ∀ b ∈ population, key a = key b → a = b
  first : picked = (sortOn key population).take batch
  kept : ∀ a ∈ population, a ∉ picked → key' a = key a
  behind : ∀ a ∈ population, a ∉ picked → ∀ b ∈ picked, key' a < key' b
  ranked : ∀ a ∈ picked, ∀ b ∈ picked, rank a < rank b → key' a < key' b

inductive Rounds (population : List α) (rank : α → ρ) (batch : Nat) :
    (α → κ) → List (List α) → (α → κ) → Prop
  | nil (key : α → κ) : Rounds population rank batch key [] key
  | cons {key key' key'' : α → κ} {picked : List α} {rounds : List (List α)}
      (h : Served population rank batch key key' picked)
      (hrest : Rounds population rank batch key' rounds key'') :
      Rounds population rank batch key (picked :: rounds) key''

section Order
variable {population : List α} {rank : α → ρ} {batch : Nat} {key key' : α → κ}
  {picked : List α} {rounds : List (List α)}

/-- A list in strict order of the keys is the sorted population. -/
theorem sortOn_eq_of_perm {sorted : List α} (hperm : sorted.Perm population)
    (horder : sorted.Pairwise fun a b => key a < key b) : sortOn key population = sorted := by
  have hnodup : (sorted.map key).Nodup := by
    rw [List.nodup_iff_pairwise_ne, List.pairwise_map]
    exact horder.imp fun hlt => hlt.ne
  have hsame : SameByKey key population sorted :=
    SameByKey.of_nodup ((hperm.map key).nodup_iff.mp hnodup) hnodup fun a => hperm.mem_iff.symm
  rw [hsame.sortOn_eq]
  exact sortOn_eq_self (horder.imp fun hlt => hlt.le)

theorem Served.mem_population (h : Served population rank batch key key' picked) {a : α}
    (ha : a ∈ picked) : a ∈ population := by
  rw [h.first] at ha
  exact (mem_sortOn _ _ _).mp (List.mem_of_mem_take ha)

theorem Served.nodup (h : Served population rank batch key key' picked)
    (hpopulation : population.Nodup) : picked.Nodup := by
  rw [h.first]
  exact ((sortOn_perm key population).nodup_iff.mpr hpopulation).sublist (List.take_sublist _ _)

/-- What is served comes before what is not. -/
theorem Served.lt_of_notMem (h : Served population rank batch key key' picked) {a b : α}
    (ha : a ∈ picked) (hb : b ∈ population) (hnot : b ∉ picked) : key a < key b := by
  have hmem := h.mem_population ha
  have hsplit := List.take_append_drop batch (sortOn key population)
  have hdrop : b ∈ (sortOn key population).drop batch := by
    have hsorted := (mem_sortOn key population b).mpr hb
    rw [← hsplit, ← h.first] at hsorted
    exact (List.mem_append.mp hsorted).resolve_left hnot
  have hpairwise := sortOn_pairwise key population
  rw [← hsplit, ← h.first] at hpairwise
  refine lt_of_le_of_ne ((List.pairwise_append.mp hpairwise).2.2 a ha b hdrop) fun heq => ?_
  exact hnot (h.distinct a hmem b hb heq ▸ ha)

theorem Served.sortOn_pairwise_lt (h : Served population rank batch key key' picked)
    (hpopulation : population.Nodup) :
    (sortOn key population).Pairwise fun a b => key a < key b := by
  have hnodup := (sortOn_perm key population).nodup_iff.mpr hpopulation
  refine ((sortOn_pairwise key population).and hnodup).imp_of_mem fun {a b} ha hb hab => ?_
  exact lt_of_le_of_ne hab.1 fun heq =>
    hab.2 (h.distinct a ((mem_sortOn _ _ _).mp ha) b ((mem_sortOn _ _ _).mp hb) heq)

/-- Only the keys of the population matter. -/
theorem Served.congr_key (h : Served population rank batch key key' picked)
    (hpopulation : population.Nodup) {other : α → κ} (heq : ∀ a ∈ population, other a = key a) :
    Served population rank batch other key' picked where
  distinct a ha b hb hab := h.distinct a ha b hb (by rwa [← heq a ha, ← heq b hb])
  first := by
    have hsame : sortOn other population = sortOn key population := by
      refine sortOn_eq_of_perm (sortOn_perm key population) ?_
      refine (h.sortOn_pairwise_lt hpopulation).imp_of_mem fun {a b} ha hb hlt => ?_
      rwa [heq a ((mem_sortOn _ _ _).mp ha), heq b ((mem_sortOn _ _ _).mp hb)]
    rw [hsame]
    exact h.first
  kept a ha hnot := (h.kept a ha hnot).trans (heq a ha).symm
  behind := h.behind
  ranked := h.ranked

/-- A batch is full unless it serves everyone. -/
theorem Served.length_eq (h : Served population rank batch key key' picked) {b : α}
    (hb : b ∈ population) (hnot : b ∉ picked) : picked.length = batch := by
  rw [h.first, List.length_take, Nat.min_eq_left]
  by_contra hlt
  refine hnot ?_
  rw [h.first, List.take_of_length_le (not_le.mp hlt).le]
  exact (mem_sortOn key population b).mpr hb

end Order

/-! ### Everyone is served -/

section Coverage
variable {population : List α} {rank : α → ρ} {batch : Nat} {key key' : α → κ}
  {picked : List α} {rounds : List (List α)}

/-- How many stand ahead of an item. -/
def ahead (population : List α) (key : α → κ) (a : α) : Nat :=
  population.countP fun b => key b < key a

theorem ahead_lt (key : α → κ) {a : α} (ha : a ∈ population) :
    ahead population key a < population.length := by
  refine lt_of_le_of_ne List.countP_le_length fun heq => ?_
  have hself := List.countP_eq_length.mp heq a ha
  simp at hself

/-- A round that passes an item over moves a whole batch behind it. -/
theorem Served.ahead_add_le (h : Served population rank batch key key' picked)
    (hpopulation : population.Nodup) {a : α} (ha : a ∈ population) (hnot : a ∉ picked) :
    ahead population key' a + batch ≤ ahead population key a := by
  have hrest : ∀ b ∈ population.filter (fun b => key' b < key' a), b ∉ picked := by
    intro b hb hpicked
    exact lt_asymm (of_decide_eq_true (List.mem_filter.mp hb).2) (h.behind a ha hnot b hpicked)
  have hnodup : (population.filter (fun b => key' b < key' a) ++ picked).Nodup := by
    refine List.nodup_append.mpr ⟨hpopulation.filter _, h.nodup hpopulation, ?_⟩
    intro b hb c hc heq
    exact hrest b hb (heq ▸ hc)
  have hsubset : population.filter (fun b => key' b < key' a) ++ picked ⊆
      population.filter fun b => key b < key a := by
    intro b hb
    rw [List.mem_filter, decide_eq_true_eq]
    cases List.mem_append.mp hb with
    | inl hleft =>
      obtain ⟨hmem, hlt⟩ := List.mem_filter.mp hleft
      rw [decide_eq_true_eq, h.kept b hmem (hrest b hleft), h.kept a ha hnot] at hlt
      exact ⟨hmem, hlt⟩
    | inr hright => exact ⟨h.mem_population hright, h.lt_of_notMem hright ha hnot⟩
  have hlength := (hnodup.subperm hsubset).length_le
  rw [List.length_append, h.length_eq ha hnot] at hlength
  simpa only [ahead, List.countP_eq_length_filter] using hlength

/-- The number of items ahead falls by a batch a round until the item is served. -/
theorem Rounds.ahead_add_le (hpopulation : population.Nodup) {a : α} (ha : a ∈ population)
    (h : Rounds population rank batch key rounds key') (hnot : ∀ picked ∈ rounds, a ∉ picked) :
    ahead population key' a + rounds.length * batch ≤ ahead population key a := by
  induction h with
  | nil key => simp
  | cons hserved _ ih =>
    have hstep := hserved.ahead_add_le hpopulation ha (hnot _ List.mem_cons_self)
    have hrest := ih fun picked hpicked => hnot picked (List.mem_cons_of_mem _ hpicked)
    rw [List.length_cons, Nat.add_one_mul]
    omega

theorem Rounds.covers (hpopulation : population.Nodup)
    (h : Rounds population rank batch key rounds key')
    (hlength : population.length ≤ rounds.length * batch) :
    ∀ a ∈ population, ∃ picked ∈ rounds, a ∈ picked := by
  intro a ha
  by_contra hnot
  have hnone : ∀ picked ∈ rounds, a ∉ picked := fun picked hpicked hmem =>
    hnot ⟨picked, hpicked, hmem⟩
  have hahead := h.ahead_add_le hpopulation ha hnone
  have hlt := ahead_lt key ha
  omega

theorem Rounds.split {before after : List (List α)}
    (h : Rounds population rank batch key (before ++ after) key') :
    ∃ middle : α → κ, Rounds population rank batch key before middle ∧
      Rounds population rank batch middle after key' := by
  induction before generalizing key with
  | nil => exact ⟨key, .nil key, h⟩
  | cons picked rest ih =>
    cases h with
    | cons hserved hrest =>
      obtain ⟨middle, hbefore, hafter⟩ := ih hrest
      exact ⟨middle, .cons hserved hbefore, hafter⟩

/-- As many consecutive rounds as the population fills serve everyone. -/
theorem Rounds.window_covers (hpopulation : population.Nodup) {before window after : List (List α)}
    (h : Rounds population rank batch key (before ++ window ++ after) key')
    (hlength : population.length ≤ window.length * batch) :
    ∀ a ∈ population, ∃ picked ∈ window, a ∈ picked := by
  obtain ⟨_, hfirst, _⟩ := h.split
  obtain ⟨_, _, hwindow⟩ := hfirst.split
  exact hwindow.covers hpopulation hlength

end Coverage

/-! ### Balance -/

section Balance
variable {population : List α} {rank : α → ρ} {batch : Nat} {key key' : α → κ}
  {picked : List α} {rounds : List (List α)}

/-- Whole batches of the lowest ranks have been served once more than the rest, which is next. -/
structure Aligned (population : List α) (rank : α → ρ) (batch : Nat) (key : α → κ)
    (served waiting : List α) : Prop where
  perm : (served ++ waiting).Perm population
  ranked : (served ++ waiting).Pairwise fun a b => rank a < rank b
  queue : sortOn key population = waiting ++ served
  whole : batch ∣ served.length
  rest : batch ∣ waiting.length

/-- When no one waits, all are equal again. -/
theorem Aligned.restart {served : List α} (h : Aligned population rank batch key served []) :
    Aligned population rank batch key [] served where
  perm := by simpa using h.perm
  ranked := by simpa using h.ranked
  queue := by simpa using h.queue
  whole := dvd_zero batch
  rest := h.whole

/-- A round moves the first batch of those who wait behind those who are served. -/
theorem Aligned.step {served waiting : List α}
    (h : Aligned population rank batch key served waiting)
    (hround : Served population rank batch key key' picked) (hnodup : population.Nodup)
    (hwaiting : waiting ≠ []) :
    picked = waiting.take batch ∧
      Aligned population rank batch key' (served ++ picked) (waiting.drop batch) := by
  have hlength : batch ≤ waiting.length :=
    Nat.le_of_dvd (List.length_pos_iff.mpr hwaiting) h.rest
  have hpicked : picked = waiting.take batch := by
    rw [hround.first, h.queue, List.take_append_of_le_length hlength]
  have hsplit : picked ++ waiting.drop batch = waiting := by
    rw [hpicked, List.take_append_drop]
  have hlist : served ++ picked ++ waiting.drop batch = served ++ waiting := by
    rw [List.append_assoc, hsplit]
  refine ⟨hpicked, ?_, ?_, ?_, ?_, ?_⟩
  · rw [hlist]
    exact h.perm
  · rw [hlist]
    exact h.ranked
  · refine sortOn_eq_of_perm ?_ ?_
    · refine List.Perm.trans List.perm_append_comm ?_
      rw [hlist]
      exact h.perm
    · rw [← List.append_assoc, List.pairwise_append]
      have hmembers := h.perm.nodup_iff.mpr hnodup
      rw [← hsplit, List.nodup_append] at hmembers
      obtain ⟨_, hrest, hserved⟩ := hmembers
      have hdisjoint := (List.nodup_append.mp hrest).2.2
      have hothers : ∀ a ∈ waiting.drop batch ++ served, a ∈ population ∧ a ∉ picked := by
        intro a ha
        cases List.mem_append.mp ha with
        | inl hdrop =>
          exact ⟨h.perm.mem_iff.mp (List.mem_append_right _ (List.mem_of_mem_drop hdrop)),
            fun hmem => hdisjoint a hmem a hdrop rfl⟩
        | inr hmem =>
          exact ⟨h.perm.mem_iff.mp (List.mem_append_left _ hmem), fun hpick =>
            hserved a hmem a (List.mem_append_left _ hpick) rfl⟩
      refine ⟨?_, ?_, ?_⟩
      · have hqueue := hround.sortOn_pairwise_lt hnodup
        rw [h.queue] at hqueue
        have hpart := hqueue.sublist ((List.drop_sublist batch waiting).append_right served)
        refine hpart.imp_of_mem fun {a b} ha hb hlt => ?_
        rwa [hround.kept a (hothers a ha).1 (hothers a ha).2,
          hround.kept b (hothers b hb).1 (hothers b hb).2]
      · have hranks := h.ranked.sublist (List.sublist_append_right served waiting)
        rw [← hsplit] at hranks
        exact (List.pairwise_append.mp hranks).1.imp_of_mem fun {a b} ha hb hlt =>
          hround.ranked a ha b hb hlt
      · exact fun a ha b hb => hround.behind a (hothers a ha).1 (hothers a ha).2 b hb
  · rw [List.length_append, hpicked, List.length_take, Nat.min_eq_left hlength]
    exact h.whole.add (dvd_refl batch)
  · rw [List.length_drop]
    exact Nat.dvd_sub h.rest (dvd_refl batch)

variable [DecidableEq α]

/-- The rounds that serve an item. -/
def services (rounds : List (List α)) (a : α) : Nat := rounds.countP fun picked => a ∈ picked

theorem services_cons (picked : List α) (rounds : List (List α)) (a : α) :
    services (picked :: rounds) a = services rounds a + if a ∈ picked then 1 else 0 := by
  rw [services, List.countP_cons]
  simp [services]

/-- Those already served are one service ahead, and no one gets two ahead. -/
theorem Rounds.balanced_of_aligned (hnodup : population.Nodup)
    (h : Rounds population rank batch key rounds key') {served waiting : List α}
    (haligned : Aligned population rank batch key served waiting) (hwaiting : waiting ≠ []) :
    ∀ a ∈ population, ∀ b ∈ population,
      services rounds a + (if a ∈ served then 1 else 0) ≤
        services rounds b + (if b ∈ served then 1 else 0) + 1 := by
  induction h generalizing served waiting with
  | nil key =>
    intro a _ b _
    simp only [services, List.countP_nil]
    split_ifs <;> omega
  | @cons key next last picked rounds hround _ ih =>
    intro a ha b hb
    obtain ⟨hpicked, hnext⟩ := haligned.step hround hnodup hwaiting
    rw [services_cons, services_cons]
    have hdisjoint : ∀ c ∈ picked, c ∉ served := by
      have hmembers := haligned.perm.nodup_iff.mpr hnodup
      intro c hc hserved
      rw [hpicked] at hc
      exact (List.nodup_append.mp hmembers).2.2 c hserved c (List.mem_of_mem_take hc) rfl
    have hsum : ∀ c, (if c ∈ picked then 1 else 0) + (if c ∈ served then 1 else 0) =
        if c ∈ served ++ picked then 1 else 0 := by
      intro c
      by_cases hc : c ∈ picked
      · simp [hc, hdisjoint c hc]
      · simp [hc]
    have hsuma := hsum a
    have hsumb := hsum b
    by_cases hdone : waiting.drop batch = []
    · -- everyone has been served once more, and the rotation starts again
      rw [hdone] at hnext
      have hall : picked = waiting := by
        have hsplit := List.take_append_drop batch waiting
        rwa [hdone, List.append_nil, ← hpicked] at hsplit
      have hstep := ih hnext.restart (by simp [hall, hwaiting]) a ha b hb
      have hserveda := hnext.perm.mem_iff.mpr ha
      have hservedb := hnext.perm.mem_iff.mpr hb
      rw [List.append_nil] at hserveda hservedb
      rw [if_pos hserveda] at hsuma
      rw [if_pos hservedb] at hsumb
      simp only [List.not_mem_nil, if_false] at hstep
      omega
    · have hstep := ih hnext hdone a ha b hb
      omega

/-- From an order by rank, batches that fill the population exactly serve all evenly. -/
theorem Rounds.balanced (hnodup : population.Nodup)
    (hrank : ∀ a ∈ population, ∀ b ∈ population, rank a = rank b → a = b)
    (hfresh : ∀ a ∈ population, ∀ b ∈ population, rank a < rank b → key a < key b)
    (hwhole : batch ∣ population.length) (h : Rounds population rank batch key rounds key') :
    ∀ a ∈ population, ∀ b ∈ population, services rounds a ≤ services rounds b + 1 := by
  intro a ha b hb
  have hranked : (sortOn rank population).Pairwise fun a b => rank a < rank b := by
    have hdistinct := (sortOn_perm rank population).nodup_iff.mpr hnodup
    refine ((sortOn_pairwise rank population).and hdistinct).imp_of_mem fun {a b} ha hb hab => ?_
    exact lt_of_le_of_ne hab.1 fun heq =>
      hab.2 (hrank a ((mem_sortOn _ _ _).mp ha) b ((mem_sortOn _ _ _).mp hb) heq)
  have haligned : Aligned population rank batch key [] (sortOn rank population) := by
    refine ⟨sortOn_perm rank population, hranked, ?_, dvd_zero batch, ?_⟩
    · rw [List.append_nil]
      refine sortOn_eq_of_perm (sortOn_perm rank population) ?_
      exact hranked.imp_of_mem fun {a b} ha hb hlt =>
        hfresh a ((mem_sortOn _ _ _).mp ha) b ((mem_sortOn _ _ _).mp hb) hlt
    · rwa [(sortOn_perm rank population).length_eq]
  have hne : sortOn rank population ≠ [] :=
    List.ne_nil_of_mem ((mem_sortOn rank population a).mpr ha)
  simpa using h.balanced_of_aligned hnodup haligned hne a ha b hb

end Balance

end Rotation
