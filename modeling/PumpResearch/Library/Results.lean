import Mathlib

/-! Rules for computations that may raise: inversion of a bind, and loops over a list. -/
namespace Results
variable {ε α β σ : Type}

theorem bind_eq_ok {x : Except ε α} {f : α → Except ε β} {b : β} :
    (x >>= f) = .ok b ↔ ∃ a, x = .ok a ∧ f a = .ok b := by
  cases x with
  | error e => simp [bind, Except.bind]
  | ok a => simp [bind, Except.bind]

theorem pure_eq_ok {a b : α} : (pure a : Except ε α) = .ok b ↔ a = b := by
  simp [pure, Except.pure]

theorem map_eq_ok {f : α → β} {x : Except ε α} {b : β} :
    x.map f = .ok b ↔ ∃ a, x = .ok a ∧ f a = b := by
  cases x with
  | error e => simp [Except.map]
  | ok a => simp [Except.map]

/-- A check that raises: past it, its condition was false. -/
theorem guard_eq_ok {p : Prop} [Decidable p] {e : ε} {x : Except ε α} {b : α} :
    (if p then (do (throw e : Except ε PUnit); x) else x) = .ok b ↔ ¬ p ∧ x = .ok b := by
  by_cases h : p
  · simp [h, throw, throwThe, MonadExceptOf.throw, bind, Except.bind]
  · simp [h]

theorem ok_bind {a : α} {f : α → Except ε β} : ((.ok a : Except ε α) >>= f) = f a := rfl

/-- A computation with a known part of its result succeeds. -/
theorem exists_eq_ok {x : Except ε (α × β)} {b : β} (h : (x.map (·.2)).toOption = some b) :
    ∃ a, x = .ok (a, b) := by
  cases x with
  | error e => cases h
  | ok result =>
    cases h
    exact ⟨result.1, rfl⟩

theorem mapM_eq_ok {f : α → Except ε β} {as : List α} {bs : List β} :
    as.mapM f = .ok bs ↔ List.Forall₂ (fun a b => f a = .ok b) as bs := by
  induction as generalizing bs with
  | nil => simp [pure, Except.pure, eq_comm]
  | cons a as ih =>
    simp only [List.mapM_cons, bind_eq_ok, pure_eq_ok, List.forall₂_cons_left_iff, ih]
    constructor
    · intro h
      obtain ⟨b, hb, rest, hrest, rfl⟩ := h
      exact ⟨b, rest, hb, hrest, rfl⟩
    · intro h
      obtain ⟨b, rest, hb, hrest, rfl⟩ := h
      exact ⟨b, hb, rest, hrest, rfl⟩

theorem forM_eq_ok {f : α → Except ε Unit} {as : List α} :
    forM as f = .ok () ↔ ∀ a ∈ as, f a = .ok () := by
  induction as with
  | nil => simp [pure, Except.pure]
  | cons a as ih => simp [List.forM_cons, bind_eq_ok, Unique.exists_iff, ih]

theorem forM_congr {f g : α → Except ε Unit} {as : List α} (h : ∀ a ∈ as, f a = g a) :
    forM as f = forM as g := by
  induction as with
  | nil => rfl
  | cons a as ih =>
    rw [List.forM_cons, List.forM_cons, h a (by simp), ih fun b hb => h b (by simp [hb])]

/-- A loop over one more item. -/
theorem foldlM_concat {step : σ → α → Except ε σ} {xs : List α} {x : α} {s s' : σ} :
    (xs ++ [x]).foldlM step s = .ok s' ↔
      ∃ mid, xs.foldlM step s = .ok mid ∧ step mid x = .ok s' := by
  rw [List.foldlM_append, bind_eq_ok]
  simp only [List.foldlM_cons, List.foldlM_nil, bind_pure]

/-- Loop rule: an invariant of the items already processed. -/
theorem foldlM_invariant {step : σ → α → Except ε σ} (I : List α → σ → Prop)
    (hstep : ∀ done x s s', I done s → step s x = .ok s' → I (done ++ [x]) s')
    {xs : List α} {s s' : σ} (h : xs.foldlM step s = .ok s') (h0 : I [] s) : I xs s' := by
  suffices hgen : ∀ done s, I done s → xs.foldlM step s = .ok s' → I (done ++ xs) s' from
    hgen [] s h0 h
  clear h h0
  induction xs with
  | nil =>
    intro done s hI h
    rw [List.foldlM_nil, pure_eq_ok] at h
    simpa [h] using hI
  | cons x xs ih =>
    intro done s hI h
    rw [List.foldlM_cons, bind_eq_ok] at h
    obtain ⟨mid, hmid, hrest⟩ := h
    simpa using ih (done ++ [x]) mid (hstep done x s mid hI hmid) hrest

/-- A loop whose every step succeeds under the invariant succeeds. -/
theorem foldlM_total (step : σ → α → Except ε σ) (I : σ → Prop) (xs : List α) (s : σ)
    (hstep : ∀ s, ∀ x ∈ xs, I s → ∃ s', step s x = .ok s' ∧ I s') (h0 : I s) :
    ∃ s', xs.foldlM step s = .ok s' ∧ I s' := by
  induction xs generalizing s with
  | nil => exact ⟨s, rfl, h0⟩
  | cons x xs ih =>
    obtain ⟨mid, hmid, hI⟩ := hstep s x (by simp) h0
    obtain ⟨s', hs', hI'⟩ := ih mid (fun s y hy => hstep s y (by simp [hy])) hI
    refine ⟨s', ?_, hI'⟩
    rw [List.foldlM_cons, hmid]
    exact hs'

theorem mapError_eq_ok {ε' : Type*} {f : ε → ε'} {result : Except ε α} {a : α} :
    result.mapError f = .ok a ↔ result = .ok a := by
  cases result <;> simp [Except.mapError]

end Results
