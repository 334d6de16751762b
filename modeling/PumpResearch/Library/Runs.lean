import Mathlib

/-! Runs of a total step function: conditions on the steps taken, properties of the states
passed through, and the invariant rule between them. -/
namespace Runs
variable {σ α : Type*}

/-- The state after a sequence of steps. -/
def run (step : σ → α → σ) (s : σ) (actions : List α) : σ := actions.foldl step s

/-- Every action of the run is allowed in the state where it is taken. -/
def Steps (step : σ → α → σ) (ok : σ → α → Prop) : σ → List α → Prop
  | _, [] => True
  | s, a :: rest => ok s a ∧ Steps step ok (step s a) rest

/-- Every state of the run, the first and the last included, has the property. -/
def Always (step : σ → α → σ) (P : σ → Prop) : σ → List α → Prop
  | s, [] => P s
  | s, a :: rest => P s ∧ Always step P (step s a) rest

section Rules
variable {step : σ → α → σ} {ok : σ → α → Prop} {I P : σ → Prop}

instance decidableSteps [h : ∀ s a, Decidable (ok s a)] :
    (s : σ) → (actions : List α) → Decidable (Steps step ok s actions)
  | _, [] => .isTrue trivial
  | s, a :: rest =>
    have : Decidable (Steps step ok (step s a) rest) := decidableSteps (step s a) rest
    inferInstanceAs (Decidable (ok s a ∧ Steps step ok (step s a) rest))

theorem Steps.mono {ok' : σ → α → Prop} (hok : ∀ s a, ok s a → ok' s a) {s : σ}
    {actions : List α} (h : Steps step ok s actions) : Steps step ok' s actions := by
  induction actions generalizing s with
  | nil => trivial
  | cons a rest ih => exact ⟨hok s a h.1, ih h.2⟩

theorem Steps.and {ok' : σ → α → Prop} {s : σ} {actions : List α} (h : Steps step ok s actions)
    (h' : Steps step ok' s actions) : Steps step (fun s a => ok s a ∧ ok' s a) s actions := by
  induction actions generalizing s with
  | nil => trivial
  | cons a rest ih => exact ⟨⟨h.1, h'.1⟩, ih h.2 h'.2⟩

theorem steps_of_forall {ok : α → Prop} {s : σ} {actions : List α} (h : ∀ a ∈ actions, ok a) :
    Steps step (fun _ => ok) s actions := by
  induction actions generalizing s with
  | nil => trivial
  | cons a rest ih => exact ⟨h a (by simp), ih fun b hb => h b (by simp [hb])⟩

theorem Steps.append {s : σ} {as bs : List α} (h : Steps step ok s (as ++ bs)) :
    Steps step ok s as ∧ Steps step ok (run step s as) bs := by
  induction as generalizing s with
  | nil => exact ⟨trivial, h⟩
  | cons a as ih => exact ⟨⟨h.1, (ih h.2).1⟩, (ih h.2).2⟩

theorem run_append (s : σ) (as bs : List α) :
    run step s (as ++ bs) = run step (run step s as) bs := List.foldl_append

/-- Invariant rule: what holds first and is kept by allowed steps holds after the run. -/
theorem invariant_run (hstep : ∀ s a, I s → ok s a → I (step s a)) {s : σ} {actions : List α}
    (h : Steps step ok s actions) (h0 : I s) : I (run step s actions) := by
  induction actions generalizing s with
  | nil => exact h0
  | cons a rest ih => exact ih h.2 (hstep s a h0 h.1)

theorem always_of_invariant (hstep : ∀ s a, I s → ok s a → I (step s a)) {s : σ}
    {actions : List α} (h : Steps step ok s actions) (h0 : I s) : Always step I s actions := by
  induction actions generalizing s with
  | nil => exact h0
  | cons a rest ih => exact ⟨h0, ih h.2 (hstep s a h0 h.1)⟩

/-- What an allowed step does under the invariant, every step of the run does. -/
theorem steps_of_invariant {Q : σ → α → Prop} (hstep : ∀ s a, I s → ok s a → I (step s a))
    (hQ : ∀ s a, I s → ok s a → Q s a) {s : σ} {actions : List α} (h : Steps step ok s actions)
    (h0 : I s) : Steps step Q s actions := by
  induction actions generalizing s with
  | nil => trivial
  | cons a rest ih => exact ⟨hQ s a h0 h.1, ih h.2 (hstep s a h0 h.1)⟩

/-- What every step keeps holds in every state. -/
theorem always_of_kept (hstep : ∀ s a, I s → I (step s a)) {s : σ} (h0 : I s)
    (actions : List α) : Always step I s actions := by
  induction actions generalizing s with
  | nil => exact h0
  | cons a rest ih => exact ⟨h0, ih (hstep s a h0)⟩

theorem Always.mono (hIP : ∀ s, I s → P s) {s : σ} {actions : List α}
    (h : Always step I s actions) : Always step P s actions := by
  induction actions generalizing s with
  | nil => exact hIP s h
  | cons a rest ih => exact ⟨hIP s h.1, ih h.2⟩

theorem Always.final {s : σ} {actions : List α} (h : Always step P s actions) :
    P (run step s actions) := by
  induction actions generalizing s with
  | nil => exact h
  | cons a rest ih => exact ih h.2

/-- Under an invariant of the actions taken, a property that a step keeps exactly when the step is
allowed holds along a run exactly when the run takes allowed steps only. -/
theorem always_iff_steps_along {H : List α → σ → Prop} {log : List α}
    (hH : ∀ done a s, (done ++ [a]) <+: log → H done s → H (done ++ [a]) (step s a))
    (hP : ∀ done a s, (done ++ [a]) <+: log → H done s → P s → (P (step s a) ↔ ok s a)) {s : σ}
    (h0 : H [] s) (hs : P s) : Always step P s log ↔ Steps step ok s log := by
  suffices hgen : ∀ rest done s, done ++ rest = log → H done s → P s →
      (Always step P s rest ↔ Steps step ok s rest) from hgen log [] s rfl h0 hs
  clear h0 hs
  intro rest
  induction rest with
  | nil => exact fun _ s _ _ hs => ⟨fun _ => trivial, fun _ => hs⟩
  | cons a rest ih =>
    intro done s hlog hdone hs
    have hprefix : (done ++ [a]) <+: log := ⟨rest, by rw [List.append_assoc]; exact hlog⟩
    have hrest : (done ++ [a]) ++ rest = log := by rw [List.append_assoc]; exact hlog
    have hnextH := hH done a s hprefix hdone
    have hiff := hP done a s hprefix hdone hs
    constructor
    · intro h
      have hnext : P (step s a) := by
        cases rest with
        | nil => exact h.2
        | cons b rest => exact h.2.1
      exact ⟨hiff.mp hnext, (ih (done ++ [a]) _ hrest hnextH hnext).mp h.2⟩
    · intro h
      have hnext : P (step s a) := hiff.mpr h.1
      exact ⟨hs, (ih (done ++ [a]) _ hrest hnextH hnext).mpr h.2⟩

/-- The same under an invariant of the state alone. -/
theorem always_iff_steps (hI : ∀ s a, I s → I (step s a))
    (hP : ∀ s a, I s → P s → (P (step s a) ↔ ok s a)) {s : σ} (h0 : I s) (hs : P s)
    (actions : List α) : Always step P s actions ↔ Steps step ok s actions :=
  always_iff_steps_along (fun _ a s _ h => hI s a h) (fun _ a s _ h hPs => hP s a h hPs) h0 hs

end Rules

end Runs
