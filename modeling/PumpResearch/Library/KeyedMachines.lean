import Mathlib

/-! One machine for each key, fed from one sequence of inputs. What the machines put out together
depends only on the inputs of each key, so that they may as well be run one after another. -/
namespace KeyedMachines
variable {κ σ α : Type} [DecidableEq κ] (key : α → κ) (next : σ → α → σ) (out : σ → α → Nat)

/-- What one machine puts out over its inputs. -/
def outputs : σ → List α → Nat
  | _, [] => 0
  | s, a :: rest => out s a + outputs (next s a) rest

/-- What all machines put out together, each fed with the inputs of its key. -/
def keyedOutputs : (κ → σ) → List α → Nat
  | _, [] => 0
  | states, a :: rest =>
    out (states (key a)) a +
      keyedOutputs (Function.update states (key a) (next (states (key a)) a)) rest

/-- What one machine puts out that starts anew whenever the key changes. -/
def resetOutputs (start : σ) : Option κ × σ → List α → Nat
  | _, [] => 0
  | current, a :: rest =>
    let s := if current.1 = some (key a) then current.2 else start
    out s a + resetOutputs start (some (key a), next s a) rest

section Rules
variable {key next out}

/-- Together the machines put out what each puts out alone. -/
theorem keyedOutputs_eq_sum (inputs : List α) (states : κ → σ) (keys : Finset κ)
    (h : ∀ a ∈ inputs, key a ∈ keys) :
    keyedOutputs key next out states inputs =
      ∑ k ∈ keys, outputs next out (states k) (inputs.filter fun a => key a = k) := by
  induction inputs generalizing states with
  | nil => simp [keyedOutputs, outputs]
  | cons a rest ih =>
    have hrest := ih (Function.update states (key a) (next (states (key a)) a))
      fun b hb => h b (List.mem_cons_of_mem _ hb)
    have hkey := h a List.mem_cons_self
    rw [keyedOutputs, hrest, ← Finset.add_sum_erase keys _ hkey,
      ← Finset.add_sum_erase keys _ hkey, ← Nat.add_assoc]
    congr 1
    · simp [outputs]
    · refine Finset.sum_congr rfl fun k hk => ?_
      have hne : key a ≠ k := (Finset.ne_of_mem_erase hk).symm
      simp [hne, Function.update_of_ne hne.symm]

/-- The order of inputs of different keys does not matter. -/
theorem keyedOutputs_congr {inputs inputs' : List α} (states : κ → σ)
    (h : ∀ k, inputs.filter (fun a => key a = k) = inputs'.filter fun a => key a = k) :
    keyedOutputs key next out states inputs = keyedOutputs key next out states inputs' := by
  let keys := ((inputs ++ inputs').map key).toFinset
  have hleft : ∀ a ∈ inputs, key a ∈ keys := fun a ha => by
    simp only [keys, List.mem_toFinset, List.mem_map, List.mem_append]
    exact ⟨a, Or.inl ha, rfl⟩
  have hright : ∀ a ∈ inputs', key a ∈ keys := fun a ha => by
    simp only [keys, List.mem_toFinset, List.mem_map, List.mem_append]
    exact ⟨a, Or.inr ha, rfl⟩
  rw [keyedOutputs_eq_sum inputs states keys hleft, keyedOutputs_eq_sum inputs' states keys hright]
  exact Finset.sum_congr rfl fun k _ => by rw [h k]

/-- Only the machines that have inputs matter. -/
theorem keyedOutputs_agree (inputs : List α) {states states' : κ → σ}
    (h : ∀ a ∈ inputs, states (key a) = states' (key a)) :
    keyedOutputs key next out states inputs = keyedOutputs key next out states' inputs := by
  induction inputs generalizing states states' with
  | nil => rfl
  | cons a rest ih =>
    have hkey := h a List.mem_cons_self
    rw [keyedOutputs, keyedOutputs, hkey]
    congr 1
    apply ih
    intro b hb
    by_cases hsame : key b = key a
    · rw [hsame, Function.update_self, Function.update_self]
    · rw [Function.update_of_ne hsame, Function.update_of_ne hsame]
      exact h b (List.mem_cons_of_mem _ hb)

/-- On inputs sorted by key, starting anew at each key is running all machines. -/
theorem resetOutputs_eq [LinearOrder κ] (start : σ) (inputs : List α) (k : κ) (s : σ)
    (hsorted : inputs.Pairwise fun a b => key a ≤ key b) (hfrom : ∀ a ∈ inputs, k ≤ key a) :
    resetOutputs key next out start (some k, s) inputs =
      keyedOutputs key next out (Function.update (fun _ => start) k s) inputs := by
  induction inputs generalizing k s with
  | nil => rfl
  | cons a rest ih =>
    obtain ⟨hfirst, hrest⟩ := List.pairwise_cons.mp hsorted
    have hstate : (if (some k : Option κ) = some (key a) then s else start) =
        Function.update (fun _ => start) k s (key a) := by
      by_cases hsame : k = key a
      · simp [← hsame]
      · simp [hsame, Function.update_of_ne (Ne.symm hsame)]
    rw [resetOutputs, keyedOutputs, hstate, ih _ _ hrest hfirst]
    congr 1
    apply keyedOutputs_agree
    intro b hb
    by_cases hsame : key b = key a
    · rw [hsame, Function.update_self, Function.update_self]
    · have hlater : k < key b :=
        lt_of_le_of_lt (hfrom a List.mem_cons_self) (lt_of_le_of_ne (hfirst b hb) (Ne.symm hsame))
      rw [Function.update_of_ne hsame, Function.update_of_ne hsame, Function.update_of_ne hlater.ne']

theorem resetOutputs_eq_keyedOutputs [LinearOrder κ] (start : σ) (inputs : List α)
    (hsorted : inputs.Pairwise fun a b => key a ≤ key b) :
    resetOutputs key next out start (none, start) inputs =
      keyedOutputs key next out (fun _ => start) inputs := by
  cases inputs with
  | nil => rfl
  | cons a rest =>
    obtain ⟨hfirst, hrest⟩ := List.pairwise_cons.mp hsorted
    rw [resetOutputs, keyedOutputs, if_neg (by simp),
      resetOutputs_eq start rest (key a) (next start a) hrest hfirst]

end Rules

end KeyedMachines
