import PumpResearch.Library.PythonJson

/-! The walk that finds strings PostgreSQL cannot store. It visits every key and every string of
the decoded tree once, and only the first of its two reasons ends it early. -/
namespace PumpResearch.Discovery
open Utf8 PythonJson

/-! ### The walk -/

mutual

/-- The rounds a walk over a value takes. -/
def weight : JsonValue → Nat
  | .list items => itemsWeight items + 1
  | .dict entries => entriesWeight entries + 1
  | _ => 1

def itemsWeight : List JsonValue → Nat
  | [] => 0
  | value :: items => weight value + itemsWeight items

def entriesWeight : List (Text × JsonValue) → Nat
  | [] => 0
  | (_, value) :: entries => 1 + weight value + entriesWeight entries

end

def hasNul (s : Text) : Bool := s.any fun c => c.val = 0

/-- In a text of code points two halves of a pair are one, so a surrogate is an unpaired one. -/
def hasSurrogate (s : Text) : Bool := s.any isSurrogate

/-- The loop of `postgres_json_string_failure`. The stack has its top first. -/
def walk : Nat → List JsonValue → Bool → Option String
  | _, [], surrogateFound => if surrogateFound then some "postgresql_unpaired_surrogate" else none
  | 0, _ :: _, _ => none
  | rounds + 1, value :: pending, surrogateFound =>
    match value with
    | .str s =>
      if hasNul s then some "postgresql_nul_string"
      else walk rounds pending (surrogateFound || hasSurrogate s)
    | .dict entries =>
      walk rounds ((entries.map (·.2)).reverse ++ (entries.map fun entry => .str entry.1).reverse ++
        pending) surrogateFound
    | .list items => walk rounds (items.reverse ++ pending) surrogateFound
    | _ => walk rounds pending surrogateFound

/-- `postgres_json_string_failure`. -/
def postgresJsonStringFailure (payload : JsonValue) : Option String :=
  walk (weight payload) [payload] false

/-! ### What the walk finds -/

/-- The verdict on the strings that are visited. -/
def verdict (strings : List Text) (surrogateFound : Bool) : Option String :=
  if strings.any hasNul then some "postgresql_nul_string"
  else if surrogateFound || strings.any hasSurrogate then some "postgresql_unpaired_surrogate"
  else none

theorem itemsWeight_append (xs ys : List JsonValue) :
    itemsWeight (xs ++ ys) = itemsWeight xs + itemsWeight ys := by
  induction xs with
  | nil => simp [itemsWeight]
  | cons x xs ih =>
    simp only [List.cons_append, itemsWeight, ih]
    omega

theorem itemsWeight_reverse (xs : List JsonValue) : itemsWeight xs.reverse = itemsWeight xs := by
  induction xs with
  | nil => rfl
  | cons x xs ih =>
    simp only [List.reverse_cons, itemsWeight_append, itemsWeight, ih]
    omega

theorem entriesWeight_eq (entries : List (Text × JsonValue)) :
    entriesWeight entries = itemsWeight (entries.map (·.2)) +
      itemsWeight (entries.map fun entry => .str entry.1) := by
  induction entries with
  | nil => rfl
  | cons entry entries ih =>
    simp only [entriesWeight, List.map_cons, itemsWeight, weight, ih]
    omega

theorem itemsStrings_append (xs ys : List JsonValue) :
    itemsStrings (xs ++ ys) = itemsStrings xs ++ itemsStrings ys := by
  induction xs with
  | nil => simp [itemsStrings]
  | cons x xs ih => simp [itemsStrings, ih]

theorem itemsStrings_reverse_perm (xs : List JsonValue) :
    (itemsStrings xs.reverse).Perm (itemsStrings xs) := by
  induction xs with
  | nil => exact .refl _
  | cons x xs ih =>
    rw [List.reverse_cons, itemsStrings_append]
    simp only [itemsStrings, List.append_nil]
    exact (ih.append_right _).trans List.perm_append_comm

theorem entriesStrings_perm (entries : List (Text × JsonValue)) :
    (itemsStrings (entries.map (·.2)) ++ itemsStrings (entries.map fun entry => .str entry.1)).Perm
      (entriesStrings entries) := by
  induction entries with
  | nil => exact .refl _
  | cons entry entries ih =>
    obtain ⟨key, value⟩ := entry
    simp only [List.map_cons, itemsStrings, entriesStrings, JsonValue.strings]
    have htail : (value.strings ++ itemsStrings (entries.map (·.2)) ++
        itemsStrings (entries.map fun entry => .str entry.1)).Perm
        (value.strings ++ entriesStrings entries) := by
      rw [List.append_assoc]
      exact ih.append_left _
    exact List.perm_middle.trans (htail.cons key)

/-- The verdict does not depend on the order of the visits. -/
theorem verdict_perm {xs ys : List Text} (h : xs.Perm ys) (found : Bool) :
    verdict xs found = verdict ys found := by
  have hany : ∀ p : Text → Bool, xs.any p = ys.any p := fun p => h.any_eq
  simp only [verdict, hany]

theorem verdict_cons (s : Text) (strings : List Text) (found : Bool) (h : hasNul s = false) :
    verdict (s :: strings) found = verdict strings (found || hasSurrogate s) := by
  simp [verdict, h, Bool.or_assoc]

theorem weight_pos (value : JsonValue) : 0 < weight value := by
  cases value with
  | list items => simp [weight]
  | dict entries => simp [weight]
  | _ => exact Nat.one_pos

/-- With enough rounds the walk reads the verdict off all strings on its stack. -/
theorem walk_eq_verdict {rounds : Nat} {pending : List JsonValue} (found : Bool)
    (h : itemsWeight pending ≤ rounds) :
    walk rounds pending found = verdict (itemsStrings pending) found := by
  induction rounds generalizing pending found with
  | zero =>
    cases pending with
    | nil => simp [walk, verdict, itemsStrings]
    | cons value pending =>
      have hpos := weight_pos value
      simp only [itemsWeight] at h
      omega
  | succ rounds ih =>
    cases pending with
    | nil => simp [walk, verdict, itemsStrings]
    | cons value pending =>
      have hpos := weight_pos value
      simp only [itemsWeight] at h
      cases value with
      | str s =>
        simp only [walk, itemsStrings, JsonValue.strings, List.singleton_append]
        cases hnul : hasNul s with
        | true => simp [verdict, hnul]
        | false =>
          rw [verdict_cons s _ found hnul]
          exact ih _ (by omega)
      | list items =>
        have hrest : itemsWeight (items.reverse ++ pending) ≤ rounds := by
          simp only [weight] at h
          rw [itemsWeight_append, itemsWeight_reverse]
          omega
        have hperm := (itemsStrings_reverse_perm items).append_right (itemsStrings pending)
        simp only [walk]
        rw [ih found hrest, itemsStrings_append]
        exact verdict_perm hperm found
      | dict entries =>
        have hweight := entriesWeight_eq entries
        have hrest : itemsWeight ((entries.map (·.2)).reverse ++
            (entries.map fun entry => .str entry.1).reverse ++ pending) ≤ rounds := by
          simp only [weight] at h
          rw [itemsWeight_append, itemsWeight_append, itemsWeight_reverse, itemsWeight_reverse]
          omega
        have hperm := (((itemsStrings_reverse_perm (entries.map (·.2))).append
          (itemsStrings_reverse_perm (entries.map fun entry => .str entry.1))).trans
          (entriesStrings_perm entries)).append_right (itemsStrings pending)
        simp only [walk]
        rw [ih found hrest, itemsStrings_append, itemsStrings_append]
        exact verdict_perm hperm found
      | null => exact ih found (by omega)
      | bool b => exact ih found (by omega)
      | int n => exact ih found (by omega)
      | float literal => exact ih found (by omega)

/-- The walk reads its verdict off all strings and keys of the tree. -/
theorem postgresJsonStringFailure_eq (payload : JsonValue) :
    postgresJsonStringFailure payload = verdict payload.strings false := by
  have hwalk : walk (weight payload) [payload] false = verdict (itemsStrings [payload]) false :=
    walk_eq_verdict false (by simp [itemsWeight])
  simpa [postgresJsonStringFailure, itemsStrings] using hwalk

/-- PostgreSQL can store the text. -/
def Storable (s : Text) : Prop := hasNul s = false ∧ hasSurrogate s = false

theorem postgresJsonStringFailure_eq_none_iff {payload : JsonValue} :
    postgresJsonStringFailure payload = none ↔ ∀ s ∈ payload.strings, Storable s := by
  have hall : (∀ s ∈ payload.strings, Storable s) ↔
      payload.strings.any hasNul = false ∧ payload.strings.any hasSurrogate = false := by
    simp only [Storable, List.any_eq_false, Bool.not_eq_true, forall_and]
  rw [postgresJsonStringFailure_eq, hall, verdict]
  cases payload.strings.any hasNul with
  | true => simp
  | false =>
    cases payload.strings.any hasSurrogate with
    | true => simp
    | false => simp

theorem postgresJsonStringFailure_eq_nul_iff {payload : JsonValue} :
    postgresJsonStringFailure payload = some "postgresql_nul_string" ↔
      ∃ s ∈ payload.strings, hasNul s = true := by
  rw [postgresJsonStringFailure_eq, ← List.any_eq_true, verdict]
  cases payload.strings.any hasNul with
  | true => simp
  | false =>
    cases payload.strings.any hasSurrogate with
    | true => simp
    | false => simp

end PumpResearch.Discovery
