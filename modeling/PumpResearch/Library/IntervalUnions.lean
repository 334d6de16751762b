import Mathlib

/-! Unions of half-open intervals. Merging a list that is sorted by its starts gives the separated
intervals of its union, and a union has one such list only. -/
namespace IntervalUnions
variable {α : Type*} [LinearOrder α]

/-- The points of some interval. -/
def union (spans : List (α × α)) : Set α := {x | ∃ span ∈ spans, span.1 ≤ x ∧ x < span.2}

/-- Non-empty intervals in order, with a gap between any two. -/
structure Separated (spans : List (α × α)) : Prop where
  nonempty : ∀ span ∈ spans, span.1 < span.2
  gaps : spans.Pairwise fun a b => a.2 < b.1

/-- Merge intervals into a current one as long as they touch it. -/
def mergeFrom : α × α → List (α × α) → List (α × α)
  | current, [] => [current]
  | current, next :: rest =>
    if next.1 ≤ current.2 then mergeFrom (current.1, max current.2 next.2) rest
    else current :: mergeFrom next rest

def merge : List (α × α) → List (α × α)
  | [] => []
  | first :: rest => mergeFrom first rest

@[simp] theorem union_nil : union ([] : List (α × α)) = ∅ := by
  ext x
  simp [union]

theorem union_cons (span : α × α) (spans : List (α × α)) :
    union (span :: spans) = Set.Ico span.1 span.2 ∪ union spans := by
  ext x
  simp [union]

theorem union_append (spans more : List (α × α)) :
    union (spans ++ more) = union spans ∪ union more := by
  induction spans with
  | nil => simp
  | cons span rest ih => rw [List.cons_append, union_cons, union_cons, ih, Set.union_assoc]

/-- Only the members of a list count. -/
theorem union_congr {spans more : List (α × α)} (h : ∀ span, span ∈ spans ↔ span ∈ more) :
    union spans = union more := by
  ext x
  simp [union, h]

/-! ### Merging -/

/-- Touching intervals have an interval as their union. -/
theorem union_touching {current next : α × α} (rest : List (α × α)) (hstart : current.1 ≤ next.1)
    (htouch : next.1 ≤ current.2) : union ((current.1, max current.2 next.2) :: rest) =
      union (current :: next :: rest) := by
  rw [union_cons, union_cons, union_cons, ← Set.union_assoc]
  congr 1
  ext x
  simp only [Set.mem_union, Set.mem_Ico, lt_max_iff]
  constructor
  · intro h
    by_cases hx : x < current.2
    · exact .inl ⟨h.1, hx⟩
    · exact .inr ⟨htouch.trans (not_lt.mp hx), h.2.resolve_left hx⟩
  · intro h
    cases h with
    | inl h => exact ⟨h.1, .inl h.2⟩
    | inr h => exact ⟨hstart.trans h.1, .inr h.2⟩

/-- The sweep over sorted intervals: the current one keeps its start. -/
theorem mergeFrom_spec {current : α × α} {rest : List (α × α)}
    (hsorted : (current :: rest).Pairwise fun a b => a.1 ≤ b.1)
    (hnonempty : ∀ span ∈ current :: rest, span.1 < span.2) :
    (∀ span ∈ mergeFrom current rest, current.1 ≤ span.1) ∧
      Separated (mergeFrom current rest) ∧
      union (mergeFrom current rest) = union (current :: rest) := by
  induction rest generalizing current with
  | nil =>
    refine ⟨?_, ⟨hnonempty, List.pairwise_singleton _ _⟩, rfl⟩
    intro span hspan
    rw [List.mem_singleton.mp hspan]
  | cons next rest ih =>
    obtain ⟨hcurrent, hrest⟩ := List.pairwise_cons.mp hsorted
    obtain ⟨hnext, hlater⟩ := List.pairwise_cons.mp hrest
    have hstart := hcurrent next List.mem_cons_self
    rw [mergeFrom]
    split
    · next htouch =>
      have hmerged : ((current.1, max current.2 next.2) :: rest).Pairwise fun a b => a.1 ≤ b.1 :=
        List.pairwise_cons.mpr
          ⟨fun s hs => hcurrent s (List.mem_cons_of_mem _ hs), hlater⟩
      obtain ⟨hstarts, hseparated, hunion⟩ := ih hmerged (by
        intro span hspan
        cases List.mem_cons.mp hspan with
        | inl heq =>
          rw [heq]
          exact (hnonempty current List.mem_cons_self).trans_le (le_max_left _ _)
        | inr hmem =>
          exact hnonempty span (List.mem_cons_of_mem _ (List.mem_cons_of_mem _ hmem)))
      exact ⟨hstarts, hseparated, hunion.trans (union_touching rest hstart htouch)⟩
    · next hgap =>
      rw [not_le] at hgap
      obtain ⟨hstarts, hseparated, hunion⟩ :=
        ih hrest fun span hspan => hnonempty span (List.mem_cons_of_mem _ hspan)
      refine ⟨?_, ⟨?_, ?_⟩, ?_⟩
      · intro span hspan
        cases List.mem_cons.mp hspan with
        | inl heq => rw [heq]
        | inr hmem => exact hstart.trans (hstarts span hmem)
      · intro span hspan
        cases List.mem_cons.mp hspan with
        | inl heq =>
          rw [heq]
          exact hnonempty current List.mem_cons_self
        | inr hmem => exact hseparated.nonempty span hmem
      · exact List.pairwise_cons.mpr
          ⟨fun span hspan => hgap.trans_le (hstarts span hspan), hseparated.gaps⟩
      · rw [union_cons, union_cons, hunion]

theorem merge_spec {spans : List (α × α)} (hsorted : spans.Pairwise fun a b => a.1 ≤ b.1)
    (hnonempty : ∀ span ∈ spans, span.1 < span.2) :
    Separated (merge spans) ∧ union (merge spans) = union spans := by
  cases spans with
  | nil => exact ⟨⟨fun span hspan => (by cases hspan), .nil⟩, rfl⟩
  | cons first rest => exact (mergeFrom_spec hsorted hnonempty).2

/-- The ends of merged intervals are ends of the intervals they come from. -/
theorem mergeFrom_ends {IsEnd : α → Prop} {current : α × α} {rest : List (α × α)}
    (h : ∀ span ∈ current :: rest, IsEnd span.1 ∧ IsEnd span.2) :
    ∀ span ∈ mergeFrom current rest, IsEnd span.1 ∧ IsEnd span.2 := by
  induction rest generalizing current with
  | nil => exact h
  | cons next rest ih =>
    obtain ⟨hstart, hend⟩ := h current List.mem_cons_self
    have hlater : ∀ span ∈ next :: rest, IsEnd span.1 ∧ IsEnd span.2 :=
      fun span hspan => h span (List.mem_cons_of_mem _ hspan)
    rw [mergeFrom]
    split
    · refine ih fun span hspan => ?_
      cases List.mem_cons.mp hspan with
      | inl heq =>
        rw [heq]
        refine ⟨hstart, ?_⟩
        cases max_choice current.2 next.2 with
        | inl hmax =>
          rw [hmax]
          exact hend
        | inr hmax =>
          rw [hmax]
          exact (hlater next List.mem_cons_self).2
      | inr hmem => exact hlater span (List.mem_cons_of_mem _ hmem)
    · intro span hspan
      cases List.mem_cons.mp hspan with
      | inl heq =>
        rw [heq]
        exact ⟨hstart, hend⟩
      | inr hmem => exact ih hlater span hmem

theorem merge_ends {IsEnd : α → Prop} {spans : List (α × α)}
    (h : ∀ span ∈ spans, IsEnd span.1 ∧ IsEnd span.2) :
    ∀ span ∈ merge spans, IsEnd span.1 ∧ IsEnd span.2 := by
  cases spans with
  | nil => exact h
  | cons first rest => exact mergeFrom_ends h

theorem length_mergeFrom_le (current : α × α) (rest : List (α × α)) :
    (mergeFrom current rest).length ≤ rest.length + 1 := by
  induction rest generalizing current with
  | nil => simp [mergeFrom]
  | cons next rest ih =>
    rw [mergeFrom, List.length_cons]
    split
    · exact (ih _).trans (by omega)
    · rw [List.length_cons]
      exact Nat.add_le_add_right (ih next) 1

theorem length_merge_le (spans : List (α × α)) : (merge spans).length ≤ spans.length := by
  cases spans with
  | nil => simp [merge]
  | cons first rest => exact length_mergeFrom_le first rest

/-! ### One separated list for each union -/

theorem Separated.tail {span : α × α} {rest : List (α × α)} (h : Separated (span :: rest)) :
    Separated rest where
  nonempty other hother := h.nonempty other (List.mem_cons_of_mem _ hother)
  gaps := (List.pairwise_cons.mp h.gaps).2

/-- Later intervals begin behind the first one. -/
theorem Separated.lt_of_mem_union {span : α × α} {rest : List (α × α)}
    (h : Separated (span :: rest)) {x : α} (hx : x ∈ union rest) : span.2 < x := by
  obtain ⟨other, hother, hle, _⟩ := hx
  exact ((List.pairwise_cons.mp h.gaps).1 other hother).trans_le hle

/-- The first start is the least point, and the first end is the first point left out. -/
theorem Separated.le_of_mem_union {span : α × α} {rest : List (α × α)}
    (h : Separated (span :: rest)) {x : α} (hx : x ∈ union (span :: rest)) : span.1 ≤ x := by
  rw [union_cons] at hx
  cases hx with
  | inl hfirst => exact hfirst.1
  | inr hlater =>
    exact (h.nonempty span List.mem_cons_self).le.trans (h.lt_of_mem_union hlater).le

theorem Separated.end_notMem {span : α × α} {rest : List (α × α)}
    (h : Separated (span :: rest)) : span.2 ∉ union (span :: rest) := by
  rw [union_cons]
  intro hmem
  cases hmem with
  | inl hfirst => exact lt_irrefl _ hfirst.2
  | inr hlater => exact lt_irrefl _ (h.lt_of_mem_union hlater)

theorem Separated.first_mem {span : α × α} {rest : List (α × α)} (h : Separated (span :: rest)) :
    span.1 ∈ union (span :: rest) :=
  ⟨span, List.mem_cons_self, le_rfl, h.nonempty span List.mem_cons_self⟩

theorem Separated.end_le {span span' : α × α} {rest rest' : List (α × α)}
    (h : Separated (span :: rest))
    (hunion : union (span :: rest) = union (span' :: rest')) (hstart : span.1 = span'.1) :
    span'.2 ≤ span.2 := by
  by_contra hlt
  rw [not_le] at hlt
  refine h.end_notMem ?_
  rw [hunion]
  exact ⟨span', List.mem_cons_self,
    hstart ▸ (h.nonempty span List.mem_cons_self).le, hlt⟩

/-- What is left of a union behind its first interval. -/
theorem Separated.union_rest {span : α × α} {rest : List (α × α)} (h : Separated (span :: rest)) :
    union rest = {x ∈ union (span :: rest) | span.2 < x} := by
  ext x
  rw [Set.mem_ofPred_eq, union_cons]
  constructor
  · exact fun hx => ⟨.inr hx, h.lt_of_mem_union hx⟩
  · intro hx
    exact hx.1.resolve_left fun hfirst => lt_asymm hx.2 hfirst.2

theorem Separated.unique {spans more : List (α × α)} (h : Separated spans) (h' : Separated more)
    (hunion : union spans = union more) : spans = more := by
  induction spans generalizing more with
  | nil =>
    cases more with
    | nil => rfl
    | cons span rest =>
      have hmem := h'.first_mem
      rw [← hunion, union_nil] at hmem
      cases hmem
  | cons span rest ih =>
    cases more with
    | nil =>
      have hmem := h.first_mem
      rw [hunion, union_nil] at hmem
      cases hmem
    | cons span' rest' =>
      have hstart : span.1 = span'.1 :=
        le_antisymm (h.le_of_mem_union (hunion ▸ h'.first_mem))
          (h'.le_of_mem_union (hunion ▸ h.first_mem))
      have hend : span.2 = span'.2 :=
        le_antisymm (h'.end_le hunion.symm hstart.symm) (h.end_le hunion hstart)
      have hrest : union rest = union rest' := by
        rw [h.union_rest, h'.union_rest, hunion, hend]
      rw [Prod.ext hstart hend, ih h.tail h'.tail hrest]

/-! ### The length of a union of integer intervals -/

theorem union_finite (spans : List (Int × Int)) : (union spans).Finite := by
  induction spans with
  | nil =>
    rw [union_nil]
    exact Set.finite_empty
  | cons span rest ih =>
    rw [union_cons]
    exact (Set.finite_Ico _ _).union ih

theorem ncard_Ico (span : Int × Int) : (Set.Ico span.1 span.2).ncard = (span.2 - span.1).toNat := by
  rw [← Finset.coe_Ico, Set.ncard_coe_finset, Int.card_Ico]

/-- The length of a union is the sum of the lengths of its separated intervals. -/
theorem Separated.ncard_union {spans : List (Int × Int)} (h : Separated spans) :
    (union spans).ncard = (spans.map fun span => (span.2 - span.1).toNat).sum := by
  induction spans with
  | nil => simp
  | cons span rest ih =>
    have hdisjoint : Disjoint (Set.Ico span.1 span.2) (union rest) := by
      rw [Set.disjoint_left]
      exact fun x hfirst hlater => lt_asymm (h.lt_of_mem_union hlater) hfirst.2
    rw [union_cons, Set.ncard_union_eq hdisjoint (Set.finite_Ico _ _) (union_finite rest),
      ncard_Ico, ih h.tail, List.map_cons, List.sum_cons]

/-- A union is no longer than any interval around it. -/
theorem ncard_union_le {spans : List (Int × Int)} {low high : Int}
    (h : ∀ span ∈ spans, low ≤ span.1 ∧ span.2 ≤ high) :
    (union spans).ncard ≤ (high - low).toNat := by
  rw [← ncard_Ico (low, high)]
  refine Set.ncard_le_ncard ?_ (Set.finite_Ico _ _)
  intro x hx
  obtain ⟨span, hspan, hle, hlt⟩ := hx
  exact ⟨(h span hspan).1.trans hle, hlt.trans_le (h span hspan).2⟩

end IntervalUnions
