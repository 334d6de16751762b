import Mathlib

/-! Crossings of a level, told from each reading and the reading before it. A reading is the side
of the level, or missing. The crossings tell the side as long as no move hides behind a missing
reading. -/
namespace LevelCrossings

/-- The crossing between two readings: the side moved to. -/
def crossing : Option Bool → Option Bool → Option Bool
  | some a, some b => if a = b then none else some b
  | _, _ => none

def crossings : List (Option Bool) → List Bool
  | [] => []
  | [_] => []
  | a :: b :: rest => (crossing a b).toList ++ crossings (b :: rest)

/-- The sides that were read. -/
def known (readings : List (Option Bool)) : List Bool := readings.reduceOption

/-- Crossings alternate, and the last one, or else the first side known, is the side known last. -/
structure Tells (sides crossed : List Bool) : Prop where
  alternate : crossed.IsChain fun a b => a ≠ b
  side : sides.getLast? = crossed.getLast?.or sides.head?

/-- A reading after a missing one that agrees with the side known last. -/
def Agrees (readings : List (Option Bool)) (reading : Option Bool) : Prop :=
  readings.getLast?.join = none → ∀ a ∈ (known readings).getLast?, ∀ b ∈ reading, a = b

instance decidableAgrees (readings : List (Option Bool)) (reading : Option Bool) :
    Decidable (Agrees readings reading) :=
  inferInstanceAs (Decidable (_ → ∀ a ∈ (known readings).getLast?, ∀ b ∈ reading, a = b))

theorem crossings_concat (readings : List (Option Bool)) (reading : Option Bool) :
    crossings (readings ++ [reading]) =
      crossings readings ++ (crossing readings.getLast?.join reading).toList := by
  induction readings with
  | nil =>
    cases reading with
    | none => rfl
    | some b => rfl
  | cons a rest ih =>
    cases rest with
    | nil =>
      rw [List.singleton_append, crossings]
      simp [crossings]
    | cons b rest =>
      rw [List.cons_append, List.cons_append, crossings, ← List.cons_append, ih, crossings,
        List.append_assoc, List.getLast?_cons_cons]

theorem known_concat (readings : List (Option Bool)) (reading : Option Bool) :
    known (readings ++ [reading]) = known readings ++ reading.toList := by
  rw [known, known, ← List.concat_eq_append, List.reduceOption_concat]

/-- The last reading is the last side known. -/
theorem getLast?_known {readings : List (Option Bool)} {a : Bool}
    (h : readings.getLast?.join = some a) : (known readings).getLast? = some a := by
  have hlast := Option.join_eq_some_iff.mp h
  obtain ⟨rest, rfl⟩ := List.getLast?_eq_some_iff.mp hlast
  rw [known_concat, Option.toList_some, List.getLast?_concat]

theorem Tells.nil : Tells [] [] := ⟨.nil, rfl⟩

/-- One more reading keeps the crossings telling the side if and only if it agrees. -/
theorem tells_concat_iff {readings : List (Option Bool)}
    (h : Tells (known readings) (crossings readings)) (reading : Option Bool) :
    Tells (known (readings ++ [reading])) (crossings (readings ++ [reading])) ↔
      Agrees readings reading := by
  rw [known_concat, crossings_concat]
  cases reading with
  | none =>
    have hcrossing : crossing readings.getLast?.join none = none := by
      cases readings.getLast?.join <;> rfl
    rw [hcrossing, Option.toList_none, List.append_nil, List.append_nil]
    have hagrees : Agrees readings none := fun _ _ _ _ hb => by cases hb
    exact ⟨fun _ => hagrees, fun _ => h⟩
  | some b =>
    have hhead (a : Bool) (ha : (known readings).getLast? = some a) :
        (known readings ++ [b]).head? = (known readings).head? := by
      cases hknown : known readings with
      | nil => rw [hknown] at ha; cases ha
      | cons c rest => rfl
    rw [Option.toList_some]
    cases hlast : readings.getLast?.join with
    | none =>
      have hcrossing : crossing none (some b) = none := rfl
      rw [hcrossing, Option.toList_none, List.append_nil, Agrees]
      cases hside : (known readings).getLast? with
      | none =>
        have hknown := List.getLast?_eq_none_iff.mp hside
        have hcrossings : crossings readings = [] := by
          have hor := h.side.symm.trans hside
          rw [← List.getLast?_eq_none_iff]
          exact (Option.or_eq_none_iff.mp hor).1
        rw [hknown, hcrossings]
        refine ⟨?_, fun _ => ⟨.nil, rfl⟩⟩
        intro _ _ a ha
        cases ha
      | some a =>
        have hor : (crossings readings).getLast?.or (known readings).head? = some a :=
          h.side.symm.trans hside
        constructor
        · intro htells _ a' ha' b' hb'
          have hb := htells.side
          rw [List.getLast?_concat, hhead a hside, hor] at hb
          cases ha'
          cases hb'
          exact (Option.some.inj hb).symm
        · intro hagrees
          refine ⟨h.alternate, ?_⟩
          rw [List.getLast?_concat, hhead a hside, hor, hagrees hlast a rfl b rfl]
    | some a =>
      have hside := getLast?_known hlast
      have hor : (crossings readings).getLast?.or (known readings).head? = some a :=
        h.side.symm.trans hside
      have hagrees : Agrees readings (some b) := fun hnone => by rw [hlast] at hnone; cases hnone
      refine ⟨fun _ => hagrees, fun _ => ?_⟩
      by_cases hab : a = b
      · rw [crossing, if_pos hab, Option.toList_none, List.append_nil]
        refine ⟨h.alternate, ?_⟩
        rw [List.getLast?_concat, hhead a hside, hor, hab]
      · rw [crossing, if_neg hab, Option.toList_some]
        refine ⟨?_, by rw [List.getLast?_concat, List.getLast?_concat, Option.some_or]⟩
        refine List.isChain_append.mpr ⟨h.alternate, List.isChain_singleton _, ?_⟩
        intro c hc d hd
        rw [Option.mem_def] at hc
        rw [hc, Option.some_or] at hor
        rw [List.head?_cons, Option.mem_some_iff] at hd
        rw [Option.some.inj hor, ← hd]
        exact hab

end LevelCrossings
