import PumpResearch.Research.Dataset

/-! Three columns of a row have one writer each: the candidate id and the watermark come
from the row literal, the identity flag from the first feature literal. -/
namespace PumpResearch.Research
open KeyedOrder OrderedDict Results
variable {F : Type}

def ownedColumns : List String :=
  ["candidate_id", "feature_availability_watermark", "identity_known"]

/-- No owned column starts with the text, so no key that does is one. -/
def Clear (front : String) : Prop := ∀ column ∈ ownedColumns, ¬ front.toList <+: column.toList

instance (front : String) : Decidable (Clear front) :=
  inferInstanceAs (Decidable (∀ column ∈ ownedColumns, ¬ front.toList <+: column.toList))

theorem Clear.append {front : String} (h : Clear front) (back : String) : Clear (front ++ back) := by
  intro column hc hprefix
  rw [String.toList_append] at hprefix
  exact h column hc ((List.prefix_append _ _).trans hprefix)

theorem Clear.ne {key column : String} (h : Clear key) (hc : column ∈ ownedColumns) :
    column ≠ key := by
  rintro rfl
  exact h _ hc List.prefix_rfl

variable [Numerics F]

end PumpResearch.Research
