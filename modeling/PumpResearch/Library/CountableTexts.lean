import Mathlib

/-! Texts are countable, and a number may be written as the text of its length. -/
namespace CountableTexts

instance encodableChar : Encodable Char :=
  Encodable.ofLeftInverse Char.toNat Char.ofNat Char.ofNat_toNat

instance encodableString : Encodable String :=
  Encodable.ofLeftInverse String.toList String.ofList (fun _ => String.ofList_toList)

def unaryText (n : Nat) : String := String.ofList (List.replicate n 'a')

theorem unaryText_injective : Function.Injective unaryText := by
  intro a b h
  have hl := congrArg (fun s => s.toList.length) h
  simpa [unaryText] using hl

/-! ### Records as texts -/

/-- Numbers in unary, each with an end, then a text. -/
def countedText : List Nat → List Char → List Char
  | [], rest => rest
  | n :: ns, rest => List.replicate n 'a' ++ 'b' :: countedText ns rest

theorem replicate_append_inj {n m : Nat} {xs ys : List Char}
    (h : List.replicate n 'a' ++ 'b' :: xs = List.replicate m 'a' ++ 'b' :: ys) :
    n = m ∧ xs = ys := by
  induction n generalizing m with
  | zero =>
    cases m with
    | zero => simpa using h
    | succ m => simp [List.replicate_succ] at h
  | succ n ih =>
    cases m with
    | zero => simp [List.replicate_succ] at h
    | succ m =>
      simp only [List.replicate_succ, List.cons_append, List.cons.injEq, true_and] at h
      simpa using ih h

theorem countedText_inj {ns ms : List Nat} {xs ys : List Char} (hlength : ns.length = ms.length)
    (h : countedText ns xs = countedText ms ys) : ns = ms ∧ xs = ys := by
  induction ns generalizing ms with
  | nil =>
    cases ms with
    | nil => exact ⟨rfl, h⟩
    | cons m ms => simp at hlength
  | cons n ns ih =>
    cases ms with
    | nil => simp at hlength
    | cons m ms =>
      obtain ⟨hn, hrest⟩ := replicate_append_inj h
      obtain ⟨hns, hxs⟩ := ih (by simpa using hlength) hrest
      exact ⟨by rw [hn, hns], hxs⟩

end CountableTexts
