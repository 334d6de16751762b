import Mathlib

/-! Texts that are written one after another and can be told apart again. A code is readable
before a class of texts if, in front of a text of the class, it tells what was written. -/
namespace Framing

variable {σ α β : Type*}

/-- What `write` put in front of a text that may stand there is determined. -/
def ReadableBefore (may : List σ → Prop) (write : α → List σ) : Prop :=
  ∀ a b s t, may s → may t → write a ++ s = write b ++ t → a = b ∧ s = t

/-- Readable in front of every text. -/
def Readable (write : α → List σ) : Prop := ReadableBefore (fun _ => True) write

/-- Texts that are over or go on with a symbol of `p`. -/
def StartsWith (p : σ → Prop) (s : List σ) : Prop := ∀ a ∈ s.head?, p a

/-- Texts that go on with a symbol of `p`. -/
def GoesOn (p : σ → Prop) (s : List σ) : Prop := ∃ a rest, s = a :: rest ∧ p a

theorem goesOn_cons {p : σ → Prop} {a : σ} (h : p a) (s : List σ) : GoesOn p (a :: s) :=
  ⟨a, s, rfl, h⟩

theorem ReadableBefore.weaken {may may' : List σ → Prop} {write : α → List σ}
    (h : ReadableBefore may write) (hmay : ∀ s, may' s → may s) : ReadableBefore may' write :=
  fun a b s t hs ht heq => h a b s t (hmay s hs) (hmay t ht) heq

theorem ReadableBefore.injective {may : List σ → Prop} {write : α → List σ}
    (h : ReadableBefore may write) (hnil : may []) : Function.Injective write := by
  intro a b heq
  exact (h a b [] [] hnil hnil (by rw [heq])).1

theorem ReadableBefore.comp {may : List σ → Prop} {write : α → List σ} {f : β → α}
    (h : ReadableBefore may write) (hf : Function.Injective f) :
    ReadableBefore may fun b => write (f b) := by
  intro a b s t hs ht heq
  obtain ⟨hab, hst⟩ := h (f a) (f b) s t hs ht heq
  exact ⟨hf hab, hst⟩

/-- Words of one length need no mark at their end. -/
theorem readable_of_length {write : α → List σ} (hinj : Function.Injective write)
    (hlength : ∀ a b, (write a).length = (write b).length) : Readable write := by
  intro a b s t _ _ heq
  obtain ⟨hab, hst⟩ := List.append_inj heq (hlength a b)
  exact ⟨hinj hab, hst⟩

/-- What a reader reads back is determined. -/
theorem readable_of_read {write : α → List σ} (read : List σ → Option (α × List σ))
    (h : ∀ a s, read (write a ++ s) = some (a, s)) : Readable write := by
  intro a b s t _ _ heq
  have hboth := h a s
  rw [heq, h b t, Option.some.injEq, Prod.mk.injEq] at hboth
  exact ⟨hboth.1.symm, hboth.2.symm⟩

/-- Words over a class of symbols end where a symbol outside the class stands. -/
theorem append_inj_of_class {p : σ → Prop} {xs ys s t : List σ} (hx : ∀ a ∈ xs, p a)
    (hy : ∀ a ∈ ys, p a) (hs : StartsWith (fun a => ¬ p a) s) (ht : StartsWith (fun a => ¬ p a) t)
    (h : xs ++ s = ys ++ t) : xs = ys ∧ s = t := by
  induction xs generalizing ys with
  | nil =>
    cases ys with
    | nil => exact ⟨rfl, h⟩
    | cons b bs =>
      have hb : ¬ p b := hs b (by simp only [List.nil_append] at h; rw [h]; rfl)
      exact absurd (hy b List.mem_cons_self) hb
  | cons a as ih =>
    cases ys with
    | nil =>
      have ha : ¬ p a := ht a (by simp only [List.nil_append] at h; rw [← h]; rfl)
      exact absurd (hx a List.mem_cons_self) ha
    | cons b bs =>
      simp only [List.cons_append, List.cons.injEq] at h
      obtain ⟨hab, hrest⟩ := h
      obtain ⟨hbs, hst⟩ := ih (fun c hc => hx c (List.mem_cons_of_mem a hc))
        (fun c hc => hy c (List.mem_cons_of_mem b hc)) hrest
      exact ⟨by rw [hab, hbs], hst⟩

theorem readableBefore_of_class {p : σ → Prop} {write : α → List σ}
    (hinj : Function.Injective write) (hclass : ∀ a, ∀ c ∈ write a, p c) :
    ReadableBefore (StartsWith fun a => ¬ p a) write := by
  intro a b s t hs ht heq
  obtain ⟨hab, hst⟩ := append_inj_of_class (hclass a) (hclass b) hs ht heq
  exact ⟨hinj hab, hst⟩

/-! ### Sequences -/

section Sequences

variable {may : List σ → Prop} {write : α → List σ} {close : List σ}

/-- Words are readable one after another, up to a closing text that no word can be mistaken
for, if each of them may be followed by a word and by the closing text. -/
theorem readable_flatMap (hread : ReadableBefore may write) (hword : ∀ a s, may (write a ++ s))
    (hend : ∀ s, may (close ++ s)) (hclose : ∀ a s t, write a ++ s ≠ close ++ t) :
    Readable fun as : List α => as.flatMap write ++ close := by
  have hmay (as : List α) (s : List σ) : may (as.flatMap write ++ (close ++ s)) := by
    cases as with
    | nil => exact hend s
    | cons a as =>
      rw [List.flatMap_cons, List.append_assoc]
      exact hword a _
  intro as bs s t _ _ heq
  simp only [List.append_assoc] at heq
  induction as generalizing bs with
  | nil =>
    cases bs with
    | nil => exact ⟨rfl, List.append_cancel_left heq⟩
    | cons b bs =>
      rw [List.flatMap_cons, List.append_assoc] at heq
      exact absurd heq.symm (hclose b _ s)
  | cons a as ih =>
    cases bs with
    | nil =>
      rw [List.flatMap_cons, List.append_assoc] at heq
      exact absurd heq (hclose a _ t)
    | cons b bs =>
      rw [List.flatMap_cons, List.flatMap_cons, List.append_assoc, List.append_assoc] at heq
      obtain ⟨hab, hrest⟩ := hread a b _ _ (hmay as s) (hmay bs t) heq
      obtain ⟨has, hst⟩ := ih bs hrest
      exact ⟨by rw [hab, has], hst⟩

/-- A sequence of readable words tells its items. -/
theorem flatMap_injective (hread : Readable write) (hne : ∀ a, write a ≠ []) :
    Function.Injective fun as : List α => as.flatMap write := by
  intro as bs heq
  simp only at heq
  induction as generalizing bs with
  | nil =>
    cases bs with
    | nil => rfl
    | cons b bs =>
      rw [List.flatMap_nil, List.flatMap_cons] at heq
      exact absurd (List.append_eq_nil_iff.mp heq.symm).1 (hne b)
  | cons a as ih =>
    cases bs with
    | nil =>
      rw [List.flatMap_nil, List.flatMap_cons] at heq
      exact absurd (List.append_eq_nil_iff.mp heq).1 (hne a)
    | cons b bs =>
      rw [List.flatMap_cons, List.flatMap_cons] at heq
      obtain ⟨hab, hrest⟩ := hread a b _ _ trivial trivial heq
      rw [hab, ih hrest]

/-- The words of a sequence with a separator between two of them, and a closing symbol. -/
def joined (separator close : σ) (write : α → List σ) : List α → List σ
  | [] => [close]
  | a :: as => write a ++ (as.flatMap (fun b => separator :: write b) ++ [close])

/-- Items that are readable in front of the separator and of the closing symbol, and that do not
begin with the closing symbol, are readable as a joined sequence. -/
theorem readable_joined {separator close : σ} (hne : separator ≠ close)
    (hread : ReadableBefore (GoesOn fun c => c = separator ∨ c = close) write)
    (hclose : ∀ a s t, write a ++ s ≠ close :: t) : Readable (joined separator close write) := by
  have htail : Readable fun as : List α => as.flatMap (fun b => separator :: write b) ++ [close] := by
    have hwrite : ReadableBefore (GoesOn fun c => c = separator ∨ c = close)
        fun b => separator :: write b := by
      intro a b s t hs ht heq
      exact hread a b s t hs ht (List.cons_inj_right separator |>.mp heq)
    apply readable_flatMap hwrite
    · exact fun a s => goesOn_cons (.inl rfl) _
    · exact fun s => goesOn_cons (.inr rfl) _
    · intro a s t heq
      simp only [List.cons_append, List.nil_append, List.cons.injEq] at heq
      exact hne heq.1
  have hmay (as : List α) (s : List σ) : GoesOn (fun c => c = separator ∨ c = close)
      (as.flatMap (fun b => separator :: write b) ++ ([close] ++ s)) := by
    cases as with
    | nil => exact goesOn_cons (.inr rfl) _
    | cons a as => exact goesOn_cons (.inl rfl) _
  intro as bs s t _ _ heq
  cases as with
  | nil =>
    cases bs with
    | nil => exact ⟨rfl, List.append_cancel_left heq⟩
    | cons b bs =>
      rw [joined, joined, List.append_assoc] at heq
      exact absurd heq.symm (hclose b _ s)
  | cons a as =>
    cases bs with
    | nil =>
      rw [joined, joined, List.append_assoc] at heq
      exact absurd heq (hclose a _ t)
    | cons b bs =>
      simp only [joined, List.append_assoc] at heq
      obtain ⟨hab, hrest⟩ := hread a b _ _ (hmay as s) (hmay bs t) heq
      simp only [← List.append_assoc] at hrest
      obtain ⟨has, hst⟩ := htail as bs s t trivial trivial hrest
      exact ⟨by rw [hab, has], hst⟩

end Sequences

/-! ### Decimal digits -/

/-- A number with zeros in front up to a width, wider if it needs more digits. -/
def padded (width n : Nat) : List Char := (Nat.toDigits 10 n).leftpad width '0'

theorem isDigit_of_mem_padded {width n : Nat} {c : Char} (h : c ∈ padded width n) :
    c.isDigit = true := by
  rw [padded, List.leftpad, List.mem_append] at h
  obtain h | h := h
  · rw [List.eq_of_mem_replicate h]
    decide
  · exact Nat.isDigit_of_mem_toDigits (by decide) (by decide) h

theorem padded_ne_nil (width n : Nat) : padded width n ≠ [] := by
  intro h
  rw [padded, List.leftpad, List.append_eq_nil_iff] at h
  exact Nat.toDigits_ne_nil h.2

theorem padded_injective (width : Nat) : Function.Injective (padded width) := by
  have hvalue (n : Nat) : Nat.ofDigitChars 10 (padded width n) 0 = n := by
    rw [padded, List.leftpad, Nat.ofDigitChars_append, Nat.ofDigitChars_replicate_zero,
      Nat.mul_zero, Nat.ofDigitChars_ten_toDigits]
  intro m n h
  rw [← hvalue m, h, hvalue n]

/-- A number is readable where no digit follows. -/
theorem readable_padded (width : Nat) :
    ReadableBefore (StartsWith fun c : Char => ¬ c.isDigit = true) (padded width) :=
  readableBefore_of_class (padded_injective width) fun _ _ => isDigit_of_mem_padded

theorem isDigit_of_mem_toDigits {n : Nat} {c : Char} (h : c ∈ Nat.toDigits 10 n) :
    c.isDigit = true := Nat.isDigit_of_mem_toDigits (by decide) (by decide) h

theorem readable_toDigits :
    ReadableBefore (StartsWith fun c : Char => ¬ c.isDigit = true) (Nat.toDigits 10) := by
  apply readableBefore_of_class _ fun _ _ => isDigit_of_mem_toDigits
  intro m n h
  have hvalue := congrArg (fun cs => Nat.ofDigitChars 10 cs 0) h
  simpa only [Nat.ofDigitChars_ten_toDigits] using hvalue

theorem exists_digit (n : Nat) : ∃ c rest, Nat.toDigits 10 n = c :: rest ∧ c.isDigit = true := by
  obtain ⟨c, rest, h⟩ := List.exists_cons_of_ne_nil (Nat.toDigits_ne_nil (n := n) (b := 10))
  exact ⟨c, rest, h, isDigit_of_mem_toDigits (by rw [h]; exact List.mem_cons_self)⟩

theorem length_padded {width n : Nat} (hwidth : 0 < width) (h : n < 10 ^ width) :
    (padded width n).length = width := by
  have hdigits := (Nat.length_toDigits_le_iff (by decide : 1 < 10) hwidth).mpr h
  rw [padded, List.leftpad, List.length_append, List.length_replicate]
  omega

end Framing
