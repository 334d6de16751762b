import PumpResearch.Library.Utf8

/-! White space and the strict encoding of Python texts. -/
namespace PythonText
open Utf8

/-- The characters for which `str.isspace` holds. -/
def isWhitespace (c : CodePoint) : Bool :=
  c.val ∈ [0x09, 0x0A, 0x0B, 0x0C, 0x0D, 0x1C, 0x1D, 0x1E, 0x1F, 0x20, 0x85, 0xA0, 0x1680, 0x2000,
    0x2001, 0x2002, 0x2003, 0x2004, 0x2005, 0x2006, 0x2007, 0x2008, 0x2009, 0x200A, 0x2028, 0x2029,
    0x202F, 0x205F, 0x3000]

/-- `str.strip`. -/
def strip (t : Text) : Text :=
  ((t.dropWhile isWhitespace).reverse.dropWhile isWhitespace).reverse

theorem strip_eq_nil_iff {t : Text} : strip t = [] ↔ ∀ c ∈ t, isWhitespace c = true := by
  constructor
  · intro h
    have hdrop : (t.dropWhile isWhitespace).reverse.dropWhile isWhitespace = [] :=
      List.reverse_eq_nil_iff.mp h
    have hrest : ∀ c ∈ t.dropWhile isWhitespace, isWhitespace c = true := fun c hc =>
      List.dropWhile_eq_nil_iff.mp hdrop c (List.mem_reverse.mpr hc)
    cases htail : t.dropWhile isWhitespace with
    | nil => exact List.dropWhile_eq_nil_iff.mp htail
    | cons c rest =>
      have hfirst : isWhitespace c = false := by
        have hhead := List.head?_dropWhile_not isWhitespace t
        rw [htail] at hhead
        simpa using hhead
      have hspace := hrest c (by rw [htail]; exact List.mem_cons_self)
      rw [hfirst] at hspace
      cases hspace
  · intro h
    rw [strip, List.dropWhile_eq_nil_iff.mpr h]
    rfl

theorem strip_strip (t : Text) : strip (strip t) = strip t := by
  have hstrip (u : Text) : strip u = (u.dropWhile isWhitespace).rdropWhile isWhitespace := rfl
  have hfront : (strip t).dropWhile isWhitespace = strip t := by
    cases hfirst : strip t with
    | nil => rfl
    | cons c rest =>
      have hbegins : c :: rest <+: t.dropWhile isWhitespace := by
        rw [← hfirst, hstrip]
        exact List.rdropWhile_prefix _ _
      obtain ⟨tail, heq⟩ := hbegins
      have hsolid := List.head?_dropWhile_not isWhitespace t
      rw [← heq] at hsolid
      rw [List.dropWhile_cons_of_neg (by simpa using hsolid)]
  rw [hstrip (strip t), hfront, hstrip t, List.rdropWhile_idempotent]

/-- `str.encode`: a surrogate cannot be encoded. -/
def encodeStrict (t : Text) : Option (List UInt8) :=
  if t.any isSurrogate then none else some (encode t)

end PythonText
