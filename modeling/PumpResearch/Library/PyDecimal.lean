import PumpResearch.Library.Framing

/-! Numbers of Python's decimal module and their text under the format "f", which writes every
digit and no exponent. Equal texts are texts of equal numbers. -/

/-- A sign, a coefficient and a power of ten, or a special value. -/
inductive PyDecimal where
  | finite (negative : Bool) (coefficient : Nat) (exponent : Int)
  | infinity (negative : Bool)
  | nan
deriving DecidableEq

namespace PyDecimal

open Framing

/-- What a decimal stands for. -/
inductive Number where
  | rational (q : ℚ)
  | infinity (negative : Bool)
  | nan

def signed (negative : Bool) (q : ℚ) : ℚ := if negative then -q else q

def number : PyDecimal → Number
  | .finite negative coefficient exponent =>
    .rational (signed negative (coefficient * (10 : ℚ) ^ exponent))
  | .infinity negative => .infinity negative
  | .nan => .nan

/-! ### Text -/

/-- The digits of a coefficient with its point. -/
def digits (coefficient : Nat) : Int → List Char
  | .ofNat e => Nat.toDigits 10 (coefficient * 10 ^ e)
  | .negSucc k =>
    Nat.toDigits 10 (coefficient / 10 ^ (k + 1)) ++
      '.' :: padded (k + 1) (coefficient % 10 ^ (k + 1))

def sign (negative : Bool) : List Char := if negative then ['-'] else []

/-- Python's `format(d, "f")`. -/
def formatF : PyDecimal → List Char
  | .finite negative coefficient exponent => sign negative ++ digits coefficient exponent
  | .infinity negative => sign negative ++ ['I', 'n', 'f', 'i', 'n', 'i', 't', 'y']
  | .nan => ['N', 'a', 'N']

theorem startsWith_nil : StartsWith (fun c : Char => ¬ c.isDigit = true) [] := fun _ h => by cases h

theorem startsWith_point (s : List Char) :
    StartsWith (fun c : Char => ¬ c.isDigit = true) ('.' :: s) := by
  intro c hc
  rw [List.head?_cons, Option.mem_some_iff] at hc
  rw [← hc]
  decide

/-- A text without a point is not one with a point. -/
theorem toDigits_ne_point (m n : Nat) (s : List Char) :
    Nat.toDigits 10 m ≠ Nat.toDigits 10 n ++ '.' :: s := by
  intro h
  rw [← List.append_nil (Nat.toDigits 10 m)] at h
  obtain ⟨_, hnil⟩ := readable_toDigits m n _ _ startsWith_nil (startsWith_point s) h
  cases hnil

theorem digits_inj {c c' : Nat} {e e' : Int} (h : digits c e = digits c' e') :
    (c : ℚ) * (10 : ℚ) ^ e = c' * (10 : ℚ) ^ e' := by
  cases e with
  | ofNat e =>
    cases e' with
    | ofNat e' =>
      have hvalue := readable_toDigits.injective startsWith_nil h
      have hcast : ((c * 10 ^ e : Nat) : ℚ) = ((c' * 10 ^ e' : Nat) : ℚ) := by rw [hvalue]
      simpa only [Int.ofNat_eq_natCast, zpow_natCast, Nat.cast_mul, Nat.cast_pow,
        Nat.cast_ofNat] using hcast
    | negSucc k' => exact absurd h (toDigits_ne_point _ _ _)
  | negSucc k =>
    cases e' with
    | ofNat e' => exact absurd h.symm (toDigits_ne_point _ _ _)
    | negSucc k' =>
      obtain ⟨hwhole, hrest⟩ := readable_toDigits _ _ _ _ (startsWith_point _)
        (startsWith_point _) h
      have hfraction := (List.cons_inj_right '.').mp hrest
      have hlength := congrArg List.length hfraction
      rw [length_padded (Nat.succ_pos k) (Nat.mod_lt c (by positivity)),
        length_padded (Nat.succ_pos k') (Nat.mod_lt c' (by positivity))] at hlength
      obtain rfl : k = k' := Nat.succ.inj hlength
      have hmod := padded_injective (k + 1) hfraction
      have hc : c = c' := by
        rw [← Nat.div_add_mod c (10 ^ (k + 1)), hwhole, hmod, Nat.div_add_mod]
      rw [hc]

/-- The text before its sign is taken off begins with no sign of its own. -/
def Unsigned (s : List Char) : Prop := ∃ c rest, s = c :: rest ∧ c ≠ '-'

theorem sign_false (s : List Char) : s = sign false ++ s := rfl

theorem sign_append_inj {b b' : Bool} {s t : List Char} (hs : Unsigned s) (ht : Unsigned t)
    (h : sign b ++ s = sign b' ++ t) : b = b' ∧ s = t := by
  obtain ⟨c, rest, rfl, hc⟩ := hs
  obtain ⟨d, rest', rfl, hd⟩ := ht
  cases b with
  | true =>
    cases b' with
    | true => exact ⟨rfl, List.append_cancel_left h⟩
    | false =>
      simp only [sign, if_true, Bool.false_eq_true, if_false, List.cons_append, List.nil_append,
        List.cons.injEq] at h
      exact absurd h.1.symm hd
  | false =>
    cases b' with
    | true =>
      simp only [sign, if_true, Bool.false_eq_true, if_false, List.cons_append, List.nil_append,
        List.cons.injEq] at h
      exact absurd h.1 hc
    | false => exact ⟨rfl, h⟩

theorem exists_digits (c : Nat) (e : Int) :
    ∃ d rest, digits c e = d :: rest ∧ d.isDigit = true := by
  cases e with
  | ofNat e => exact exists_digit _
  | negSucc k =>
    obtain ⟨d, rest, h, hd⟩ := exists_digit (c / 10 ^ (k + 1))
    exact ⟨d, rest ++ '.' :: padded (k + 1) (c % 10 ^ (k + 1)), by rw [digits, h]; rfl, hd⟩

theorem unsigned_digits (c : Nat) (e : Int) : Unsigned (digits c e) := by
  obtain ⟨d, rest, h, hd⟩ := exists_digits c e
  refine ⟨d, rest, h, ?_⟩
  intro hminus
  rw [hminus] at hd
  exact absurd hd (by decide)

theorem digits_ne {c : Nat} {e : Int} {d : Char} {s : List Char} (hd : ¬ d.isDigit = true) :
    digits c e ≠ d :: s := by
  intro h
  obtain ⟨a, rest, hdigits, ha⟩ := exists_digits c e
  rw [hdigits, List.cons.injEq] at h
  rw [h.1] at ha
  exact hd ha

/-- Equal texts are texts of one number. -/
theorem number_eq_of_formatF {d d' : PyDecimal} (h : d.formatF = d'.formatF) :
    d.number = d'.number := by
  have hinfinity : Unsigned ['I', 'n', 'f', 'i', 'n', 'i', 't', 'y'] :=
    ⟨_, _, rfl, by decide⟩
  have hnan : Unsigned ['N', 'a', 'N'] := ⟨_, _, rfl, by decide⟩
  cases d with
  | finite b c e =>
    cases d' with
    | finite b' c' e' =>
      obtain ⟨hb, hdigits⟩ := sign_append_inj (unsigned_digits c e) (unsigned_digits c' e') h
      rw [number, number, hb, digits_inj hdigits]
    | infinity b' =>
      obtain ⟨_, hdigits⟩ := sign_append_inj (unsigned_digits c e) hinfinity h
      exact absurd hdigits (digits_ne (by decide))
    | nan =>
      obtain ⟨_, hdigits⟩ := sign_append_inj (unsigned_digits c e) hnan (h.trans (sign_false _))
      exact absurd hdigits (digits_ne (by decide))
  | infinity b =>
    cases d' with
    | finite b' c' e' =>
      obtain ⟨_, hdigits⟩ := sign_append_inj hinfinity (unsigned_digits c' e') h
      exact absurd hdigits.symm (digits_ne (by decide))
    | infinity b' =>
      obtain ⟨hb, _⟩ := sign_append_inj hinfinity hinfinity h
      rw [hb]
    | nan =>
      obtain ⟨_, htext⟩ := sign_append_inj hinfinity hnan (h.trans (sign_false _))
      exact absurd htext (by decide)
  | nan =>
    cases d' with
    | finite b' c' e' =>
      obtain ⟨_, hdigits⟩ := sign_append_inj hnan (unsigned_digits c' e')
        ((sign_false _).symm.trans h)
      exact absurd hdigits.symm (digits_ne (by decide))
    | infinity b' =>
      obtain ⟨_, htext⟩ := sign_append_inj hnan hinfinity ((sign_false _).symm.trans h)
      exact absurd htext (by decide)
    | nan => rfl

end PyDecimal
