import Mathlib

/-! Texts as code points, lone surrogates included, and their UTF-8 bytes. Encoding passes
surrogates through; decoding may refuse them. What was encoded decodes to the same text. -/
namespace Utf8

/-- A code point. Unlike a scalar value it may be a surrogate. -/
abbrev CodePoint := Fin 0x110000

instance neZero_codePoints : NeZero 0x110000 := ⟨by decide⟩

abbrev Text := List CodePoint

/-- Named, so that definitions which search texts refer to it alone. -/
instance lawfulBEqText : LawfulBEq Text := inferInstance

def text (s : String) : Text := s.toList.map fun c => Fin.ofNat 0x110000 c.toNat

def isSurrogate (c : CodePoint) : Bool := 0xD800 ≤ c.val && c.val ≤ 0xDFFF

/-! ### Encoding -/

/-- The lead byte of a sequence of continuation bytes. -/
def byte (n : Nat) : UInt8 := UInt8.ofNat n

def tail (n : Nat) : UInt8 := byte (0x80 + n % 0x40)

def encodeCodePoint (c : CodePoint) : List UInt8 :=
  let n := c.val
  if n < 0x80 then [byte n]
  else if n < 0x800 then [byte (0xC0 + n / 0x40), tail n]
  else if n < 0x10000 then [byte (0xE0 + n / 0x1000), tail (n / 0x40), tail n]
  else [byte (0xF0 + n / 0x40000), tail (n / 0x1000), tail (n / 0x40), tail n]

def encode (t : Text) : List UInt8 := t.flatMap encodeCodePoint

/-! ### Decoding -/

/-- The value that a continuation byte adds to. -/
def continued (n : Nat) (b : UInt8) : Option Nat :=
  if 0x80 ≤ b.toNat ∧ b.toNat < 0xC0 then some (n * 0x40 + (b.toNat - 0x80)) else none

/-- A code point that is not shorter than its sequence says. -/
def checked (surrogates : Bool) (least n : Nat) (rest : List UInt8) :
    Option (CodePoint × List UInt8) :=
  if h : least ≤ n ∧ n < 0x110000 then
    let c : CodePoint := ⟨n, h.2⟩
    if isSurrogate c && !surrogates then none else some (c, rest)
  else none

/-- The first code point of the bytes. -/
def decodeOne (surrogates : Bool) : List UInt8 → Option (CodePoint × List UInt8)
  | [] => none
  | a :: rest =>
    let n := a.toNat
    if n < 0x80 then checked surrogates 0 n rest
    else if n < 0xC0 then none
    else if n < 0xE0 then
      match rest with
      | b :: rest => do checked surrogates 0x80 (← continued (n - 0xC0) b) rest
      | [] => none
    else if n < 0xF0 then
      match rest with
      | b :: c :: rest => do
        checked surrogates 0x800 (← continued (← continued (n - 0xE0) b) c) rest
      | _ => none
    else if n < 0xF8 then
      match rest with
      | b :: c :: d :: rest => do
        let n ← continued (← continued (n - 0xF0) b) c
        checked surrogates 0x10000 (← continued n d) rest
      | _ => none
    else none

/-- Every round decodes at least one byte, so as many rounds as bytes are enough. -/
def decodeRounds (surrogates : Bool) : Nat → List UInt8 → Option Text
  | _, [] => some []
  | 0, _ :: _ => none
  | rounds + 1, bytes => do
    let (c, rest) ← decodeOne surrogates bytes
    return c :: (← decodeRounds surrogates rounds rest)

def decode (surrogates : Bool) (bytes : List UInt8) : Option Text :=
  decodeRounds surrogates bytes.length bytes

/-! ### Round trip -/

theorem toNat_byte {n : Nat} (h : n < 0x100) : (byte n).toNat = n := by
  simp only [byte, UInt8.toNat_ofNat']
  omega

theorem toNat_tail (n : Nat) : (tail n).toNat = 0x80 + n % 0x40 := toNat_byte (by omega)

theorem continued_tail (m n : Nat) : continued m (tail n) = some (m * 0x40 + n % 0x40) := by
  have hrest : 0x80 + n % 0x40 - 0x80 = n % 0x40 := by omega
  rw [continued, toNat_tail, if_pos (by omega), hrest]

theorem checked_self {least : Nat} (c : CodePoint) (h : least ≤ c.val) (rest : List UInt8) :
    checked true least c.val rest = some (c, rest) := by
  rw [checked, dif_pos ⟨h, c.isLt⟩]
  simp only [Bool.not_true, Bool.and_false, Bool.false_eq_true, if_false]

/-- Decoding reads back the code point that was encoded first. -/
theorem decodeOne_encode (c : CodePoint) (rest : List UInt8) :
    decodeOne true (encodeCodePoint c ++ rest) = some (c, rest) := by
  have hc := c.isLt
  unfold encodeCodePoint
  simp only
  split
  · next h1 =>
    simp only [List.cons_append, List.nil_append, decodeOne, toNat_byte (by omega : c.val < 0x100),
      if_pos h1]
    exact checked_self c (Nat.zero_le _) rest
  · next h1 =>
    split
    · next h2 =>
      have hlead : (byte (0xC0 + c.val / 0x40)).toNat = 0xC0 + c.val / 0x40 :=
        toNat_byte (by omega)
      simp only [List.cons_append, List.nil_append, decodeOne, hlead, continued_tail]
      rw [if_neg (by omega), if_neg (by omega), if_pos (by omega)]
      have hvalue : (0xC0 + c.val / 0x40 - 0xC0) * 0x40 + c.val % 0x40 = c.val := by omega
      simp only [Option.bind_eq_bind, Option.bind_some, hvalue]
      exact checked_self c (by omega) rest
    · next h2 =>
      split
      · next h3 =>
        have hlead : (byte (0xE0 + c.val / 0x1000)).toNat = 0xE0 + c.val / 0x1000 :=
          toNat_byte (by omega)
        simp only [List.cons_append, List.nil_append, decodeOne, hlead, continued_tail]
        rw [if_neg (by omega), if_neg (by omega), if_neg (by omega), if_pos (by omega)]
        have hvalue : ((0xE0 + c.val / 0x1000 - 0xE0) * 0x40 + c.val / 0x40 % 0x40) * 0x40 +
            c.val % 0x40 = c.val := by omega
        simp only [Option.bind_eq_bind, Option.bind_some, hvalue]
        exact checked_self c (by omega) rest
      · next h3 =>
        have hlead : (byte (0xF0 + c.val / 0x40000)).toNat = 0xF0 + c.val / 0x40000 :=
          toNat_byte (by omega)
        simp only [List.cons_append, List.nil_append, decodeOne, hlead, continued_tail]
        rw [if_neg (by omega), if_neg (by omega), if_neg (by omega), if_neg (by omega),
          if_pos (by omega)]
        have hvalue : (((0xF0 + c.val / 0x40000 - 0xF0) * 0x40 + c.val / 0x1000 % 0x40) * 0x40 +
            c.val / 0x40 % 0x40) * 0x40 + c.val % 0x40 = c.val := by omega
        simp only [Option.bind_eq_bind, Option.bind_some, hvalue]
        exact checked_self c (by omega) rest

theorem encodeCodePoint_ne_nil (c : CodePoint) : encodeCodePoint c ≠ [] := by
  unfold encodeCodePoint
  simp only
  split
  · exact List.cons_ne_nil _ _
  · split
    · exact List.cons_ne_nil _ _
    · split
      · exact List.cons_ne_nil _ _
      · exact List.cons_ne_nil _ _

theorem decodeRounds_encode (t : Text) {rounds : Nat} (h : (encode t).length ≤ rounds) :
    decodeRounds true rounds (encode t) = some t := by
  induction t generalizing rounds with
  | nil =>
    cases rounds with
    | zero => rfl
    | succ _ => rfl
  | cons c t ih =>
    have hlong : 0 < (encodeCodePoint c).length := List.length_pos_of_ne_nil (encodeCodePoint_ne_nil c)
    have hlength : (encode (c :: t)).length = (encodeCodePoint c).length + (encode t).length := by
      simp [encode]
    have hone := decodeOne_encode c (encode t)
    have happend : encode (c :: t) = encodeCodePoint c ++ encode t := by simp [encode]
    cases rounds with
    | zero => omega
    | succ rounds =>
      have hrest : decodeRounds true rounds (encode t) = some t := ih (by omega)
      rw [happend]
      cases hbytes : encodeCodePoint c ++ encode t with
      | nil => simp [encodeCodePoint_ne_nil c] at hbytes
      | cons b bs =>
        rw [hbytes] at hone
        simp [decodeRounds, hone, hrest]

/-- What was encoded, surrogates included, decodes to the same text. -/
theorem decode_encode (t : Text) : decode true (encode t) = some t :=
  decodeRounds_encode t le_rfl

theorem encode_injective : Function.Injective encode :=
  fun s t h => Option.some.inj <| by rw [← decode_encode s, h, decode_encode t]

end Utf8
