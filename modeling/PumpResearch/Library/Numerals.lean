import Mathlib

/-! Byte strings as numbers, in either order, and numerals of another base that keep the leading
zeros of a byte string. Such a numeral determines its bytes. -/
namespace Numerals

/-! ### Bytes as numbers -/

def littleEndian (bytes : List UInt8) : Nat := Nat.ofDigits 256 (bytes.map UInt8.toNat)

def bigEndian (bytes : List UInt8) : Nat := littleEndian bytes.reverse

/-- The lowest bytes of a number, least significant first. -/
def littleEndianBytes : Nat → Nat → List UInt8
  | 0, _ => []
  | width + 1, n => UInt8.ofNat n :: littleEndianBytes width (n / 256)

@[simp] theorem length_littleEndianBytes (width n : Nat) :
    (littleEndianBytes width n).length = width := by
  induction width generalizing n with
  | zero => rfl
  | succ width ih => simp [littleEndianBytes, ih]

theorem littleEndian_cons (b : UInt8) (bytes : List UInt8) :
    littleEndian (b :: bytes) = b.toNat + 256 * littleEndian bytes := by
  simp [littleEndian, Nat.ofDigits_cons]

/-- Enough bytes hold the number. -/
theorem littleEndian_bytes {width n : Nat} (h : n < 256 ^ width) :
    littleEndian (littleEndianBytes width n) = n := by
  induction width generalizing n with
  | zero =>
    have hzero : n = 0 := by simpa using h
    rw [hzero]
    rfl
  | succ width ih =>
    have hrest : n / 256 < 256 ^ width := by
      rw [Nat.div_lt_iff_lt_mul (by decide), ← pow_succ]
      exact h
    have hbyte : (UInt8.ofNat n).toNat = n % 256 := UInt8.toNat_ofNat'
    rw [littleEndianBytes, littleEndian_cons, ih hrest, hbyte]
    omega

theorem littleEndian_lt (bytes : List UInt8) : littleEndian bytes < 256 ^ bytes.length := by
  have hlt := Nat.ofDigits_lt_base_pow_length (b := 256) (l := bytes.map UInt8.toNat) (by decide)
    fun digit hdigit => by
      obtain ⟨b, _, rfl⟩ := List.mem_map.mp hdigit
      exact b.toNat_lt
  rw [List.length_map] at hlt
  exact hlt

/-- Bytes of one length are determined by their number. -/
theorem littleEndianBytes_littleEndian (bytes : List UInt8) :
    littleEndianBytes bytes.length (littleEndian bytes) = bytes := by
  induction bytes with
  | nil => rfl
  | cons b bytes ih =>
    have hb := b.toNat_lt
    have hbyte : UInt8.ofNat (b.toNat + 256 * littleEndian bytes) = b := by
      apply UInt8.toNat_inj.mp
      rw [UInt8.toNat_ofNat']
      omega
    have hdiv : (b.toNat + 256 * littleEndian bytes) / 256 = littleEndian bytes := by omega
    rw [List.length_cons, littleEndianBytes, littleEndian_cons, hbyte, hdiv, ih]

/-- A first byte that counts: no shorter byte string has the number. -/
theorem bigEndian_inj {bytes bytes' : List UInt8} (h : bytes.head? ≠ some 0)
    (h' : bytes'.head? ≠ some 0) (heq : bigEndian bytes = bigEndian bytes') : bytes = bytes' := by
  have hdigits : ∀ {bytes : List UInt8}, bytes.head? ≠ some 0 →
      Nat.digits 256 (bigEndian bytes) = bytes.reverse.map UInt8.toNat := by
    intro bytes hhead
    apply Nat.digits_ofDigits 256 (by decide)
    · intro digit hdigit
      obtain ⟨b, _, rfl⟩ := List.mem_map.mp hdigit
      exact b.toNat_lt
    · intro hne hlast
      rw [List.getLast_map, List.getLast_reverse] at hlast
      cases bytes with
      | nil => exact hne rfl
      | cons b rest => exact hhead (congrArg some (UInt8.toNat_inj.mp hlast))
  have hmap : bytes.reverse.map UInt8.toNat = bytes'.reverse.map UInt8.toNat := by
    rw [← hdigits h, ← hdigits h', heq]
  have hinjective : Function.Injective UInt8.toNat := fun _ _ => UInt8.toNat_inj.mp
  exact List.reverse_injective (List.map_injective_iff.mpr hinjective hmap)

/-! ### Leading items -/

section Leading
variable {α : Type*}

/-- The leading items can be told from the rest. -/
theorem replicate_append_inj {a : α} {m n : Nat} {xs ys : List α} (hx : xs.head? ≠ some a)
    (hy : ys.head? ≠ some a) (h : List.replicate m a ++ xs = List.replicate n a ++ ys) :
    m = n ∧ xs = ys := by
  induction m generalizing n with
  | zero =>
    cases n with
    | zero => exact ⟨rfl, by simpa using h⟩
    | succ n =>
      rw [List.replicate_zero, List.nil_append] at h
      rw [h] at hx
      exact absurd rfl hx
  | succ m ih =>
    cases n with
    | zero =>
      rw [List.replicate_zero, List.nil_append] at h
      rw [← h] at hy
      exact absurd rfl hy
    | succ n =>
      rw [List.replicate_succ, List.replicate_succ, List.cons_append, List.cons_append,
        List.cons.injEq] at h
      obtain ⟨hmn, hxy⟩ := ih h.2
      exact ⟨congrArg (· + 1) hmn, hxy⟩

variable [DecidableEq α]

/-- `len(value) - len(value.lstrip(...))`. -/
def leading (a : α) (xs : List α) : Nat := (xs.takeWhile (· = a)).length

def stripped (a : α) (xs : List α) : List α := xs.dropWhile (· = a)

theorem replicate_leading_append (a : α) (xs : List α) :
    List.replicate (leading a xs) a ++ stripped a xs = xs := by
  have htake : List.replicate (leading a xs) a = xs.takeWhile (· = a) := by
    symm
    rw [List.eq_replicate_iff]
    exact ⟨rfl, fun b hb => by simpa using List.mem_takeWhile_imp hb⟩
  rw [htake]
  exact List.takeWhile_append_dropWhile

theorem head?_stripped (a : α) (xs : List α) : (stripped a xs).head? ≠ some a := by
  intro h
  have hnot := List.head?_dropWhile_not (fun b => decide (b = a)) xs
  rw [stripped] at h
  rw [h] at hnot
  simp at hnot

end Leading

/-! ### Numerals -/

theorem eq_of_map_eq {α β : Type*} {f : α → β} {xs ys : List α} (h : xs.map f = ys.map f)
    (hinj : ∀ x ∈ xs, ∀ y ∈ ys, f x = f y → x = y) : xs = ys := by
  induction xs generalizing ys with
  | nil =>
    cases ys with
    | nil => rfl
    | cons y ys => cases h
  | cons x xs ih =>
    cases ys with
    | nil => cases h
    | cons y ys =>
      rw [List.map_cons, List.map_cons, List.cons.injEq] at h
      have hhead := hinj x (by simp) y (by simp) h.1
      have htail := ih h.2 fun a ha b hb => hinj a (by simp [ha]) b (by simp [hb])
      rw [hhead, htail]

section Base
variable {σ : Type*} (base : Nat) (symbol : Nat → σ)

/-- `while number: number, remainder = divmod(number, base)`, with the symbol of every remainder
put in front of those before it. -/
def prependDigits (number : Nat) (encoded : List σ) : List σ :=
  if _h : 1 < base ∧ number ≠ 0 then
    prependDigits (number / base) (symbol (number % base) :: encoded)
  else encoded
termination_by number
decreasing_by
  have hpos : 1 < base ∧ number ≠ 0 := ‹_›
  exact Nat.div_lt_self (Nat.pos_of_ne_zero hpos.2) hpos.1

variable {base} (hbase : 1 < base)
include hbase

theorem prependDigits_eq (number : Nat) (encoded : List σ) :
    prependDigits base symbol number encoded =
      (Nat.digits base number).reverse.map symbol ++ encoded := by
  induction number using Nat.strong_induction_on generalizing encoded with
  | _ number ih =>
    rw [prependDigits]
    by_cases hzero : number = 0
    · simp [hzero]
    · rw [dif_pos ⟨hbase, hzero⟩, ih _ (Nat.div_lt_self (Nat.pos_of_ne_zero hzero) hbase),
        Nat.digits_def' hbase (Nat.pos_of_ne_zero hzero)]
      simp

/-- The symbol of zero before the numeral, for every leading zero byte. -/
def encodeBytes (base : Nat) (symbol : Nat → σ) (value : List UInt8) : List σ :=
  List.replicate (leading 0 value) (symbol 0) ++ prependDigits base symbol (bigEndian value) []

omit hbase in
theorem bigEndian_stripped (value : List UInt8) : bigEndian (stripped 0 value) = bigEndian value := by
  have hzeros (n : Nat) (bytes : List UInt8) :
      bigEndian (List.replicate n 0 ++ bytes) = bigEndian bytes := by
    rw [bigEndian, bigEndian, List.reverse_append, List.reverse_replicate, littleEndian,
      List.map_append, Nat.ofDigits_append, List.map_replicate]
    have hnothing : Nat.ofDigits 256 (List.replicate n (UInt8.toNat 0)) = 0 := by
      induction n with
      | zero => rfl
      | succ n _ => simp [List.replicate_succ, Nat.ofDigits_cons]
    rw [hnothing]
    rfl
  conv_rhs => rw [← replicate_leading_append 0 value]
  exact (hzeros _ _).symm

/-- Distinct symbols for the digits, and no two byte strings are encoded alike. -/
theorem encodeBytes_injective (hsymbol : ∀ m < base, ∀ n < base, symbol m = symbol n → m = n) :
    Function.Injective (encodeBytes base symbol) := by
  have hhead (number : Nat) :
      ((Nat.digits base number).reverse.map symbol).head? ≠ some (symbol 0) := by
    intro h
    rw [List.head?_map, List.head?_reverse, Option.map_eq_some_iff] at h
    obtain ⟨digit, hlast, hzero⟩ := h
    have hdigit : digit = 0 := hsymbol digit
      (Nat.digits_lt_base hbase (List.mem_of_getLast? hlast)) 0 (by omega) hzero
    have hnumber : number ≠ 0 := fun hn => by
      rw [hn, Nat.digits_zero] at hlast
      cases hlast
    have hne := Nat.getLast_digit_ne_zero base hnumber
    rw [List.getLast?_eq_some_getLast (Nat.digits_ne_nil_iff_ne_zero.mpr hnumber),
      Option.some.injEq] at hlast
    exact hne (hlast.trans hdigit)
  intro value value' h
  unfold encodeBytes at h
  rw [prependDigits_eq symbol hbase, prependDigits_eq symbol hbase, List.append_nil,
    List.append_nil] at h
  obtain ⟨hleading, hsymbols⟩ := replicate_append_inj (hhead _) (hhead _) h
  have hdigits : Nat.digits base (bigEndian value) = Nat.digits base (bigEndian value') := by
    refine List.reverse_injective (eq_of_map_eq hsymbols fun m hm n hn => ?_)
    exact hsymbol m (Nat.digits_lt_base hbase (List.mem_reverse.mp hm)) n
      (Nat.digits_lt_base hbase (List.mem_reverse.mp hn))
  have hnumbers : bigEndian (stripped 0 value) = bigEndian (stripped 0 value') := by
    rw [bigEndian_stripped, bigEndian_stripped]
    exact Nat.digits_inj_iff.mp hdigits
  have hstripped := bigEndian_inj (head?_stripped 0 value) (head?_stripped 0 value') hnumbers
  rw [← replicate_leading_append 0 value, ← replicate_leading_append 0 value', hleading, hstripped]

end Base
end Numerals
