import PumpResearch.Library.Framing

/-! Python's json.dumps of lists of scalars with compact separators and ensure_ascii. The text
of a list tells the list. -/
namespace JsonDump

open Framing

/-! ### Strings -/

/-- The characters that are written as a backslash and a letter. -/
def shortEscapes : List (Char × Char) :=
  [('"', '"'), ('\\', '\\'), ('\n', 'n'), ('\r', 'r'), ('\t', 't'), ('\x08', 'b'), ('\x0c', 'f')]

def shortEscape? (c : Char) : Option Char := (shortEscapes.find? fun p => p.1 = c).map Prod.snd

/-- A code unit in four hexadecimal digits. -/
def hex4 (n : Nat) : List Char :=
  [Nat.digitChar (n / 4096 % 16), Nat.digitChar (n / 256 % 16), Nat.digitChar (n / 16 % 16),
    Nat.digitChar (n % 16)]

def unitEscape (n : Nat) : List Char := '\\' :: 'u' :: hex4 n

/-- A character outside the basic plane is written as its surrogate pair. -/
def unicodeEscape (c : Char) : List Char :=
  if c.toNat < 0x10000 then unitEscape c.toNat
  else unitEscape (0xD800 + (c.toNat - 0x10000) / 0x400) ++
    unitEscape (0xDC00 + (c.toNat - 0x10000) % 0x400)

def isPrintable (c : Char) : Bool := 0x20 ≤ c.toNat && c.toNat ≤ 0x7E

def escape (c : Char) : List Char :=
  match shortEscape? c with
  | some e => ['\\', e]
  | none => if isPrintable c then [c] else unicodeEscape c

def dumpString (s : String) : List Char := '"' :: (s.toList.flatMap escape ++ ['"'])

theorem mem_of_shortEscape? {c e : Char} (h : shortEscape? c = some e) : (c, e) ∈ shortEscapes := by
  obtain ⟨⟨c', e'⟩, hfind, rfl⟩ := Option.map_eq_some_iff.mp h
  have hc : c' = c := by simpa only [decide_eq_true_eq] using List.find?_some hfind
  rw [← hc]
  exact List.mem_of_find?_eq_some hfind

theorem shortEscape?_inj {c d e : Char} (hc : shortEscape? c = some e)
    (hd : shortEscape? d = some e) : c = d := by
  have hall : ∀ p ∈ shortEscapes, ∀ q ∈ shortEscapes, p.2 = q.2 → p.1 = q.1 := by decide
  exact hall _ (mem_of_shortEscape? hc) _ (mem_of_shortEscape? hd) rfl

theorem shortEscape?_ne_u (c : Char) : shortEscape? c ≠ some 'u' := by
  intro h
  have hall : ∀ p ∈ shortEscapes, p.2 ≠ 'u' := by decide
  exact hall _ (mem_of_shortEscape? h) rfl

theorem digitChar_inj {m n : Nat} (hm : m < 16) (hn : n < 16)
    (h : Nat.digitChar m = Nat.digitChar n) : m = n := by
  have hall : ∀ m < 16, ∀ n < 16, Nat.digitChar m = Nat.digitChar n → m = n := by decide
  exact hall m hm n hn h

theorem hex4_inj {m n : Nat} (hm : m < 0x10000) (hn : n < 0x10000) (h : hex4 m = hex4 n) :
    m = n := by
  simp only [hex4, List.cons.injEq, and_true] at h
  have h1 := digitChar_inj (by omega) (by omega) h.1
  have h2 := digitChar_inj (by omega) (by omega) h.2.1
  have h3 := digitChar_inj (by omega) (by omega) h.2.2.1
  have h4 := digitChar_inj (by omega) (by omega) h.2.2.2
  omega

theorem unitEscape_inj {m n : Nat} {s t : List Char} (hm : m < 0x10000) (hn : n < 0x10000)
    (h : unitEscape m ++ s = unitEscape n ++ t) : m = n ∧ s = t := by
  obtain ⟨hunit, hst⟩ := List.append_inj h rfl
  simp only [unitEscape, List.cons.injEq, true_and] at hunit
  exact ⟨hex4_inj hm hn hunit, hst⟩

theorem toNat_bounds (c : Char) : c.toNat < 0x110000 ∧ (c.toNat < 0xD800 ∨ 0xDFFF < c.toNat) := by
  have hvalid := c.valid
  simp only [UInt32.isValidChar, Nat.isValidChar] at hvalid
  have htoNat : c.toNat = c.val.toNat := rfl
  omega

/-- No character stands for a surrogate, so a pair is not mistaken for two characters. -/
theorem readable_unicodeEscape : Readable unicodeEscape := by
  intro a b s t _ _ heq
  have ha := toNat_bounds a
  have hb := toNat_bounds b
  unfold unicodeEscape at heq
  split at heq
  · split at heq
    · obtain ⟨hab, hst⟩ := unitEscape_inj (by omega) (by omega) heq
      exact ⟨Char.toNat_inj.mp hab, hst⟩
    · rw [List.append_assoc] at heq
      obtain ⟨hab, _⟩ := unitEscape_inj (by omega) (by omega) heq
      omega
  · rw [List.append_assoc] at heq
    split at heq
    · obtain ⟨hab, _⟩ := unitEscape_inj (by omega) (by omega) heq
      omega
    · rw [List.append_assoc] at heq
      obtain ⟨hhigh, hrest⟩ := unitEscape_inj (by omega) (by omega) heq
      obtain ⟨hlow, hst⟩ := unitEscape_inj (by omega) (by omega) hrest
      exact ⟨Char.toNat_inj.mp (by omega), hst⟩

theorem unicodeEscape_eq (c : Char) : ∃ rest, unicodeEscape c = '\\' :: 'u' :: rest := by
  unfold unicodeEscape
  split
  · exact ⟨_, rfl⟩
  · exact ⟨_, rfl⟩

theorem ne_backslash_of_none {c : Char} (h : shortEscape? c = none) : c ≠ '\\' ∧ c ≠ '"' := by
  constructor
  · intro hc
    rw [hc] at h
    exact absurd h (by decide)
  · intro hc
    rw [hc] at h
    exact absurd h (by decide)

/-- Every escape is one of three: two characters, the character itself, a unicode escape. -/
theorem escape_cases (c : Char) :
    (∃ e, shortEscape? c = some e ∧ e ≠ 'u' ∧ escape c = ['\\', e]) ∨
    (c ≠ '\\' ∧ c ≠ '"' ∧ escape c = [c]) ∨
    escape c = unicodeEscape c := by
  unfold escape
  cases hshort : shortEscape? c with
  | some e =>
    exact .inl ⟨e, rfl, fun he => shortEscape?_ne_u c (by rw [hshort, he]), rfl⟩
  | none =>
    obtain ⟨hbackslash, hquote⟩ := ne_backslash_of_none hshort
    by_cases hprintable : isPrintable c = true
    · exact .inr (.inl ⟨hbackslash, hquote, by simp only [hprintable, if_true]⟩)
    · exact .inr (.inr (by simp only [hprintable, if_false, Bool.false_eq_true]))

theorem readable_escape : Readable escape := by
  intro a b s t _ _ heq
  obtain ⟨e, ha, hne, hwa⟩ | ⟨ha, _, hwa⟩ | hwa := escape_cases a <;>
  obtain ⟨e', hb, hne', hwb⟩ | ⟨hb, _, hwb⟩ | hwb := escape_cases b <;>
  rw [hwa, hwb] at heq
  · simp only [List.cons_append, List.nil_append, List.cons.injEq, true_and] at heq
    obtain ⟨he, hst⟩ := heq
    exact ⟨shortEscape?_inj ha (he ▸ hb), hst⟩
  · simp only [List.cons_append, List.nil_append, List.cons.injEq] at heq
    exact absurd heq.1.symm hb
  · obtain ⟨rest, hrest⟩ := unicodeEscape_eq b
    simp only [hrest, List.cons_append, List.nil_append, List.cons.injEq, true_and] at heq
    exact absurd heq.1 hne
  · simp only [List.cons_append, List.nil_append, List.cons.injEq] at heq
    exact absurd heq.1 ha
  · simp only [List.cons_append, List.nil_append, List.cons.injEq] at heq
    exact heq
  · obtain ⟨rest, hrest⟩ := unicodeEscape_eq b
    simp only [hrest, List.cons_append, List.nil_append, List.cons.injEq] at heq
    exact absurd heq.1 ha
  · obtain ⟨rest, hrest⟩ := unicodeEscape_eq a
    simp only [hrest, List.cons_append, List.nil_append, List.cons.injEq, true_and] at heq
    exact absurd heq.1.symm hne'
  · obtain ⟨rest, hrest⟩ := unicodeEscape_eq a
    simp only [hrest, List.cons_append, List.nil_append, List.cons.injEq] at heq
    exact absurd heq.1.symm hb
  · exact readable_unicodeEscape a b s t trivial trivial heq

/-- An escaped text has no quote that could end it early. -/
theorem escape_append_ne (c : Char) (s t : List Char) : escape c ++ s ≠ ['"'] ++ t := by
  intro heq
  obtain ⟨e, _, _, hw⟩ | ⟨_, hquote, hw⟩ | hw := escape_cases c
  · simp only [hw, List.cons_append, List.nil_append, List.cons.injEq] at heq
    exact absurd heq.1 (by decide)
  · simp only [hw, List.cons_append, List.nil_append, List.cons.injEq] at heq
    exact hquote heq.1
  · obtain ⟨rest, hrest⟩ := unicodeEscape_eq c
    simp only [hw, hrest, List.cons_append, List.nil_append, List.cons.injEq] at heq
    exact absurd heq.1 (by decide)

theorem readable_dumpString : Readable dumpString := by
  have hchars := readable_flatMap readable_escape (fun _ _ => trivial) (fun _ => trivial)
    escape_append_ne
  intro a b s t _ _ heq
  obtain ⟨hab, hst⟩ := hchars a.toList b.toList s t trivial trivial
    ((List.cons_inj_right _).mp heq)
  exact ⟨String.toList_inj.mp hab, hst⟩

/-! ### Scalars -/

inductive Scalar where
  | null
  | boolean (b : Bool)
  | integer (n : Int)
  | string (s : String)
deriving DecidableEq

def dumpInt : Int → List Char
  | .ofNat n => Nat.toDigits 10 n
  | .negSucc n => '-' :: Nat.toDigits 10 (n + 1)

def dumpScalar : Scalar → List Char
  | .null => ['n', 'u', 'l', 'l']
  | .boolean true => ['t', 'r', 'u', 'e']
  | .boolean false => ['f', 'a', 'l', 's', 'e']
  | .integer n => dumpInt n
  | .string s => dumpString s

/-- What the first character of a scalar tells. -/
inductive Kind where
  | null
  | boolean (b : Bool)
  | integer
  | string
deriving DecidableEq

def Scalar.kind : Scalar → Kind
  | .null => .null
  | .boolean b => .boolean b
  | .integer _ => .integer
  | .string _ => .string

def kindOf? (c : Char) : Option Kind :=
  if c = '-' ∨ c.isDigit = true then some .integer
  else if c = '"' then some .string
  else if c = 'n' then some .null
  else if c = 't' then some (.boolean true)
  else if c = 'f' then some (.boolean false)
  else none

theorem exists_lead (v : Scalar) :
    ∃ c rest, dumpScalar v = c :: rest ∧ kindOf? c = some v.kind := by
  cases v with
  | null => exact ⟨_, _, rfl, rfl⟩
  | boolean b => cases b <;> exact ⟨_, _, rfl, rfl⟩
  | string s => exact ⟨_, _, rfl, rfl⟩
  | integer n =>
    cases n with
    | ofNat n =>
      obtain ⟨c, rest, h, hc⟩ := exists_digit n
      exact ⟨c, rest, h, if_pos (.inr hc)⟩
    | negSucc n => exact ⟨_, _, rfl, rfl⟩

/-- What may follow a scalar in a list. -/
def EndsItem : List Char → Prop := GoesOn fun c => c = ',' ∨ c = ']'

theorem startsWith_of_endsItem {s : List Char} (h : EndsItem s) :
    StartsWith (fun c : Char => ¬ c.isDigit = true) s := by
  obtain ⟨c, rest, rfl, hc⟩ := h
  intro d hd
  rw [List.head?_cons, Option.mem_some_iff] at hd
  rw [← hd]
  obtain rfl | rfl := hc
  · decide
  · decide

theorem readable_dumpInt : ReadableBefore EndsItem dumpInt := by
  intro m n s t hs ht heq
  have hdigits := readable_toDigits.weaken fun _ => startsWith_of_endsItem
  have hsign (n : Nat) (s t : List Char) : Nat.toDigits 10 n ++ s ≠ '-' :: t := by
    intro h
    obtain ⟨c, rest, hn, hc⟩ := exists_digit n
    rw [hn, List.cons_append, List.cons.injEq] at h
    rw [h.1] at hc
    exact absurd hc (by decide)
  cases m with
  | ofNat m =>
    cases n with
    | ofNat n =>
      obtain ⟨hmn, hst⟩ := hdigits m n s t hs ht heq
      exact ⟨by rw [hmn], hst⟩
    | negSucc n => exact absurd heq (hsign m s _)
  | negSucc m =>
    cases n with
    | ofNat n => exact absurd heq.symm (hsign n t _)
    | negSucc n =>
      obtain ⟨hmn, hst⟩ := hdigits (m + 1) (n + 1) s t hs ht ((List.cons_inj_right _).mp heq)
      exact ⟨by rw [Nat.succ.inj hmn], hst⟩

theorem readable_dumpScalar : ReadableBefore EndsItem dumpScalar := by
  intro a b s t hs ht heq
  obtain ⟨c, rest, hwa, ha⟩ := exists_lead a
  obtain ⟨d, rest', hwb, hb⟩ := exists_lead b
  have hkind : a.kind = b.kind := by
    rw [hwa, hwb, List.cons_append, List.cons_append, List.cons.injEq] at heq
    rw [heq.1, hb, Option.some.injEq] at ha
    exact ha.symm
  cases a with
  | null =>
    cases b with
    | null => exact ⟨rfl, List.append_cancel_left heq⟩
    | boolean _ => cases hkind
    | integer _ => cases hkind
    | string _ => cases hkind
  | boolean x =>
    cases b with
    | null => cases hkind
    | boolean y =>
      obtain rfl : x = y := Kind.boolean.inj hkind
      exact ⟨rfl, List.append_cancel_left heq⟩
    | integer _ => cases hkind
    | string _ => cases hkind
  | integer m =>
    cases b with
    | null => cases hkind
    | boolean _ => cases hkind
    | integer n =>
      obtain ⟨hmn, hst⟩ := readable_dumpInt m n s t hs ht heq
      exact ⟨by rw [hmn], hst⟩
    | string _ => cases hkind
  | string u =>
    cases b with
    | null => cases hkind
    | boolean _ => cases hkind
    | integer _ => cases hkind
    | string v =>
      obtain ⟨huv, hst⟩ := readable_dumpString u v s t trivial trivial heq
      exact ⟨by rw [huv], hst⟩

/-! ### Lists -/

/-- The text of a list of scalars. -/
def dumpList (values : List Scalar) : List Char := '[' :: joined ',' ']' dumpScalar values

theorem readable_dumpList : Readable dumpList := by
  have hitems : Readable (joined ',' ']' dumpScalar) := by
    apply readable_joined (by decide) readable_dumpScalar
    intro a s t heq
    obtain ⟨c, rest, hw, hc⟩ := exists_lead a
    rw [hw, List.cons_append, List.cons.injEq] at heq
    rw [heq.1] at hc
    cases hc
  intro as bs s t _ _ heq
  exact hitems as bs s t trivial trivial ((List.cons_inj_right _).mp heq)

end JsonDump
