import PumpResearch.Library.OrderedDict
import PumpResearch.Library.Results
import PumpResearch.Library.Utf8

/-! `json.loads` of the Python standard library: its tolerant constants, its last-wins objects,
its lone surrogates, and the two ways other than a syntax error in which it raises. -/
namespace PythonJson
open Utf8 OrderedDict Results

/-! ### Values -/

/-- A number with a fraction or an exponent: `digits * 10 ^ exponent`, with its sign. -/
structure Decimal where
  negative : Bool
  digits : Nat
  exponent : Int
deriving DecidableEq, Repr

/-- What a float is read from. A `decimal` stands for the double nearest to it. -/
inductive FloatLiteral where
  | nan
  | infinity (negative : Bool)
  | decimal (value : Decimal)
deriving DecidableEq, Repr

/-- From here on a number rounds to an infinity. -/
def overflowBound : Nat := (2 ^ 54 - 1) * 2 ^ 970

def Decimal.overflows (d : Decimal) : Bool :=
  match d.exponent with
  | .ofNat e => overflowBound ≤ d.digits * 10 ^ e
  | .negSucc e => overflowBound * 10 ^ (e + 1) ≤ d.digits

/-- The double of a literal is neither an infinity nor not a number. -/
def FloatLiteral.isFinite : FloatLiteral → Bool
  | .nan | .infinity _ => false
  | .decimal d => !d.overflows

inductive JsonValue where
  | null
  | bool (b : Bool)
  | int (n : Int)
  | float (literal : FloatLiteral)
  | str (s : Text)
  | list (items : List JsonValue)
  | dict (entries : List (Text × JsonValue))

mutual

/-- How deep objects and arrays nest in a value. -/
def JsonValue.depth : JsonValue → Nat
  | .list items => itemsDepth items + 1
  | .dict entries => entriesDepth entries + 1
  | _ => 0

def itemsDepth : List JsonValue → Nat
  | [] => 0
  | value :: items => max value.depth (itemsDepth items)

def entriesDepth : List (Text × JsonValue) → Nat
  | [] => 0
  | (_, value) :: entries => max value.depth (entriesDepth entries)

end

mutual

/-- The floats anywhere in a value. -/
def JsonValue.floats : JsonValue → List FloatLiteral
  | .float literal => [literal]
  | .list items => itemsFloats items
  | .dict entries => entriesFloats entries
  | _ => []

def itemsFloats : List JsonValue → List FloatLiteral
  | [] => []
  | value :: items => value.floats ++ itemsFloats items

def entriesFloats : List (Text × JsonValue) → List FloatLiteral
  | [] => []
  | (_, value) :: entries => value.floats ++ entriesFloats entries

end

mutual

/-- The strings and the keys anywhere in a value. -/
def JsonValue.strings : JsonValue → List Text
  | .str s => [s]
  | .list items => itemsStrings items
  | .dict entries => entriesStrings entries
  | _ => []

def itemsStrings : List JsonValue → List Text
  | [] => []
  | value :: items => value.strings ++ itemsStrings items

def entriesStrings : List (Text × JsonValue) → List Text
  | [] => []
  | (key, value) :: entries => key :: (value.strings ++ entriesStrings entries)

end

inductive DecodeError where
  | syntaxError
  | recursionLimit
  | tooManyDigits
deriving DecidableEq, Repr

/-! ### Characters -/

def code (c : Char) : Nat := c.toNat

def isDigit (c : CodePoint) : Bool := code '0' ≤ c.val && c.val ≤ code '9'

def isSpace (c : CodePoint) : Bool := c.val ∈ [0x20, 0x09, 0x0A, 0x0D]

def skipSpace (t : Text) : Text := t.dropWhile isSpace

def hexDigit? (c : CodePoint) : Option Nat :=
  if code '0' ≤ c.val ∧ c.val ≤ code '9' then some (c.val - code '0')
  else if code 'a' ≤ c.val ∧ c.val ≤ code 'f' then some (c.val - code 'a' + 10)
  else if code 'A' ≤ c.val ∧ c.val ≤ code 'F' then some (c.val - code 'A' + 10)
  else none

def hex4? (a b c d : CodePoint) : Option CodePoint := do
  let n := (← hexDigit? a) * 4096 + (← hexDigit? b) * 256 + (← hexDigit? c) * 16 + (← hexDigit? d)
  return Fin.ofNat 0x110000 n

/-! ### Strings -/

/-- A character of a string, with whether a `\u` escape stands for it. -/
structure ScannedChar where
  codePoint : CodePoint
  escaped : Bool

def isHighSurrogate (c : CodePoint) : Bool := 0xD800 ≤ c.val && c.val ≤ 0xDBFF
def isLowSurrogate (c : CodePoint) : Bool := 0xDC00 ≤ c.val && c.val ≤ 0xDFFF

/-- Two `\u` escapes for the halves of one code point are that code point. -/
def joinSurrogates : List ScannedChar → Text
  | [] => []
  | [a] => [a.codePoint]
  | a :: b :: rest =>
    if a.escaped && isHighSurrogate a.codePoint && b.escaped && isLowSurrogate b.codePoint then
      Fin.ofNat 0x110000 (0x10000 + (a.codePoint.val - 0xD800) * 0x400 +
        (b.codePoint.val - 0xDC00)) :: joinSurrogates rest
    else a.codePoint :: joinSurrogates (b :: rest)

def shortEscape? (c : CodePoint) : Option CodePoint :=
  if c.val = code '"' ∨ c.val = code '\\' ∨ c.val = code '/' then some c
  else if c.val = code 'b' then some 0x08
  else if c.val = code 'f' then some 0x0C
  else if c.val = code 'n' then some 0x0A
  else if c.val = code 'r' then some 0x0D
  else if c.val = code 't' then some 0x09
  else none

/-- The characters up to the closing quote, and what follows it. -/
def scanUnits : Text → Except DecodeError (List ScannedChar × Text)
  | [] => .error .syntaxError
  | c :: rest =>
    if c.val = code '"' then .ok ([], rest)
    else if c.val < 0x20 then .error .syntaxError
    else if c.val = code '\\' then
      match rest with
      | [] => .error .syntaxError
      | e :: rest =>
        if e.val = code 'u' then
          match rest with
          | h1 :: h2 :: h3 :: h4 :: rest =>
            match hex4? h1 h2 h3 h4 with
            | none => .error .syntaxError
            | some point => do
              let (units, after) ← scanUnits rest
              return (⟨point, true⟩ :: units, after)
          | _ => .error .syntaxError
        else
          match shortEscape? e with
          | none => .error .syntaxError
          | some point => do
            let (units, after) ← scanUnits rest
            return (⟨point, false⟩ :: units, after)
    else do
      let (units, after) ← scanUnits rest
      return (⟨c, false⟩ :: units, after)

/-- `scanstring`, after the opening quote. -/
def scanString (t : Text) : Except DecodeError (Text × Text) := do
  let (units, after) ← scanUnits t
  return (joinSurrogates units, after)

/-! ### Numbers -/

def digitsValue (ds : Text) : Nat := ds.foldl (fun n d => n * 10 + (d.val - code '0')) 0

/-- The fraction after an integer part, if there is one. -/
def scanFraction (t : Text) : Option (Text × Text) :=
  match t with
  | dot :: d :: rest =>
    if dot.val = code '.' ∧ isDigit d then
      some (d :: rest.takeWhile isDigit, rest.dropWhile isDigit)
    else none
  | _ => none

/-- A sign and what follows it. Without one the text is positive. -/
def scanSign : Text → Bool × Text
  | [] => (false, [])
  | c :: rest =>
    if c.val = code '-' then (true, rest)
    else if c.val = code '+' then (false, rest)
    else (false, c :: rest)

/-- The exponent after an integer part or a fraction, if there is one. -/
def scanExponent : Text → Option (Int × Text)
  | [] => none
  | e :: rest =>
    if e.val = code 'e' ∨ e.val = code 'E' then
      let (negative, rest) := scanSign rest
      let n : Int := digitsValue (rest.takeWhile isDigit)
      if (rest.takeWhile isDigit).isEmpty then none
      else some (if negative then -n else n, rest.dropWhile isDigit)
    else none

/-- `_match_number`, after the sign. -/
def scanNumber (maxDigits : Nat) (negative : Bool) (t : Text) :
    Except DecodeError (JsonValue × Text) :=
  match t with
  | [] => .error .syntaxError
  | d :: rest =>
    if ¬ isDigit d then .error .syntaxError
    else
      let (integer, rest) :=
        if d.val = code '0' then ([d], rest)
        else (d :: rest.takeWhile isDigit, rest.dropWhile isDigit)
      let fraction := scanFraction rest
      let rest := (fraction.map (·.2)).getD rest
      let exponent := scanExponent rest
      let rest := (exponent.map (·.2)).getD rest
      if fraction.isNone && exponent.isNone then
        if maxDigits < integer.length then .error .tooManyDigits
        else
          let n : Int := digitsValue integer
          .ok (.int (if negative then -n else n), rest)
      else
        let decimals := (fraction.map (·.1)).getD []
        .ok (.float (.decimal ⟨negative, digitsValue (integer ++ decimals),
          (exponent.map (·.1)).getD 0 - decimals.length⟩), rest)

/-! ### Objects, arrays and values -/

section Containers
variable (scan : Text → Except DecodeError (JsonValue × Text))

/-- The items of an array, from the first one on. Every round takes a character. -/
def arrayItems : Nat → List JsonValue → Text → Except DecodeError (JsonValue × Text)
  | 0, _, _ => .error .syntaxError
  | rounds + 1, items, t => do
    let (value, rest) ← scan t
    match skipSpace rest with
    | [] => .error .syntaxError
    | c :: rest =>
      if c.val = code ']' then .ok (.list (items ++ [value]), rest)
      else if c.val = code ',' then arrayItems rounds (items ++ [value]) (skipSpace rest)
      else .error .syntaxError

/-- `_parse_array`, after the bracket. -/
def scanArray (t : Text) : Except DecodeError (JsonValue × Text) :=
  match skipSpace t with
  | [] => .error .syntaxError
  | c :: rest =>
    if c.val = code ']' then .ok (.list [], rest)
    else arrayItems scan t.length [] (c :: rest)

/-- The members of an object, from the first key on. -/
def objectMembers : Nat → List (Text × JsonValue) → Text → Except DecodeError (JsonValue × Text)
  | 0, _, _ => .error .syntaxError
  | rounds + 1, entries, t =>
    match t with
    | [] => .error .syntaxError
    | quote :: rest => do
      if quote.val ≠ code '"' then throw .syntaxError
      let (key, rest) ← scanString rest
      match skipSpace rest with
      | [] => throw .syntaxError
      | colon :: rest => do
        if colon.val ≠ code ':' then throw .syntaxError
        let (value, rest) ← scan (skipSpace rest)
        let entries := setEntry key value entries
        match skipSpace rest with
        | [] => throw .syntaxError
        | c :: rest =>
          if c.val = code '}' then return (.dict entries, rest)
          else if c.val = code ',' then objectMembers rounds entries (skipSpace rest)
          else throw .syntaxError

/-- `_parse_object`, after the brace. -/
def scanObject (t : Text) : Except DecodeError (JsonValue × Text) :=
  match skipSpace t with
  | [] => .error .syntaxError
  | c :: rest =>
    if c.val = code '}' then .ok (.dict [], rest)
    else objectMembers scan t.length [] (c :: rest)

end Containers

/-- The text after a word, if it starts with it. -/
def after? (word : String) (t : Text) : Option Text :=
  if (text word).isPrefixOf t then some (t.drop (text word).length) else none

/-- The constants, with the value each stands for. -/
def constants : List (String × JsonValue) := [
  ("null", .null), ("true", .bool true), ("false", .bool false), ("NaN", .float .nan),
  ("Infinity", .float (.infinity false)), ("-Infinity", .float (.infinity true))]

def scanConstant (t : Text) : Option (JsonValue × Text) :=
  constants.findSome? fun constant => (after? constant.1 t).map fun rest => (constant.2, rest)

/-- `scan_once`. Objects and arrays may nest as deep as the interpreter recurses. -/
def scanOnce (maxDigits : Nat) : Nat → Text → Except DecodeError (JsonValue × Text)
  | _, [] => .error .syntaxError
  | depth, c :: rest =>
    if c.val = code '"' then do
      let (s, rest) ← scanString rest
      return (.str s, rest)
    else if c.val = code '{' then
      match depth with
      | 0 => .error .recursionLimit
      | depth + 1 => scanObject (scanOnce maxDigits depth) rest
    else if c.val = code '[' then
      match depth with
      | 0 => .error .recursionLimit
      | depth + 1 => scanArray (scanOnce maxDigits depth) rest
    else
      match scanConstant (c :: rest) with
      | some result => .ok result
      | none =>
        if c.val = code '-' then scanNumber maxDigits true rest
        else scanNumber maxDigits false (c :: rest)

/-- `json.loads` of a text. -/
def loads (maxDigits depth : Nat) (t : Text) : Except DecodeError JsonValue := do
  if t.head? = some 0xFEFF then throw .syntaxError
  let (value, rest) ← scanOnce maxDigits depth (skipSpace t)
  if (skipSpace rest).isEmpty then return value else throw .syntaxError

example : (loads 4300 5 (text "[1, -2.50e1, NaN]")).toOption.isSome := by decide +kernel

/-! ### Every scan takes a character -/

/-- What a scan leaves is shorter than the text. -/
def Shorter {α : Type} (t : Text) (result : Except DecodeError (α × Text)) : Prop :=
  ∀ value rest, result = .ok (value, rest) → rest.length < t.length

theorem Shorter.error {α : Type} {t : Text} {e : DecodeError} :
    Shorter (α := α) t (.error e) := fun _ _ h => by cases h

theorem Shorter.ok {α : Type} {t rest : Text} {value : α} (h : rest.length < t.length) :
    Shorter t (.ok (value, rest)) := by
  intro value' rest' heq
  cases heq
  exact h

/-- A scan that goes on after a shorter text. -/
theorem Shorter.bind {α β : Type} {s t : Text} {first : Except DecodeError (α × Text)}
    {next : α × Text → Except DecodeError (β × Text)} (h : Shorter s first)
    (hnext : ∀ value rest, rest.length < s.length → Shorter t (next (value, rest))) :
    Shorter t (first >>= next) := by
  intro value rest hbind
  obtain ⟨middle, hfirst, hok⟩ := bind_eq_ok.mp hbind
  exact hnext middle.1 middle.2 (h middle.1 middle.2 hfirst) value rest hok

theorem length_skipSpace_le (t : Text) : (skipSpace t).length ≤ t.length :=
  (List.dropWhile_suffix _).length_le

theorem length_dropWhile_le (p : CodePoint → Bool) (t : Text) :
    (t.dropWhile p).length ≤ t.length := (List.dropWhile_suffix _).length_le

theorem shorter_scanUnits (t : Text) : Shorter t (scanUnits t) := by
  fun_induction scanUnits t with
  | case1 => exact .error
  | case2 c rest => exact .ok (by simp)
  | case3 => exact .error
  | case4 => exact .error
  | case5 => exact .error
  | case6 _ _ _ _ _ _ _ _ _ _ _ _ _ ih =>
    refine ih.bind fun units after hafter => .ok ?_
    simp only [List.length_cons]
    omega
  | case7 => exact .error
  | case8 => exact .error
  | case9 _ _ _ _ _ _ _ _ _ ih =>
    refine ih.bind fun units after hafter => .ok ?_
    simp only [List.length_cons]
    omega
  | case10 _ _ _ _ _ ih =>
    refine ih.bind fun units after hafter => .ok ?_
    simp only [List.length_cons]
    omega

theorem shorter_scanString (t : Text) : Shorter t (scanString t) :=
  (shorter_scanUnits t).bind fun _ _ hafter => .ok hafter

theorem length_scanFraction {t : Text} {result : Text × Text} (h : scanFraction t = some result) :
    result.2.length ≤ t.length := by
  unfold scanFraction at h
  split at h
  · next dot d rest =>
    split at h
    · cases h
      have hdrop := length_dropWhile_le isDigit rest
      simp only [List.length_cons]
      omega
    · cases h
  · cases h

theorem length_scanSign (t : Text) : (scanSign t).2.length ≤ t.length := by
  unfold scanSign
  split
  · exact le_rfl
  · split
    · simp
    · split
      · simp
      · exact le_rfl

theorem length_scanExponent {t : Text} {result : Int × Text} (h : scanExponent t = some result) :
    result.2.length ≤ t.length := by
  unfold scanExponent at h
  split at h
  · cases h
  · next e rest =>
    have hsign := length_scanSign rest
    have hdrop := length_dropWhile_le isDigit (scanSign rest).2
    split at h
    · simp only at h
      split at h
      · cases h
      · rw [← Option.some.inj h]
        simp only [List.length_cons]
        omega
    · cases h

/-- What follows an optional part. -/
theorem length_getD {α : Type} {t : Text} {part : Option (α × Text)}
    (h : ∀ result, part = some result → result.2.length ≤ t.length) :
    ((part.map (·.2)).getD t).length ≤ t.length := by
  cases part with
  | none => exact le_rfl
  | some result => exact h result rfl

theorem shorter_scanNumber (maxDigits : Nat) (negative : Bool) (t : Text) :
    Shorter t (scanNumber maxDigits negative t) := by
  unfold scanNumber
  split
  · exact .error
  · next d rest =>
    split
    · exact .error
    · generalize hinteger : (if d.val = code '0' then ([d], rest)
        else (d :: rest.takeWhile isDigit, rest.dropWhile isDigit)) = integer
      have hrest : integer.2.length ≤ rest.length := by
        rw [← hinteger]
        split
        · exact le_rfl
        · exact length_dropWhile_le isDigit rest
      have hfraction : (((scanFraction integer.2).map (·.2)).getD integer.2).length ≤
          integer.2.length :=
        length_getD fun _ => length_scanFraction
      have hexponent := length_getD fun result =>
        @length_scanExponent (((scanFraction integer.2).map (·.2)).getD integer.2) result
      simp only
      split
      · split
        · exact .error
        · refine .ok ?_
          simp only [List.length_cons]
          omega
      · refine .ok ?_
        simp only [List.length_cons]
        omega

theorem length_after {word : String} {t rest : Text} (h : after? word t = some rest)
    (hword : text word ≠ []) : rest.length < t.length := by
  unfold after? at h
  split at h
  · next hprefix =>
    have hle := (List.isPrefixOf_iff_prefix.mp hprefix).length_le
    have hpos := List.length_pos_of_ne_nil hword
    rw [← Option.some.inj h, List.length_drop]
    omega
  · cases h

theorem length_scanConstant {t : Text} {result : JsonValue × Text}
    (h : scanConstant t = some result) : result.2.length < t.length := by
  obtain ⟨constant, hconstant, hafter⟩ := List.exists_of_findSome?_eq_some h
  obtain ⟨rest, hrest, hresult⟩ := Option.map_eq_some_iff.mp hafter
  have hwords : ∀ constant ∈ constants, text constant.1 ≠ [] := by decide
  rw [← hresult]
  exact length_after hrest (hwords constant hconstant)

section Containers
variable {scan : Text → Except DecodeError (JsonValue × Text)}

theorem shorter_arrayItems (hscan : ∀ t, Shorter t (scan t)) (rounds : Nat)
    (items : List JsonValue) (t : Text) : Shorter t (arrayItems scan rounds items t) := by
  induction rounds generalizing items t with
  | zero => exact .error
  | succ rounds ih =>
    refine (hscan t).bind fun value rest hrest => ?_
    have hspace := length_skipSpace_le rest
    simp only
    split
    · exact .error
    · next c after hafter =>
      rw [hafter, List.length_cons] at hspace
      split
      · exact .ok (by omega)
      · split
        · intro final last h
          have hlast := ih _ _ final last h
          have hskip := length_skipSpace_le after
          omega
        · exact .error

theorem shorter_scanArray (hscan : ∀ t, Shorter t (scan t)) (t : Text) :
    Shorter t (scanArray scan t) := by
  have hspace := length_skipSpace_le t
  unfold scanArray
  split
  · exact .error
  · next c rest hrest =>
    rw [hrest, List.length_cons] at hspace
    split
    · exact .ok (by omega)
    · intro value after h
      have hafter := shorter_arrayItems hscan _ _ _ value after h
      rw [List.length_cons] at hafter
      omega

theorem shorter_objectMembers (hscan : ∀ t, Shorter t (scan t)) (rounds : Nat)
    (entries : List (Text × JsonValue)) (t : Text) :
    Shorter t (objectMembers scan rounds entries t) := by
  induction rounds generalizing entries t with
  | zero => exact .error
  | succ rounds ih =>
    unfold objectMembers
    split
    · exact .error
    · next quote tail =>
      split
      · exact .error
      · refine (shorter_scanString tail).bind fun key rest hrest => ?_
        have hspace := length_skipSpace_le rest
        simp only
        split
        · exact .error
        · next colon after hafter =>
          rw [hafter, List.length_cons] at hspace
          split
          · exact .error
          · refine (hscan (skipSpace after)).bind fun value left hleft => ?_
            have hskip := length_skipSpace_le after
            have hspace' := length_skipSpace_le left
            simp only
            split
            · exact .error
            · next c last hlast =>
              rw [hlast, List.length_cons] at hspace'
              split
              · refine .ok ?_
                rw [List.length_cons]
                omega
              · split
                · intro final end' h
                  have hend := ih _ _ final end' h
                  have hlastSkip := length_skipSpace_le last
                  rw [List.length_cons]
                  omega
                · exact .error

theorem shorter_scanObject (hscan : ∀ t, Shorter t (scan t)) (t : Text) :
    Shorter t (scanObject scan t) := by
  have hspace := length_skipSpace_le t
  unfold scanObject
  split
  · exact .error
  · next c rest hrest =>
    rw [hrest, List.length_cons] at hspace
    split
    · exact .ok (by omega)
    · intro value after h
      have hafter := shorter_objectMembers hscan _ _ _ value after h
      rw [List.length_cons] at hafter
      omega

end Containers

/-- One level of nesting. -/
theorem shorter_scanOnce_of_deeper {maxDigits depth : Nat}
    (hdeeper : ∀ d, depth = d + 1 → ∀ t, Shorter t (scanOnce maxDigits d t)) (t : Text) :
    Shorter t (scanOnce maxDigits depth t) := by
  have hcons : ∀ (c : CodePoint) (rest : Text) (result : Except DecodeError (JsonValue × Text)),
      Shorter rest result → Shorter (c :: rest) result := by
    intro c rest result h value after hok
    have hafter := h value after hok
    rw [List.length_cons]
    omega
  fun_cases scanOnce maxDigits depth t with
  | case1 => exact .error
  | case2 _ c rest _ =>
    refine (shorter_scanString rest).bind fun value after hafter => .ok ?_
    rw [List.length_cons]
    omega
  | case3 => exact .error
  | case4 c rest _ _ d => exact hcons c rest _ (shorter_scanObject (hdeeper d rfl) rest)
  | case5 => exact .error
  | case6 c rest _ _ _ d => exact hcons c rest _ (shorter_scanArray (hdeeper d rfl) rest)
  | case7 _ c rest _ _ _ result hconstant => exact .ok (length_scanConstant hconstant)
  | case8 _ c rest => exact hcons c rest _ (shorter_scanNumber maxDigits true rest)
  | case9 _ c rest => exact shorter_scanNumber maxDigits false (c :: rest)

theorem shorter_scanOnce (maxDigits depth : Nat) (t : Text) :
    Shorter t (scanOnce maxDigits depth t) := by
  induction depth generalizing t with
  | zero => exact shorter_scanOnce_of_deeper (fun d h => by cases h) t
  | succ depth ih =>
    refine shorter_scanOnce_of_deeper (fun d h => ?_) t
    cases h
    exact ih

/-! ### As many rounds as characters are enough -/

section Rounds
variable {scan : Text → Except DecodeError (JsonValue × Text)}

theorem arrayItems_rounds (hscan : ∀ t, Shorter t (scan t)) (hempty : scan [] = .error .syntaxError)
    {rounds : Nat} (items : List JsonValue) {t : Text} (h : t.length ≤ rounds) :
    arrayItems scan (rounds + 1) items t = arrayItems scan rounds items t := by
  induction rounds generalizing items t with
  | zero =>
    rw [List.length_eq_zero_iff.mp (Nat.le_zero.mp h)]
    simp only [arrayItems, hempty]
    rfl
  | succ rounds ih =>
    rw [arrayItems, arrayItems]
    cases hfirst : scan t with
    | error e => rfl
    | ok result =>
      have hrest := hscan t result.1 result.2 hfirst
      have hspace := length_skipSpace_le result.2
      simp only [ok_bind]
      split
      · rfl
      · next c after hafter =>
        rw [hafter, List.length_cons] at hspace
        have hskip := length_skipSpace_le after
        rw [ih (items ++ [result.1]) (by omega : (skipSpace after).length ≤ rounds)]

theorem objectMembers_rounds (hscan : ∀ t, Shorter t (scan t)) {rounds : Nat}
    (entries : List (Text × JsonValue)) {t : Text} (h : t.length ≤ rounds) :
    objectMembers scan (rounds + 1) entries t = objectMembers scan rounds entries t := by
  induction rounds generalizing entries t with
  | zero =>
    rw [List.length_eq_zero_iff.mp (Nat.le_zero.mp h)]
    rfl
  | succ rounds ih =>
    cases t with
    | nil => rfl
    | cons quote tail =>
      rw [List.length_cons] at h
      rw [objectMembers, objectMembers]
      split
      · rfl
      · cases hkey : scanString tail with
        | error e => rfl
        | ok key =>
          have hrest := shorter_scanString tail key.1 key.2 hkey
          have hspace := length_skipSpace_le key.2
          simp only [ok_bind]
          split
          · rfl
          · next colon after hafter =>
            rw [hafter, List.length_cons] at hspace
            split
            · rfl
            · cases hvalue : scan (skipSpace after) with
              | error e => rfl
              | ok value =>
                have hleft := hscan _ value.1 value.2 hvalue
                have hskip := length_skipSpace_le after
                have hspace' := length_skipSpace_le value.2
                simp only [ok_bind]
                split
                · rfl
                · next c last hlast =>
                  rw [hlast, List.length_cons] at hspace'
                  have hlastSkip := length_skipSpace_le last
                  rw [ih _ (by omega : (skipSpace last).length ≤ rounds)]

end Rounds

/-! ### How deep a decoded value nests -/

theorem itemsDepth_le {n : Nat} {items : List JsonValue} :
    itemsDepth items ≤ n ↔ ∀ value ∈ items, value.depth ≤ n := by
  induction items with
  | nil => simp [itemsDepth]
  | cons value items ih => simp [itemsDepth, ih]

theorem entriesDepth_le {n : Nat} {entries : List (Text × JsonValue)} :
    entriesDepth entries ≤ n ↔ ∀ entry ∈ entries, entry.2.depth ≤ n := by
  induction entries with
  | nil => simp [entriesDepth]
  | cons entry entries ih =>
    obtain ⟨key, value⟩ := entry
    simp [entriesDepth, ih]

/-- What is scanned nests at most this deep. -/
def Shallow (n : Nat) (result : Except DecodeError (JsonValue × Text)) : Prop :=
  ∀ value rest, result = .ok (value, rest) → value.depth ≤ n

section Depth
variable {scan : Text → Except DecodeError (JsonValue × Text)} {n : Nat}

theorem Shallow.error {e : DecodeError} : Shallow n (.error e) := fun _ _ h => by cases h

theorem Shallow.ok {value : JsonValue} {rest : Text} (h : value.depth ≤ n) :
    Shallow n (.ok (value, rest)) := by
  intro value' rest' heq
  cases heq
  exact h

theorem Shallow.bind {α : Type} {first : Except DecodeError α}
    {next : α → Except DecodeError (JsonValue × Text)}
    (h : ∀ value, first = .ok value → Shallow n (next value)) : Shallow n (first >>= next) := by
  intro value rest hbind
  obtain ⟨middle, hfirst, hok⟩ := bind_eq_ok.mp hbind
  exact h middle hfirst value rest hok

theorem shallow_arrayItems (hscan : ∀ t, Shallow n (scan t)) (rounds : Nat)
    {items : List JsonValue} (hitems : ∀ value ∈ items, value.depth ≤ n) (t : Text) :
    Shallow (n + 1) (arrayItems scan rounds items t) := by
  induction rounds generalizing items t with
  | zero => exact .error
  | succ rounds ih =>
    refine Shallow.bind fun result hfirst => ?_
    have hvalue := hscan t result.1 result.2 hfirst
    have hmore : ∀ value ∈ items ++ [result.1], value.depth ≤ n := by
      intro value hmem
      cases List.mem_append.mp hmem with
      | inl hold => exact hitems value hold
      | inr hnew => rwa [List.mem_singleton.mp hnew]
    simp only
    split
    · exact .error
    · split
      · exact .ok (Nat.succ_le_succ (itemsDepth_le.mpr hmore))
      · split
        · exact ih hmore _
        · exact .error

theorem shallow_scanArray (hscan : ∀ t, Shallow n (scan t)) (t : Text) :
    Shallow (n + 1) (scanArray scan t) := by
  unfold scanArray
  split
  · exact .error
  · split
    · exact .ok (Nat.succ_le_succ (Nat.zero_le n))
    · exact shallow_arrayItems hscan _ (fun _ hnil => absurd hnil List.not_mem_nil) _

theorem shallow_objectMembers (hscan : ∀ t, Shallow n (scan t)) (rounds : Nat)
    {entries : List (Text × JsonValue)} (hentries : ∀ entry ∈ entries, entry.2.depth ≤ n)
    (t : Text) : Shallow (n + 1) (objectMembers scan rounds entries t) := by
  induction rounds generalizing entries t with
  | zero => exact .error
  | succ rounds ih =>
    unfold objectMembers
    split
    · exact .error
    · split
      · exact .error
      · refine Shallow.bind fun key _ => ?_
        simp only
        split
        · exact .error
        · split
          · exact .error
          · refine Shallow.bind fun value hvalue => ?_
            have hdepth := hscan _ value.1 value.2 hvalue
            have hmore : ∀ entry ∈ setEntry key.1 value.1 entries, entry.2.depth ≤ n :=
              forall_setEntry hdepth hentries
            split
            · exact .error
            · split
              · exact .ok (Nat.succ_le_succ (entriesDepth_le.mpr hmore))
              · split
                · exact ih hmore _
                · exact .error

theorem shallow_scanObject (hscan : ∀ t, Shallow n (scan t)) (t : Text) :
    Shallow (n + 1) (scanObject scan t) := by
  unfold scanObject
  split
  · exact .error
  · split
    · exact .ok (Nat.succ_le_succ (Nat.zero_le n))
    · exact shallow_objectMembers hscan _ (fun _ hnil => absurd hnil List.not_mem_nil) _

end Depth

theorem shallow_scanConstant {n : Nat} {t : Text} {result : JsonValue × Text}
    (h : scanConstant t = some result) : Shallow n (.ok result) := by
  obtain ⟨constant, hconstant, hafter⟩ := List.exists_of_findSome?_eq_some h
  obtain ⟨rest, _, hresult⟩ := Option.map_eq_some_iff.mp hafter
  have hflat : ∀ constant ∈ constants, constant.2.depth = 0 := by decide
  rw [← hresult]
  exact .ok (by rw [hflat constant hconstant]; exact Nat.zero_le n)

theorem shallow_scanNumber {n : Nat} (maxDigits : Nat) (negative : Bool) (t : Text) :
    Shallow n (scanNumber maxDigits negative t) := by
  unfold scanNumber
  split
  · exact .error
  · next d rest =>
    split
    · exact .error
    · generalize (if d.val = code '0' then ([d], rest)
        else (d :: rest.takeWhile isDigit, rest.dropWhile isDigit)) = integer
      simp only
      split
      · split
        · exact .error
        · exact .ok (Nat.zero_le n)
      · exact .ok (Nat.zero_le n)

/-- One level of nesting. -/
theorem shallow_scanOnce_of_deeper {maxDigits depth : Nat}
    (hdeeper : ∀ d, depth = d + 1 → ∀ t, Shallow d (scanOnce maxDigits d t)) (t : Text) :
    Shallow depth (scanOnce maxDigits depth t) := by
  fun_cases scanOnce maxDigits depth t with
  | case1 => exact .error
  | case2 => exact .bind fun _ _ => .ok (Nat.zero_le _)
  | case3 => exact .error
  | case4 _ _ _ _ d => exact shallow_scanObject (hdeeper d rfl) _
  | case5 => exact .error
  | case6 _ _ _ _ _ d => exact shallow_scanArray (hdeeper d rfl) _
  | case7 _ c rest _ _ _ result hconstant => exact shallow_scanConstant hconstant
  | case8 => exact shallow_scanNumber _ _ _
  | case9 => exact shallow_scanNumber _ _ _

theorem shallow_scanOnce (maxDigits depth : Nat) (t : Text) :
    Shallow depth (scanOnce maxDigits depth t) := by
  induction depth generalizing t with
  | zero => exact shallow_scanOnce_of_deeper (fun d h => by cases h) t
  | succ depth ih =>
    refine shallow_scanOnce_of_deeper (fun d h => ?_) t
    cases h
    exact ih

/-- A decoded value nests no deeper than the interpreter recursed. -/
theorem depth_loads {maxDigits depth : Nat} {t : Text} {value : JsonValue}
    (h : loads maxDigits depth t = .ok value) : value.depth ≤ depth := by
  unfold loads at h
  split at h
  · cases h
  · obtain ⟨result, hscan, hend⟩ := bind_eq_ok.mp h
    simp only at hend
    split at hend
    · cases hend
      exact shallow_scanOnce maxDigits depth _ result.1 result.2 hscan
    · cases hend

end PythonJson
