import PumpResearch.Collection.MintDecoding

/-! The layouts that the token programs write, and their round trip through the decoder. -/
namespace PumpResearch.Collection
open Discovery Numerals PythonJson Results Utf8

/-! ### Encoding -/

/-- A public key. -/
structure Pubkey where
  bytes : List UInt8
  length_eq : bytes.length = 32

structure MintAccount where
  mintAuthority : Option Pubkey
  supply : Nat
  decimals : UInt8
  isInitialized : Bool
  freezeAuthority : Option Pubkey
  supply_lt : supply < 2 ^ 64

/-- A tag of four bytes, and the key or zeros. -/
def encodeOption : Option Pubkey → List UInt8
  | none => littleEndianBytes 4 0 ++ List.replicate 32 0
  | some key => littleEndianBytes 4 1 ++ key.bytes

/-- The 82 bytes of a mint. -/
def MintAccount.encode (mint : MintAccount) : List UInt8 :=
  encodeOption mint.mintAuthority ++ littleEndianBytes 8 mint.supply ++
    [mint.decimals, if mint.isInitialized then 1 else 0] ++ encodeOption mint.freezeAuthority

/-- A mint alone, or one of Token-2022 with its extensions and the zero bytes after them. -/
inductive MintForm where
  | base (program : TokenProgram)
  | extended (extensions : List Extension) (padding : Nat)

def MintForm.program : MintForm → TokenProgram
  | .base program => program
  | .extended _ _ => .token2022

def MintForm.extensions : MintForm → List Extension
  | .base _ => []
  | .extended extensions _ => extensions

/-- Extensions start after the length of a token account and the byte of the account type. -/
def MintAccount.encodeAs (mint : MintAccount) : MintForm → List UInt8
  | .base _ => mint.encode
  | .extended extensions padding =>
    mint.encode ++ (List.replicate 83 0 ++ 1 :: (extensions.flatMap Extension.encode ++
      List.replicate padding 0))

/-! ### Parts -/

theorem length_encodeOption (key : Option Pubkey) : (encodeOption key).length = 36 := by
  cases key with
  | none => simp [encodeOption]
  | some key => simp [encodeOption, key.length_eq]

theorem length_encode (mint : MintAccount) : mint.encode.length = 82 := by
  simp [MintAccount.encode, length_encodeOption]

theorem coptionPubkey_encodeOption (key : Option Pubkey) :
    coptionPubkey (encodeOption key) = .ok (key.map fun key => base58Encode key.bytes) := by
  have htag (tag : Nat) (htag : tag < 2 ^ 32) (rest : List UInt8) :
      littleEndian ((littleEndianBytes 4 tag ++ rest).take 4) = tag := by
    rw [List.take_left' (length_littleEndianBytes 4 tag)]
    exact littleEndian_bytes htag
  cases key with
  | none =>
    rw [encodeOption, coptionPubkey, htag 0 (by decide), if_pos rfl]
    rfl
  | some key =>
    have hkey : slice (littleEndianBytes 4 1 ++ key.bytes) 4 36 = key.bytes :=
      slice_of_append (littleEndianBytes 4 1) _ [] (by simp) (by simp) (by simp [key.length_eq])
    rw [encodeOption, coptionPubkey, htag 1 (by decide), if_neg (by decide), if_neg (by decide),
      hkey]
    rfl

section Fields
variable (mint : MintAccount) (rest : List UInt8)

theorem slice_mintAuthority :
    slice (mint.encode ++ rest) 0 36 = encodeOption mint.mintAuthority :=
  slice_of_append [] _ (littleEndianBytes 8 mint.supply ++
    [mint.decimals, if mint.isInitialized then 1 else 0] ++ encodeOption mint.freezeAuthority ++
      rest) (by simp [MintAccount.encode]) rfl (by simp [length_encodeOption])

theorem slice_supply :
    slice (mint.encode ++ rest) 36 44 = littleEndianBytes 8 mint.supply :=
  slice_of_append (encodeOption mint.mintAuthority) _
    ([mint.decimals, if mint.isInitialized then 1 else 0] ++ encodeOption mint.freezeAuthority ++
      rest) (by simp [MintAccount.encode]) (length_encodeOption _) (by simp [length_encodeOption])

theorem slice_freezeAuthority :
    slice (mint.encode ++ rest) 46 82 = encodeOption mint.freezeAuthority :=
  slice_of_append (encodeOption mint.mintAuthority ++ littleEndianBytes 8 mint.supply ++
    [mint.decimals, if mint.isInitialized then 1 else 0]) _ rest (by simp [MintAccount.encode])
    (by simp [length_encodeOption]) (by simp [length_encodeOption])

theorem getD_flags : (mint.encode ++ rest).getD 44 0 = mint.decimals ∧
    (mint.encode ++ rest).getD 45 0 = if mint.isInitialized then 1 else 0 := by
  have hsplit : mint.encode ++ rest =
      (encodeOption mint.mintAuthority ++ littleEndianBytes 8 mint.supply) ++
        (mint.decimals :: (if mint.isInitialized then 1 else 0) ::
          (encodeOption mint.freezeAuthority ++ rest)) := by
    simp [MintAccount.encode]
  have hlength : (encodeOption mint.mintAuthority ++ littleEndianBytes 8 mint.supply).length =
      44 := by
    simp [length_encodeOption]
  rw [hsplit, List.getD_append_right _ _ _ _ (by omega), List.getD_append_right _ _ _ _ (by omega),
    hlength]
  exact ⟨rfl, rfl⟩

end Fields

section Extensions
variable (coding : AccountCoding)

/-- Entries of a type are not taken for the zero bytes at the end. -/
theorem extensionsFrom_encode {extensions : List Extension} (padding : Nat)
    (htypes : ∀ extension ∈ extensions, extension.typeId ≠ 0) :
    extensionsFrom coding (extensions.flatMap Extension.encode ++ List.replicate padding 0) =
      .ok (extensions.map fun extension => extensionFact coding extension.typeId
        extension.body) := by
  induction extensions with
  | nil =>
    rw [extensionsFrom, if_pos (by simp)]
    rfl
  | cons extension extensions ih =>
    have hrest := ih fun other hother => htypes other (by simp [hother])
    rw [List.flatMap_cons, List.append_assoc]
    obtain ⟨htype, hlength, hbody, hdrop, htotal⟩ := slices_encode extension
      (extensions.flatMap Extension.encode ++ List.replicate padding 0)
    have hzero : ¬ (extension.encode ++ (extensions.flatMap Extension.encode ++
        List.replicate padding 0)).all (· = 0) = true := by
      intro hall
      rw [all_zero_iff.mp hall, slice] at htype
      refine htypes extension (by simp) ?_
      rw [← htype]
      simp [littleEndian]
    rw [extensionsFrom, if_neg hzero, if_neg (by omega)]
    dsimp only
    rw [hlength, if_neg (by omega), hdrop, hrest, ok_bind, htype, hbody]
    rfl

/-- The extensions of any form. -/
theorem programExtensions_encodeAs (mint : MintAccount) (form : MintForm)
    (htypes : ∀ extension ∈ form.extensions, extension.typeId ≠ 0) :
    programExtensions coding (mint.encodeAs form) form.program =
      .ok (form.extensions.map fun extension => extensionFact coding extension.typeId
        extension.body) := by
  cases form with
  | base program =>
    cases program with
    | splToken => rfl
    | token2022 =>
      show token2022Extensions coding mint.encode = .ok []
      rw [token2022Extensions, if_pos (length_encode mint)]
  | extended extensions padding =>
    have hlength := length_encode mint
    have hprefix : (mint.encode ++ List.replicate 83 (0 : UInt8)).length = 165 := by
      rw [List.length_append, List.length_replicate, hlength]
    have hsplit : mint.encodeAs (.extended extensions padding) =
        (mint.encode ++ List.replicate 83 0) ++ 1 :: (extensions.flatMap Extension.encode ++
          List.replicate padding 0) := by
      rw [MintAccount.encodeAs, List.append_assoc]
    have htype : (mint.encodeAs (.extended extensions padding)).getD 165 0 = 1 := by
      rw [hsplit, List.getD_append_right _ _ _ _ (by omega), hprefix]
      rfl
    have htail : (mint.encodeAs (.extended extensions padding)).drop 166 =
        extensions.flatMap Extension.encode ++ List.replicate padding 0 := by
      have hdrop : 166 = (mint.encode ++ List.replicate 83 (0 : UInt8)).length + 1 := by omega
      rw [hsplit, hdrop, List.drop_length_add_append]
      rfl
    have htotal : 166 ≤ (mint.encodeAs (.extended extensions padding)).length := by
      rw [hsplit, List.length_append, List.length_cons]
      omega
    show token2022Extensions coding _ = _
    rw [token2022Extensions, if_neg (by omega), if_neg (by omega), if_neg (by rw [htype]; decide),
      htail]
    exact extensionsFrom_encode coding padding htypes

end Extensions

/-! ### The round trip -/

/-- What the decoder says of a mint. -/
def decodedMint (coding : AccountCoding) (owner : Text) (mint : MintAccount) (form : MintForm) :
    DecodedMint where
  status := .available
  accountOwner := some owner
  tokenProgram := some form.program
  mintAuthority := mint.mintAuthority.map fun key => base58Encode key.bytes
  freezeAuthority := mint.freezeAuthority.map fun key => base58Encode key.bytes
  rawSupply := some mint.supply
  decimals := some mint.decimals.toNat
  isInitialized := some mint.isInitialized
  extensionTypes := some (form.extensions.map fun extension => extensionFact coding extension.typeId
    extension.body)
  rawAccountSha256 := some (coding.sha256 (mint.encodeAs form))

theorem encodeAs_eq (mint : MintAccount) (form : MintForm) :
    ∃ rest, mint.encodeAs form = mint.encode ++ rest := by
  cases form with
  | base program => exact ⟨[], (List.append_nil _).symm⟩
  | extended extensions padding => exact ⟨_, rfl⟩

theorem decodeFields_encodeAs (coding : AccountCoding) (owner : Text) (mint : MintAccount)
    (form : MintForm) (htypes : ∀ extension ∈ form.extensions, extension.typeId ≠ 0) :
    decodeFields coding owner form.program (mint.encodeAs form) =
      .ok (decodedMint coding owner mint form) := by
  have hextensions := programExtensions_encodeAs coding mint form htypes
  rw [decodeFields, hextensions]
  obtain ⟨rest, hrest⟩ := encodeAs_eq mint form
  obtain ⟨hdecimals, hinitialized⟩ := getD_flags mint rest
  have hflag : decide ((if mint.isInitialized then (1 : UInt8) else 0) ≠ 0) =
      mint.isInitialized := by
    cases mint.isInitialized with
    | true => rfl
    | false => rfl
  have hsupply : littleEndian (littleEndianBytes 8 mint.supply) = mint.supply :=
    littleEndian_bytes mint.supply_lt
  rw [hrest, slice_mintAuthority, slice_freezeAuthority, slice_supply, hdecimals, hinitialized,
    coptionPubkey_encodeOption, coptionPubkey_encodeOption, hflag, hsupply, ← hrest]
  rfl

/-- Decoding undoes encoding, and the keys that it shows are those of the account. -/
theorem mint_decoding_undoes_encoding (coding : AccountCoding) (mint : MintAccount)
    (form : MintForm) (htypes : ∀ extension ∈ form.extensions, extension.typeId ≠ 0)
    (accountResult : SolanaAccountResult) (owner : Text)
    (howner : programOf owner = some form.program)
    (hcarries : Carries coding accountResult owner (mint.encodeAs form)) :
    decodeMintAccount coding accountResult = decodedMint coding owner mint form ∧
      Function.Injective fun key : Pubkey => base58Encode key.bytes := by
  constructor
  · obtain ⟨rest, hrest⟩ := encodeAs_eq mint form
    have hlength : ¬ (mint.encodeAs form).length < 82 := by
      rw [hrest, List.length_append, length_encode]
      omega
    rw [decode_of_carries hcarries howner, if_neg hlength,
      decodeFields_encodeAs coding owner mint form htypes]
  · intro key key' h
    have hbytes := base58Encode_injective h
    cases key
    cases key'
    cases hbytes
    rfl

/-- Five raw units, six decimals, and a closed authority of two bytes before two zero bytes. -/
def closableMint : MintAccount := ⟨none, 5, 6, true, none, by decide⟩

def closableForm : MintForm := .extended [⟨3, [1, 2], by decide, by decide⟩] 2

def closableText : Text :=
  text "AAAAAAAAAAAAAAAAAAAAAAAAAAAAAAAAAAAAAAAAAAAAAAAABQAAAAAAAAAGAQAAAAAAAAAAAAAA" ++
    text "AAAAAAAAAAAAAAAAAAAAAAAAAAAAAAAAAAAAAAAAAAAAAAAAAAAAAAAAAAAAAAAAAAAAAAAAAAAA" ++
    text "AAAAAAAAAAAAAAAAAAAAAAAAAAAAAAAAAAAAAAAAAAAAAAAAAAAAAAAAAAAAAAAAAAAAAQMAAgAB" ++
    text "AgAA"

/-- Base64 of this account, and one digest for everything. -/
def closableCoding : AccountCoding where
  b64decode encoded :=
    if encoded = closableText then some (closableMint.encodeAs closableForm) else none
  sha256 := zeroCoding.sha256

def closableAccount : SolanaAccountResult where
  address := text "mint"
  account := some [(text "owner", .str token2022Program),
    (text "data", .list [.str closableText, .str (text "base64")])]

theorem closable_mint_round_trip :
    decodeMintAccount closableCoding closableAccount =
        decodedMint closableCoding token2022Program closableMint closableForm ∧
      Function.Injective fun key : Pubkey => base58Encode key.bytes := by
  apply mint_decoding_undoes_encoding closableCoding closableMint closableForm
  · decide
  · rfl
  · exact ⟨_, closableText, rfl, rfl, base64Field_list _, by simp only [closableCoding, if_true]⟩

end PumpResearch.Collection
