import PumpResearch.Discovery.PumpPortalMessage
import PumpResearch.Library.Numerals

/-! Decoding the mint accounts of the two token programs, from the account objects of the RPC node.
Base64 and SHA-256 are those of the standard library. -/
namespace PumpResearch.Collection
open Discovery Numerals PythonJson Results Utf8

/-! ### Accounts -/

/-- The functions of the standard library that a decoded account passes through. -/
structure AccountCoding where
  b64decode : Text → Option (List UInt8)
  sha256 : List UInt8 → HexDigest

structure SolanaAccountResult where
  address : Text
  account : Option (List (Text × JsonValue))

inductive MintStatus where
  | unavailable
  | available
  | malformed
deriving DecidableEq, Repr

inductive TokenProgram where
  | splToken
  | token2022
deriving DecidableEq, Repr

structure ExtensionFact where
  typeId : Nat
  name : String
  length : Nat
  bodySha256 : HexDigest
deriving DecidableEq

/-- An account of no supported program has none. -/
structure DecodedMint where
  status : MintStatus
  accountOwner : Option Text := none
  tokenProgram : Option TokenProgram := none
  mintAuthority : Option Text := none
  freezeAuthority : Option Text := none
  rawSupply : Option Nat := none
  decimals : Option Nat := none
  isInitialized : Option Bool := none
  extensionTypes : Option (List ExtensionFact) := none
  rawAccountSha256 : Option HexDigest := none
  decodeError : Option String := none
deriving DecidableEq

def splTokenProgram : Text := text "TokenkegQfeZyiNwAJbNbGKPFXCWuBvf9Ss623VQ5DA"

def token2022Program : Text := text "TokenzQdBNbLqP5VEhdkAS6EPFLC1PHnBqCXEpPxuEb"

def programOf (owner : Text) : Option TokenProgram :=
  if owner = splTokenProgram then some .splToken
  else if owner = token2022Program then some .token2022
  else none

def extensionNames : List String :=
  ["uninitialized", "transfer_fee_config", "transfer_fee_amount", "mint_close_authority",
    "confidential_transfer_mint", "confidential_transfer_account", "default_account_state",
    "immutable_owner", "memo_transfer", "non_transferable", "interest_bearing_config", "cpi_guard",
    "permanent_delegate", "non_transferable_account", "transfer_hook", "transfer_hook_account",
    "confidential_transfer_fee_config", "confidential_transfer_fee_amount", "metadata_pointer",
    "token_metadata", "group_pointer", "token_group", "group_member_pointer",
    "token_group_member", "confidential_mint_burn", "scaled_ui_amount", "pausable",
    "pausable_account"]

/-! ### Keys -/

def b58Alphabet : Text := text "123456789ABCDEFGHJKLMNPQRSTUVWXYZabcdefghijkmnopqrstuvwxyz"

def b58Symbol (digit : Nat) : CodePoint := b58Alphabet.getD digit 0

/-- `_base58_encode`. -/
def base58Encode (value : List UInt8) : Text := encodeBytes 58 b58Symbol value

theorem base58Encode_injective : Function.Injective base58Encode := by
  apply encodeBytes_injective
  · decide
  · have hnodup : b58Alphabet.Nodup := by decide
    have hlength : b58Alphabet.length = 58 := by decide
    intro m hm n hn h
    rw [b58Symbol, b58Symbol, List.getD_eq_getElem _ _ (hlength ▸ hm),
      List.getD_eq_getElem _ _ (hlength ▸ hn)] at h
    exact (List.Nodup.getElem_inj_iff hnodup).mp h

/-! ### Decoding -/

/-- `raw[start:stop]`. -/
def slice (raw : List UInt8) (start stop : Nat) : List UInt8 := (raw.drop start).take (stop - start)

theorem slice_of_append (before part after : List UInt8) {raw : List UInt8} {start stop : Nat}
    (h : raw = before ++ part ++ after) (hstart : before.length = start)
    (hstop : before.length + part.length = stop) : slice raw start stop = part := by
  have hlength : stop - start = part.length := by omega
  rw [slice, h, List.append_assoc, ← hstart, List.drop_left, hstart, hlength, List.take_left]

theorem length_slice {raw : List UInt8} {start stop : Nat} (h : stop ≤ raw.length) :
    (slice raw start stop).length = stop - start := by
  rw [slice, List.length_take, List.length_drop]
  omega

/-- A slice and what follows it. -/
theorem slice_append_drop (raw : List UInt8) {start stop : Nat} (h : start ≤ stop) :
    slice raw start stop ++ raw.drop stop = raw.drop start := by
  have hsum : stop = start + (stop - start) := by omega
  conv_lhs => rw [slice, hsum, ← List.drop_drop]
  rw [← hsum]
  exact List.take_append_drop _ _

/-- `_coption_pubkey`. -/
def coptionPubkey (value : List UInt8) : Except String (Option Text) :=
  let tag := littleEndian (value.take 4)
  if tag = 0 then .ok none
  else if tag ≠ 1 then .error "mint authority option tag is invalid"
  else .ok (some (base58Encode (slice value 4 36)))

section Decode
variable (coding : AccountCoding)

def extensionFact (typeId : Nat) (body : List UInt8) : ExtensionFact where
  typeId := typeId
  name := extensionNames.getD typeId "unknown"
  length := body.length
  bodySha256 := coding.sha256 body

/-- The loop of `_token_2022_extensions`, from the bytes at its offset. -/
def extensionsFrom (tail : List UInt8) : Except String (List ExtensionFact) :=
  if tail.all (· = 0) then .ok []
  else if tail.length < 4 then .error "Token-2022 extension header is truncated"
  else
    let length := littleEndian (slice tail 2 4)
    if tail.length < 4 + length then .error "Token-2022 extension body is truncated"
    else do
      let types ← extensionsFrom (tail.drop (4 + length))
      return extensionFact coding (littleEndian (slice tail 0 2)) (slice tail 4 (4 + length)) ::
        types
termination_by tail.length
decreasing_by
  rw [List.length_drop]
  omega

/-- `_token_2022_extensions`. -/
def token2022Extensions (raw : List UInt8) : Except String (List ExtensionFact) :=
  if raw.length = 82 then .ok []
  else if raw.length < 166 then .error "Token-2022 mint extension header is truncated"
  else if raw.getD 165 0 ≠ 1 then .error "Token-2022 account type is not Mint"
  else extensionsFrom coding (raw.drop 166)

/-- Classic mints have no extensions. -/
def programExtensions (raw : List UInt8) : TokenProgram → Except String (List ExtensionFact)
  | .splToken => .ok []
  | .token2022 => token2022Extensions coding raw

/-- `_malformed`. -/
def malformed (owner : Option Text) (error : String) (rawSha256 : Option HexDigest)
    (program : Option TokenProgram) : DecodedMint where
  status := .malformed
  accountOwner := owner
  tokenProgram := program
  rawAccountSha256 := rawSha256
  decodeError := some error

/-- The fields of a mint account of 82 bytes or more. -/
def decodeFields (owner : Text) (program : TokenProgram) (raw : List UInt8) :
    Except String DecodedMint := do
  let mintAuthority ← coptionPubkey (slice raw 0 36)
  let freezeAuthority ← coptionPubkey (slice raw 46 82)
  let extensions ← programExtensions coding raw program
  return {
    status := .available
    accountOwner := some owner
    tokenProgram := some program
    mintAuthority := mintAuthority
    freezeAuthority := freezeAuthority
    rawSupply := some (littleEndian (slice raw 36 44))
    decimals := some (raw.getD 44 0).toNat
    isInitialized := some (raw.getD 45 0 ≠ 0)
    extensionTypes := some extensions
    rawAccountSha256 := some (coding.sha256 raw)
    decodeError := none }

/-- The base64 text of `[text, "base64"]`. -/
def base64Field : Option JsonValue → Option Text
  | some (.list [.str encoded, .str encoding]) =>
    if encoding = text "base64" then some encoded else none
  | _ => none

/-- `decode_mint_account`. -/
def decodeMintAccount (accountResult : SolanaAccountResult) : DecodedMint :=
  match accountResult.account with
  | none => { status := .unavailable }
  | some account =>
    match get? account "owner" with
    | some (.str owner) =>
      match base64Field (get? account "data") with
      | none => malformed (some owner) "account data is not [base64, 'base64']" none none
      | some encoded =>
        match coding.b64decode encoded with
        | none => malformed (some owner) "account data is invalid base64" none none
        | some raw =>
          let rawSha256 := some (coding.sha256 raw)
          match programOf owner with
          | none =>
            malformed (some owner) "account is not owned by a supported token program" rawSha256
              none
          | some program =>
            if raw.length < 82 then
              malformed (some owner) "mint account is shorter than 82 bytes" rawSha256
                (some program)
            else
              match decodeFields coding owner program raw with
              | .error error => malformed (some owner) error rawSha256 (some program)
              | .ok decoded => decoded
    | _ => malformed none "account owner is missing" none none

/-! ### Layouts -/

structure Extension where
  typeId : Nat
  body : List UInt8
  type_lt : typeId < 2 ^ 16
  length_lt : body.length < 2 ^ 16

/-- Type, length and body. -/
def Extension.encode (extension : Extension) : List UInt8 :=
  littleEndianBytes 2 extension.typeId ++ littleEndianBytes 2 extension.body.length ++
    extension.body

/-- Complete entries, and then zero bytes only. -/
def ExtensionTail (tail : List UInt8) : Prop :=
  ∃ (extensions : List Extension) (padding : Nat),
    tail = extensions.flatMap Extension.encode ++ List.replicate padding 0

/-- An option tag is zero or one. -/
def ValidOption (value : List UInt8) : Prop := littleEndian (value.take 4) ≤ 1

instance decidableValidOption (value : List UInt8) : Decidable (ValidOption value) :=
  inferInstanceAs (Decidable (_ ≤ _))

def ValidOptions (raw : List UInt8) : Prop :=
  ValidOption (slice raw 0 36) ∧ ValidOption (slice raw 46 82)

/-- The mint layout of a token program. -/
def HasMintLayout (raw : List UInt8) : TokenProgram → Prop
  | .splToken => raw.length = 82 ∧ ValidOptions raw
  | .token2022 => ValidOptions raw ∧ (raw.length = 82 ∨
      166 ≤ raw.length ∧ raw.getD 165 0 = 1 ∧ ExtensionTail (raw.drop 166))

theorem coptionPubkey_ok_iff (value : List UInt8) :
    (∃ key, coptionPubkey value = .ok key) ↔ ValidOption value := by
  unfold coptionPubkey ValidOption
  dsimp only
  split
  · next h => simp [h]
  · next h =>
    split
    · next hne =>
      constructor
      · intro hok
        obtain ⟨_, hok⟩ := hok
        cases hok
      · intro hle
        omega
    · next hone =>
      rw [not_not] at hone
      simp [hone]

section Tail
variable {tail : List UInt8}

theorem all_zero_iff : tail.all (· = 0) = true ↔ tail = List.replicate tail.length 0 := by
  rw [List.eq_replicate_iff]
  simp

/-- The parts of a tail whose head is a complete entry. -/
theorem slices_encode (extension : Extension) (rest : List UInt8) :
    littleEndian (slice (extension.encode ++ rest) 0 2) = extension.typeId ∧
    littleEndian (slice (extension.encode ++ rest) 2 4) = extension.body.length ∧
    slice (extension.encode ++ rest) 4 (4 + extension.body.length) = extension.body ∧
    (extension.encode ++ rest).drop (4 + extension.body.length) = rest ∧
    (extension.encode ++ rest).length = 4 + extension.body.length + rest.length := by
  have htype := length_littleEndianBytes 2 extension.typeId
  have hlength := length_littleEndianBytes 2 extension.body.length
  have hencode : extension.encode.length = 4 + extension.body.length := by
    rw [Extension.encode, List.length_append, List.length_append, htype, hlength]
  have htypePart : slice (extension.encode ++ rest) 0 2 = littleEndianBytes 2 extension.typeId :=
    slice_of_append [] _ (littleEndianBytes 2 extension.body.length ++ extension.body ++ rest)
      (by simp [Extension.encode]) rfl (by simp)
  have hlengthPart : slice (extension.encode ++ rest) 2 4 =
      littleEndianBytes 2 extension.body.length :=
    slice_of_append (littleEndianBytes 2 extension.typeId) _ (extension.body ++ rest)
      (by simp [Extension.encode]) htype (by simp)
  refine ⟨?_, ?_, ?_, ?_, ?_⟩
  · rw [htypePart]
    exact littleEndian_bytes extension.type_lt
  · rw [hlengthPart]
    exact littleEndian_bytes extension.length_lt
  · exact slice_of_append (littleEndianBytes 2 extension.typeId ++
      littleEndianBytes 2 extension.body.length) _ rest (by simp [Extension.encode]) (by simp)
      (by simp)
  · rw [← hencode, List.drop_left]
  · rw [List.length_append, hencode]

/-- A tail that is as long as its header says begins with a complete entry. -/
theorem exists_encode (hlength : 4 + littleEndian (slice tail 2 4) ≤ tail.length) :
    ∃ extension : Extension, tail =
      extension.encode ++ tail.drop (4 + littleEndian (slice tail 2 4)) := by
  have htype : (slice tail 0 2).length = 2 := length_slice (by omega)
  have hheader : (slice tail 2 4).length = 2 := length_slice (by omega)
  have hbody : (slice tail 4 (4 + littleEndian (slice tail 2 4))).length =
      littleEndian (slice tail 2 4) := by
    rw [length_slice hlength]
    omega
  have hlt (bytes : List UInt8) (h : bytes.length = 2) : littleEndian bytes < 2 ^ 16 := by
    have hbound := littleEndian_lt bytes
    rw [h] at hbound
    omega
  refine ⟨⟨littleEndian (slice tail 0 2), slice tail 4 (4 + littleEndian (slice tail 2 4)),
    hlt _ htype, hbody.trans_lt (hlt _ hheader)⟩, ?_⟩
  have hfirst := littleEndianBytes_littleEndian (slice tail 0 2)
  have hsecond := littleEndianBytes_littleEndian (slice tail 2 4)
  rw [htype] at hfirst
  rw [hheader] at hsecond
  rw [Extension.encode]
  dsimp only
  rw [hbody, hfirst, hsecond, List.append_assoc, List.append_assoc,
    slice_append_drop tail (by omega), slice_append_drop tail (by omega),
    slice_append_drop tail (by omega), List.drop_zero]

/-- The loop accepts exactly the complete entries before zero bytes. -/
theorem extensionsFrom_ok_iff :
    (∃ types, extensionsFrom coding tail = .ok types) ↔ ExtensionTail tail := by
  constructor
  · intro h
    obtain ⟨types, htypes⟩ := h
    induction tail using extensionsFrom.induct generalizing types with
    | case1 tail hzero => exact ⟨[], tail.length, by simpa using all_zero_iff.mp hzero⟩
    | case2 tail hzero hshort =>
      rw [extensionsFrom, if_neg hzero, if_pos hshort] at htypes
      cases htypes
    | case3 tail hzero hshort length hbody =>
      rw [extensionsFrom, if_neg hzero, if_neg hshort] at htypes
      dsimp only at htypes
      rw [if_pos hbody] at htypes
      cases htypes
    | case4 tail hzero hshort length hbody ih =>
      rw [extensionsFrom, if_neg hzero, if_neg hshort] at htypes
      dsimp only at htypes
      rw [if_neg hbody, bind_eq_ok] at htypes
      obtain ⟨rest, hrest, _⟩ := htypes
      obtain ⟨extensions, padding, htail⟩ := ih rest hrest
      obtain ⟨extension, hentry⟩ := exists_encode (not_lt.mp hbody)
      exact ⟨extension :: extensions, padding, by
        rw [List.flatMap_cons, List.append_assoc, ← htail]
        exact hentry⟩
  · intro h
    obtain ⟨extensions, padding, htail⟩ := h
    induction extensions generalizing tail with
    | nil =>
      refine ⟨[], ?_⟩
      rw [extensionsFrom, if_pos (by simp [htail])]
    | cons extension extensions ih =>
      by_cases hzero : tail.all (· = 0) = true
      · exact ⟨[], by rw [extensionsFrom, if_pos hzero]⟩
      · rw [List.flatMap_cons, List.append_assoc] at htail
        obtain ⟨htype, hlength, hbody, hdrop, htotal⟩ := slices_encode extension
          (extensions.flatMap Extension.encode ++ List.replicate padding 0)
        obtain ⟨types, htypes⟩ := ih rfl
        rw [← htail] at htype hlength hbody hdrop htotal
        refine ⟨extensionFact coding extension.typeId extension.body :: types, ?_⟩
        rw [extensionsFrom, if_neg hzero, if_neg (by omega)]
        dsimp only
        rw [hlength, if_neg (by omega), hdrop, htypes, ok_bind, htype, hbody]
        rfl

end Tail

end Decode
end PumpResearch.Collection
