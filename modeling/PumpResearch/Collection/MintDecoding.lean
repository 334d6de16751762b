import PumpResearch.Collection.MintAccounts

/-! What mint decoding accepts, and what it reads back of an encoded mint. -/
namespace PumpResearch.Collection
open Discovery Numerals PythonJson Results Utf8

section Decoding
variable {coding : AccountCoding} {accountResult : SolanaAccountResult} {owner : Text}
  {raw : List UInt8} {program : TokenProgram}

/-- The account of an owner, with its data in base64. -/
def Carries (coding : AccountCoding) (accountResult : SolanaAccountResult) (owner : Text)
    (raw : List UInt8) : Prop :=
  ∃ account encoded, accountResult.account = some account ∧
    get? account "owner" = some (.str owner) ∧
    base64Field (get? account "data") = some encoded ∧ coding.b64decode encoded = some raw

/-! ### Acceptance -/

theorem Carries.unique {owner' : Text} {raw' : List UInt8}
    (h : Carries coding accountResult owner raw) (h' : Carries coding accountResult owner' raw') :
    owner = owner' ∧ raw = raw' := by
  obtain ⟨account, encoded, haccount, howner, hfield, hraw⟩ := h
  obtain ⟨account', encoded', haccount', howner', hfield', hraw'⟩ := h'
  rw [haccount, Option.some.injEq] at haccount'
  subst haccount'
  rw [howner, Option.some.injEq, JsonValue.str.injEq] at howner'
  rw [hfield, Option.some.injEq] at hfield'
  subst hfield'
  rw [hraw, Option.some.injEq] at hraw'
  exact ⟨howner', hraw'⟩

/-- The decoder on an account of a supported program. -/
theorem decode_of_carries (h : Carries coding accountResult owner raw)
    (hprogram : programOf owner = some program) :
    decodeMintAccount coding accountResult =
      if raw.length < 82 then malformed (some owner) "mint account is shorter than 82 bytes"
        (some (coding.sha256 raw)) (some program)
      else
        match decodeFields coding owner program raw with
        | .error error => malformed (some owner) error (some (coding.sha256 raw)) (some program)
        | .ok decoded => decoded := by
  obtain ⟨account, encoded, haccount, howner, hfield, hraw⟩ := h
  simp only [decodeMintAccount, haccount, howner, hfield, hraw, hprogram]
  all_goals rfl

/-- Only an account of a supported program is read as a mint. -/
theorem carries_of_available (h : (decodeMintAccount coding accountResult).status = .available) :
    ∃ owner raw program, Carries coding accountResult owner raw ∧
      programOf owner = some program := by
  unfold decodeMintAccount at h
  split at h
  · cases h
  · next account haccount =>
    split at h
    · next owner howner =>
      split at h
      · cases h
      · next encoded hfield =>
        split at h
        · cases h
        · next raw hraw =>
          dsimp only at h
          split at h
          · cases h
          · next program hprogram =>
            exact ⟨owner, raw, program, ⟨account, encoded, haccount, howner, hfield, hraw⟩, hprogram⟩
    · cases h

theorem decodeFields_ok_iff : (∃ decoded, decodeFields coding owner program raw = .ok decoded) ↔
    ValidOptions raw ∧
      (program = .token2022 → ∃ types, token2022Extensions coding raw = .ok types) := by
  rw [ValidOptions, ← coptionPubkey_ok_iff, ← coptionPubkey_ok_iff]
  simp only [decodeFields, bind_eq_ok, pure_eq_ok]
  constructor
  · intro h
    obtain ⟨decoded, mint, hmint, freeze, hfreeze, extensions, hextensions, _⟩ := h
    refine ⟨⟨⟨mint, hmint⟩, ⟨freeze, hfreeze⟩⟩, fun hprogram => ?_⟩
    subst hprogram
    exact ⟨extensions, hextensions⟩
  · intro h
    obtain ⟨⟨⟨mint, hmint⟩, freeze, hfreeze⟩, hextensions⟩ := h
    cases program with
    | splToken => exact ⟨_, mint, hmint, freeze, hfreeze, [], rfl, rfl⟩
    | token2022 =>
      obtain ⟨types, htypes⟩ := hextensions rfl
      exact ⟨_, mint, hmint, freeze, hfreeze, types, htypes, rfl⟩

theorem status_of_decodeFields {decoded : DecodedMint}
    (h : decodeFields coding owner program raw = .ok decoded) : decoded.status = .available := by
  simp only [decodeFields, bind_eq_ok, pure_eq_ok] at h
  obtain ⟨_, _, _, _, _, _, rfl⟩ := h
  rfl

theorem token2022Extensions_ok_iff : (∃ types, token2022Extensions coding raw = .ok types) ↔
    raw.length = 82 ∨ 166 ≤ raw.length ∧ raw.getD 165 0 = 1 ∧ ExtensionTail (raw.drop 166) := by
  unfold token2022Extensions
  split
  · next h => simp [h]
  · next h =>
    split
    · next hshort =>
      constructor
      · intro hok
        obtain ⟨_, hok⟩ := hok
        cases hok
      · omega
    · next hlong =>
      split
      · next htype =>
        constructor
        · intro hok
          obtain ⟨_, hok⟩ := hok
          cases hok
        · intro hor
          obtain hlength | ⟨_, hone, _⟩ := hor
          · exact absurd hlength h
          · exact absurd hone htype
      · next htype =>
        rw [not_not] at htype
        rw [extensionsFrom_ok_iff]
        constructor
        · exact fun htail => .inr ⟨by omega, htype, htail⟩
        · intro hor
          obtain hlength | ⟨_, _, htail⟩ := hor
          · exact absurd hlength h
          · exact htail

/-- An account of a supported program is available under the layout of its program, but for the
length of a classic one. -/
theorem available_iff_of_carries (h : Carries coding accountResult owner raw)
    (hprogram : programOf owner = some program) :
    (decodeMintAccount coding accountResult).status = .available ↔
      82 ≤ raw.length ∧ ValidOptions raw ∧ (program = .token2022 → raw.length = 82 ∨
        166 ≤ raw.length ∧ raw.getD 165 0 = 1 ∧ ExtensionTail (raw.drop 166)) := by
  have hfields : (∃ decoded, decodeFields coding owner program raw = .ok decoded) ↔ _ :=
    decodeFields_ok_iff
  rw [token2022Extensions_ok_iff] at hfields
  rw [decode_of_carries h hprogram]
  split
  · next hshort =>
    constructor
    · intro hstatus
      cases hstatus
    · omega
  · next hlong =>
    cases hdecoded : decodeFields coding owner program raw with
    | error error =>
      constructor
      · intro hstatus
        cases hstatus
      · intro hlayout
        obtain ⟨decoded, hok⟩ := hfields.mpr hlayout.2
        rw [hdecoded] at hok
        cases hok
    | ok decoded =>
      have hlayout := hfields.mp ⟨decoded, hdecoded⟩
      exact ⟨fun _ => ⟨by omega, hlayout⟩, fun _ => status_of_decodeFields hdecoded⟩

/-- The account is one of a mint. -/
def IsMintAccount (coding : AccountCoding) (accountResult : SolanaAccountResult) : Prop :=
  ∃ owner raw program, Carries coding accountResult owner raw ∧ programOf owner = some program ∧
    HasMintLayout raw program

/-- Available exactly when it is a mint, and malformed when it is another account of the
programs. -/
structure DecodesMintsOnly (coding : AccountCoding) (accountResult : SolanaAccountResult) :
    Prop where
  available : (decodeMintAccount coding accountResult).status = .available ↔
    IsMintAccount coding accountResult
  others : ∀ owner raw program, Carries coding accountResult owner raw →
    programOf owner = some program → ¬ HasMintLayout raw program →
      (decodeMintAccount coding accountResult).status = .malformed

/-- A classic account that is longer than a mint, with option tags where a mint has them. -/
def OversizedClassic (coding : AccountCoding) (accountResult : SolanaAccountResult) : Prop :=
  ∃ owner raw, Carries coding accountResult owner raw ∧ programOf owner = some .splToken ∧
    82 < raw.length ∧ ValidOptions raw

/-- The layout of a program, less the length of classic accounts. -/
theorem hasMintLayout_iff : HasMintLayout raw program ↔
    (82 ≤ raw.length ∧ ValidOptions raw ∧ (program = .token2022 → raw.length = 82 ∨
      166 ≤ raw.length ∧ raw.getD 165 0 = 1 ∧ ExtensionTail (raw.drop 166))) ∧
    ¬ (program = .splToken ∧ 82 < raw.length ∧ ValidOptions raw) := by
  cases program with
  | splToken =>
    simp only [HasMintLayout, reduceCtorEq, false_implies, and_true, true_and]
    constructor
    · exact fun h => ⟨⟨by omega, h.2⟩, fun hlong => by omega⟩
    · intro h
      refine ⟨?_, h.1.2⟩
      by_contra hne
      exact h.2 ⟨by omega, h.1.2⟩
  | token2022 =>
    simp only [HasMintLayout, reduceCtorEq, false_and, not_false_iff, and_true, true_implies]
    constructor
    · intro h
      obtain ⟨hoptions, hor⟩ := h
      refine ⟨?_, hoptions, hor⟩
      obtain hlength | ⟨hlength, _⟩ := hor
      · omega
      · omega
    · exact fun h => h.2

/-- The decoder takes only mints for mints, but for oversized classic accounts. -/
theorem decodes_mints_only_iff (coding : AccountCoding) (accountResult : SolanaAccountResult) :
    DecodesMintsOnly coding accountResult ↔ ¬ OversizedClassic coding accountResult := by
  constructor
  · intro h hoversized
    obtain ⟨owner, raw, hcarries, hprogram, hlong, hoptions⟩ := hoversized
    have havailable := (available_iff_of_carries hcarries hprogram).mpr
      ⟨by omega, hoptions, fun h => by cases h⟩
    obtain ⟨owner', raw', program', hcarries', hprogram', hlayout⟩ := h.available.mp havailable
    obtain ⟨rfl, rfl⟩ := hcarries.unique hcarries'
    rw [hprogram, Option.some.injEq] at hprogram'
    subst hprogram'
    exact absurd hlayout.1 (by omega)
  · intro hsized
    have hlayout {owner : Text} {raw : List UInt8} {program : TokenProgram}
        (hcarries : Carries coding accountResult owner raw)
        (hprogram : programOf owner = some program) :
        (decodeMintAccount coding accountResult).status = .available ↔
          HasMintLayout raw program := by
      rw [available_iff_of_carries hcarries hprogram, hasMintLayout_iff]
      refine (and_iff_left ?_).symm
      intro hbad
      exact hsized ⟨owner, raw, hcarries, hbad.1 ▸ hprogram, hbad.2⟩
    constructor
    · constructor
      · intro havailable
        obtain ⟨owner, raw, program, hcarries, hprogram⟩ := carries_of_available havailable
        exact ⟨owner, raw, program, hcarries, hprogram, (hlayout hcarries hprogram).mp havailable⟩
      · intro hmint
        obtain ⟨owner, raw, program, hcarries, hprogram, hmintLayout⟩ := hmint
        exact (hlayout hcarries hprogram).mpr hmintLayout
    · intro owner raw program hcarries hprogram hother
      have hnot := mt (hlayout hcarries hprogram).mp hother
      rw [decode_of_carries hcarries hprogram] at hnot ⊢
      split
      · rfl
      · next hlong =>
        rw [if_neg hlong] at hnot
        cases hdecoded : decodeFields coding owner program raw with
        | error error => rfl
        | ok decoded =>
          rw [hdecoded] at hnot
          exact absurd (status_of_decodeFields hdecoded) hnot

theorem base64Field_list (encoded : Text) :
    base64Field (some (.list [.str encoded, .str (text "base64")])) = some encoded := by
  simp [base64Field]

/-- Base64 of zero bytes only, and one digest for everything. -/
def zeroCoding : AccountCoding where
  b64decode encoded :=
    if encoded = List.replicate 220 (Fin.ofNat 0x110000 65) then some (List.replicate 165 0)
    else none
  sha256 _ := hexDigest "0000000000000000000000000000000000000000000000000000000000000000"
    (by decide) (by decide)

theorem b64decode_zeros : zeroCoding.b64decode (List.replicate 220 (Fin.ofNat 0x110000 65)) =
    some (List.replicate 165 0) := by
  simp only [zeroCoding, if_true]

/-- A token account that has been allocated and not initialized. -/
def uninitializedTokenAccount : SolanaAccountResult where
  address := text "account"
  account := some [(text "owner", .str splTokenProgram),
    (text "data", .list [.str (List.replicate 220 (Fin.ofNat 0x110000 65)), .str (text "base64")])]

theorem token_account_decoded_as_mint : ¬ DecodesMintsOnly zeroCoding uninitializedTokenAccount := by
  intro h
  have hcarries : Carries zeroCoding uninitializedTokenAccount splTokenProgram
      (List.replicate 165 0) :=
    ⟨_, List.replicate 220 (Fin.ofNat 0x110000 65), rfl, rfl, base64Field_list _,
      b64decode_zeros⟩
  have havailable : (decodeMintAccount zeroCoding uninitializedTokenAccount).status =
      .available := by decide +kernel
  have hmalformed := h.others _ _ _ hcarries rfl fun hlayout => by
    have hlength := hlayout.1
    rw [List.length_replicate] at hlength
    omega
  rw [havailable] at hmalformed
  cases hmalformed

end Decoding
end PumpResearch.Collection
