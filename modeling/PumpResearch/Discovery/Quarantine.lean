import PumpResearch.Discovery.PumpPortalMessage

/-! Quarantine: which messages are rejected and why, what is kept of them, and which receipts
count as the same one. -/
namespace PumpResearch.Discovery
open Utf8 PythonJson PythonText Results

/-- The message that a quarantine record keeps. -/
def RejectedDiscoveryMessage.recover (event : RejectedDiscoveryMessage) : Option RawMessage :=
  if event.messageEncoding = text "binary" then some (.binary event.rawMessage)
  else if event.messageEncoding = text "utf8-surrogatepass" then
    (decode true event.rawMessage).map .text
  else none

/-- Quarantine of one message that decodes to an object. -/
structure QuarantinedExactly (py : Python) (raw : RawMessage) (receivedAt : Int)
    (payload : List (Text × JsonValue)) : Prop where
  quarantined_iff : (∃ event, parseNewTokenMessage py raw receivedAt =
    .error (.unsafePayload event)) ↔ ∃ s ∈ (JsonValue.dict payload).strings, ¬ Storable s
  reason_iff : ∀ event, parseNewTokenMessage py raw receivedAt = .error (.unsafePayload event) →
    (event.reasonCode = "postgresql_nul_string" ↔
      ∃ s ∈ (JsonValue.dict payload).strings, hasNul s = true)
  recoverable : ∀ event, parseNewTokenMessage py raw receivedAt = .error (.unsafePayload event) →
    event.recover = some raw
  safe : ∀ token, parseNewTokenMessage py raw receivedAt = .ok (some token) →
    Storable token.address ∧ (∀ eventId ∈ token.sourceEventId, Storable eventId) ∧
      ∀ s ∈ (JsonValue.dict token.sourcePayload).strings, Storable s
  nothing_else : (∃ s ∈ (JsonValue.dict payload).strings, ¬ Storable s) →
    ∀ result, parseNewTokenMessage py raw receivedAt ≠ .ok result

/-- Two inputs of SHA-256 do not collide. -/
def NoCollision (py : Python) (a b : List UInt8) : Prop := py.sha256 a = py.sha256 b → a = b

section OneMessage
variable {py : Python} {raw raw' : RawMessage} {receivedAt : Int}
  {payload : List (Text × JsonValue)}

/-- What was kept of a message gives it back. -/
theorem recover_rejectedMessage (reason : String) :
    (rejectedMessage py raw receivedAt reason).recover = some raw := by
  cases raw with
  | text message =>
    have hother : text "utf8-surrogatepass" ≠ text "binary" := by decide
    simp only [RejectedDiscoveryMessage.recover, rejectedMessage, RawMessage.encoding,
      RawMessage.rawBytes, if_neg hother, if_true, decode_encode, Option.map_some]
  | binary bytes => rfl

theorem quarantined_exactly (h : Decodes py raw payload) :
    QuarantinedExactly py raw receivedAt payload := by
  have hevent : ∀ event, parseNewTokenMessage py raw receivedAt = .error (.unsafePayload event) →
      ∃ reason, postgresJsonStringFailure (.dict payload) = some reason ∧
        event = rejectedMessage py raw receivedAt reason := by
    intro event hparse
    obtain ⟨payload', reason, hdecodes, hreason, heq⟩ := parse_eq_unsafe hparse
    rw [h.unique hdecodes]
    exact ⟨reason, hreason, heq⟩
  have hrejected : (∃ s ∈ (JsonValue.dict payload).strings, ¬ Storable s) ↔
      postgresJsonStringFailure (.dict payload) ≠ none := by
    rw [Ne, postgresJsonStringFailure_eq_none_iff]
    push Not
    rfl
  have hparse : (∃ s ∈ (JsonValue.dict payload).strings, ¬ Storable s) →
      ∃ event, parseNewTokenMessage py raw receivedAt = .error (.unsafePayload event) := by
    intro hstrings
    obtain ⟨reason, hreason⟩ := Option.ne_none_iff_exists'.mp (hrejected.mp hstrings)
    exact ⟨_, parse_of_decodes h hreason⟩
  refine ⟨⟨fun hexists => ?_, hparse⟩, fun event hparsed => ?_, fun event hparsed => ?_,
    fun token htoken => ?_, fun hstrings result hresult => ?_⟩
  · obtain ⟨event, hparsed⟩ := hexists
    obtain ⟨reason, hreason, _⟩ := hevent event hparsed
    exact hrejected.mpr (by simp [hreason])
  · obtain ⟨reason, hreason, heq⟩ := hevent event hparsed
    rw [← postgresJsonStringFailure_eq_nul_iff, hreason, heq, Option.some.injEq]
    rfl
  · obtain ⟨reason, _, heq⟩ := hevent event hparsed
    rw [heq, recover_rejectedMessage]
  · obtain ⟨payload', parsed, sourceEventAt, hcreates, _, hbuilt⟩ := parse_eq_token htoken
    obtain ⟨haddress, heventId, hpayload⟩ := discoveredToken_eq_ok hbuilt
    obtain ⟨hmint, hprovider⟩ := validateNewToken_eq_some hcreates.valid
    rw [haddress, heventId, hpayload]
    refine ⟨hcreates.safe _ hmint, fun eventId heq => ?_, hcreates.safe⟩
    rw [← Option.some.inj heq]
    exact hcreates.safe _ hprovider
  · obtain ⟨event, hparsed⟩ := hparse hstrings
    rw [hparsed] at hresult
    cases hresult

/-- Receipts of one instant have the same key material exactly when they keep the same bytes in
the same encoding. -/
theorem rejectedKeyMaterial_eq_iff (receivedAt : Int)
    (hraw : NoCollision py raw.rawBytes raw'.rawBytes) :
    rejectedKeyMaterial py raw receivedAt = rejectedKeyMaterial py raw' receivedAt ↔
      raw.encoding = raw'.encoding ∧ raw.rawBytes = raw'.rawBytes := by
  constructor
  · intro h
    simp only [rejectedKeyMaterial, List.append_assoc, List.append_cancel_left_eq] at h
    have hsplit : raw.encoding = raw'.encoding := by
      cases raw with
      | text message =>
        cases raw' with
        | text message' => rfl
        | binary bytes' =>
          have hhead : some (0x75 : CodePoint) = some 0x62 := congrArg List.head? h
          exact absurd hhead (by decide)
      | binary bytes =>
        cases raw' with
        | text message' =>
          have hhead : some (0x62 : CodePoint) = some 0x75 := congrArg List.head? h
          exact absurd hhead (by decide)
        | binary bytes' => rfl
    rw [hsplit, List.append_cancel_left_eq, List.append_cancel_left_eq] at h
    exact ⟨hsplit, hraw (HexDigest.ext h)⟩
  · intro h
    simp only [rejectedKeyMaterial, h.1, h.2]

end OneMessage

/-- Quarantine is exact and keeps the whole message, and receipts of one instant have the same
idempotency key exactly when they keep the same bytes in the same encoding. -/
theorem quarantine_exact (py : Python) (receivedAt : Int) :
    (∀ raw payload, Decodes py raw payload → QuarantinedExactly py raw receivedAt payload) ∧
    ∀ raw raw' event event',
      parseNewTokenMessage py raw receivedAt = .error (.unsafePayload event) →
      parseNewTokenMessage py raw' receivedAt = .error (.unsafePayload event') →
      NoCollision py raw.rawBytes raw'.rawBytes →
      NoCollision py (encode (rejectedKeyMaterial py raw receivedAt))
        (encode (rejectedKeyMaterial py raw' receivedAt)) →
      (event.idempotencyKey = event'.idempotencyKey ↔
        event.messageEncoding = event'.messageEncoding ∧ event.rawMessage = event'.rawMessage) := by
  refine ⟨fun raw payload => quarantined_exactly, fun raw raw' event event' h h' hraw hkey => ?_⟩
  obtain ⟨_, reason, _, _, heq⟩ := parse_eq_unsafe h
  obtain ⟨_, reason', _, _, heq'⟩ := parse_eq_unsafe h'
  rw [heq, heq']
  refine Iff.trans ?_ (rejectedKeyMaterial_eq_iff receivedAt hraw)
  refine ⟨fun hsame => encode_injective (hkey hsame), fun hsame => ?_⟩
  simp only [rejectedMessage, hsame]

/-! ### A message with NUL, received as text and as bytes -/

def nulMessage : Text := text "\x7b\"name\":\"\\u0000\"\x7d"

def nulReceivedAt : Int := 1788770718 * 1000000

/-- The digests of the message and of the key of its receipt as bytes, and for every other input
that of the key of its receipt as text. -/
def nulPython : Python where
  decodeDepth := 1000
  encodeDepth := 1000
  maxStrDigits := 4300
  sha256 bytes :=
    if bytes = encode nulMessage then
      hexDigest "2348ef1def6f69bb34c7bfe898b59692d064b99051b6946e85eac0afa16bb75c"
        (by decide +kernel) (by decide +kernel)
    else if bytes = encode (text ("pumpportal:rejected:2026-09-07T08:45:18+00:00:binary:" ++
        "2348ef1def6f69bb34c7bfe898b59692d064b99051b6946e85eac0afa16bb75c")) then
      hexDigest "cdde8749192f566d4295844be1e2dcf577b9fcfc625b87eac1c8e2bf932a93f5"
        (by decide +kernel) (by decide +kernel)
    else
      hexDigest "0566136adaf9d34258b27b29f5a551d1973ca70a2350137c873e4b8d2a9b0082"
        (by decide +kernel) (by decide +kernel)
  canonicalJson _ := []
  lower t := t
  isoformat _ := text "2026-09-07T08:45:18+00:00"
  fromIsoformat _ := none
  floatOfText _ := none
  fromTimestamp _ := none

def ParseFailure.isUnsafe : ParseFailure → Bool
  | .unsafePayload _ => true
  | _ => false

theorem exists_unsafe_of_isUnsafe {α : Type} {r : Except ParseFailure α}
    (h : (match r with
      | .error e => e.isUnsafe
      | .ok _ => false) = true) : ∃ event, r = .error (.unsafePayload event) := by
  cases r with
  | ok value => cases h
  | error e =>
    cases e with
    | unsafePayload event => exact ⟨event, rfl⟩
    | response message => cases h
    | escaped error => cases h

/-- Both receipts are quarantined with the same bytes, and their keys differ. -/
theorem nul_message_quarantined_twice :
    ∃ event event',
      parseNewTokenMessage nulPython (.text nulMessage) nulReceivedAt =
        .error (.unsafePayload event) ∧
      parseNewTokenMessage nulPython (.binary (encode nulMessage)) nulReceivedAt =
        .error (.unsafePayload event') ∧
      event.recover = some (.text nulMessage) ∧ event.idempotencyKey ≠ event'.idempotencyKey := by
  obtain ⟨event, h⟩ := exists_unsafe_of_isUnsafe
    (r := parseNewTokenMessage nulPython (.text nulMessage) nulReceivedAt) (by decide +kernel)
  obtain ⟨event', h'⟩ := exists_unsafe_of_isUnsafe
    (r := parseNewTokenMessage nulPython (.binary (encode nulMessage)) nulReceivedAt)
    (by decide +kernel)
  obtain ⟨payload, reason, hdecodes, _, heq⟩ := parse_eq_unsafe h
  obtain ⟨_, reason', _, _, heq'⟩ := parse_eq_unsafe h'
  have hexact := quarantine_exact nulPython nulReceivedAt
  have hkeys := hexact.2 _ _ event event' h h' (fun _ => rfl) (fun hsame => absurd hsame
    (by decide +kernel))
  refine ⟨event, event', h, h', (hexact.1 _ payload hdecodes).recoverable event h, ?_⟩
  rw [Ne, hkeys, heq, heq']
  intro hsame
  have hencodings : text "utf8-surrogatepass" = text "binary" := hsame.1
  exact absurd hencodings (by decide)

end PumpResearch.Discovery
