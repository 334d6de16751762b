import PumpResearch.Discovery.Contracts
import PumpResearch.Discovery.PayloadSafety

/-! Parsing one message of the new-token stream. Exceptions other than those the reader expects are
part of the result. -/
namespace PumpResearch.Discovery
open Utf8 PythonJson PythonText Results

/-! ### The interpreter -/

/-- What `datetime.fromisoformat` reads: the wall clock and its offset, if there is one. -/
structure IsoDatetime where
  wallClock : Int
  utcoffset : Option Int

/-- The interpreter: how deep it recurses, how long an integer it converts, and the functions of
its library that the parser only passes values through. -/
structure Python where
  decodeDepth : Nat
  encodeDepth : Nat
  maxStrDigits : Nat
  sha256 : List UInt8 → HexDigest
  canonicalJson : JsonValue → List UInt8
  lower : Text → Text
  isoformat : Int → Text
  fromIsoformat : Text → Option IsoDatetime
  floatOfText : Text → Option FloatLiteral
  fromTimestamp : Decimal → Option Int

inductive PythonError where
  | recursionError
  | valueError (message : String)
  | overflowError
  | unicodeEncodeError
deriving DecidableEq

/-- How `_parse_new_token_message` raises. Only `escaped` is not a `DiscoveryResponseParseError`. -/
inductive ParseFailure where
  | response (message : String)
  | unsafePayload (event : RejectedDiscoveryMessage)
  | escaped (error : PythonError)

inductive RawMessage where
  | text (message : Text)
  | binary (bytes : List UInt8)

/-! ### Decoding -/

/-- The text of a message. Binary messages are UTF-8. -/
def RawMessage.message : RawMessage → Option Text
  | .text message => some message
  | .binary bytes => decode false bytes

/-- The JSON object of a message. -/
def loadPayload (py : Python) (raw : RawMessage) :
    Except ParseFailure (List (Text × JsonValue)) :=
  match raw.message with
  | none => .error (.response "PumpPortal returned invalid JSON")
  | some message =>
    match loads py.maxStrDigits py.decodeDepth message with
    | .error .syntaxError => .error (.response "PumpPortal returned invalid JSON")
    | .error .recursionLimit => .error (.escaped .recursionError)
    | .error .tooManyDigits => .error (.escaped (.valueError "integer string conversion"))
    | .ok (.dict payload) => .ok payload
    | .ok _ => .error (.response "PumpPortal message must be a JSON object")

/-! ### Quarantine -/

/-- The bytes kept of a message. A text may have lone surrogates. -/
def RawMessage.rawBytes : RawMessage → List UInt8
  | .text message => encode message
  | .binary bytes => bytes

def RawMessage.encoding : RawMessage → Text
  | .text _ => Utf8.text "utf8-surrogatepass"
  | .binary _ => Utf8.text "binary"

def sourceName : Text := text "pumpportal"

def rejectedKeyMaterial (py : Python) (raw : RawMessage) (receivedAt : Int) : Text :=
  sourceName ++ text ":rejected:" ++ py.isoformat receivedAt ++ text ":" ++ raw.encoding ++
    text ":" ++ (py.sha256 raw.rawBytes).digits

/-- The record of a message that is quarantined. -/
def rejectedMessage (py : Python) (raw : RawMessage) (receivedAt : Int) (reason : String) :
    RejectedDiscoveryMessage where
  sourceName := sourceName
  endpoint := text "websocket:subscribeNewToken"
  receivedAt := receivedAt
  reasonCode := reason
  rawMessage := raw.rawBytes
  messageEncoding := raw.encoding
  rawMessageSha256 := py.sha256 raw.rawBytes
  idempotencyKey := py.sha256 (encode (rejectedKeyMaterial py raw receivedAt))

/-! ### Acknowledgements and new tokens -/

def get? (payload : List (Text × JsonValue)) (key : String) : Option JsonValue :=
  payload.lookup (text key)

/-- The payload confirms the subscription. -/
def isAcknowledgement (py : Python) (payload : List (Text × JsonValue)) : Bool :=
  (get? payload "mint").isNone &&
    match get? payload "message" with
    | some (.str message) => decide (text "successfully subscribed" <:+: py.lower message)
    | _ => false

/-- `_PumpPortalNewToken`. -/
structure NewToken where
  mint : Text
  signature : Option Text

/-- `_PumpPortalNewToken.model_validate`. -/
def validateNewToken (payload : List (Text × JsonValue)) : Option NewToken :=
  match get? payload "mint" with
  | some (.str (c :: mint)) =>
    match get? payload "signature" with
    | none | some .null => some ⟨c :: mint, none⟩
    | some (.str (d :: signature)) => some ⟨c :: mint, some (d :: signature)⟩
    | _ => none
  | _ => none

/-- `parsed.signature or parsed.mint`. -/
def NewToken.providerEventId (parsed : NewToken) : Text :=
  match parsed.signature with
  | some (c :: signature) => c :: signature
  | _ => parsed.mint

/-! ### Source timestamps -/

inductive TimestampError where
  | valueError (message : String)
  | overflowError
deriving DecidableEq

/-- The first and the last instant a `datetime` holds. -/
def minInstant : Int := -62135596800 * 1000000
def maxInstant : Int := 253402300800 * 1000000 - 1

/-- `value.replace("Z", "+00:00")`. -/
def replaceZulu (value : Text) : Text :=
  value.flatMap fun c => if c.val = code 'Z' then text "+00:00" else [c]

/-- The end of `_parse_timestamp`, for a number. -/
def timestampOfNumber (py : Python) (fieldName : String) (numeric : FloatLiteral) :
    Except TimestampError (Option Int) :=
  match numeric with
  | .nan | .infinity _ => .error (.valueError (fieldName ++ " must be finite"))
  | .decimal d =>
    if d.overflows then .error (.valueError (fieldName ++ " must be finite"))
    else
      match py.fromTimestamp d with
      | none => .error (.valueError (fieldName ++ " is outside the supported range"))
      | some instant => .ok (some instant)

/-- `_parse_timestamp`. -/
def parseTimestamp (py : Python) (fieldName : String) :
    JsonValue → Except TimestampError (Option Int)
  | .null => .ok none
  | .str value =>
    match py.fromIsoformat (replaceZulu value) with
    | some ⟨_, none⟩ => .error (.valueError (fieldName ++ " must include a timezone"))
    | some ⟨wallClock, some utcoffset⟩ =>
      -- `astimezone(UTC)`
      if minInstant ≤ wallClock - utcoffset ∧ wallClock - utcoffset ≤ maxInstant then
        .ok (some (wallClock - utcoffset))
      else .error .overflowError
    | none =>
      match py.floatOfText value with
      | none => .error (.valueError (fieldName ++ " must be a timestamp"))
      | some numeric => timestampOfNumber py fieldName numeric
  | .int n =>
    -- `float(value)` of an integer raises where a literal would become an infinity
    let d : Decimal := ⟨n < 0, n.natAbs, 0⟩
    if d.overflows then .error .overflowError else timestampOfNumber py fieldName (.decimal d)
  | .float numeric => timestampOfNumber py fieldName numeric
  | _ => .error (.valueError (fieldName ++ " must be a timestamp"))

/-- The first timestamp field of a payload. -/
def timestampField (payload : List (Text × JsonValue)) : Option (String × JsonValue) :=
  ["timestamp", "created_timestamp", "createdTimestamp"].findSome? fun fieldName =>
    (get? payload fieldName).map fun value => (fieldName, value)

/-- `_source_timestamp`. -/
def sourceTimestamp (py : Python) (payload : List (Text × JsonValue)) :
    Except TimestampError (Option Int) :=
  match timestampField payload with
  | none => .ok none
  | some (fieldName, value) => parseTimestamp py fieldName value

/-! ### The message -/

/-- The fields that the parser makes of a new token, and the checks of `DiscoveredToken`. -/
def discoveredToken (py : Python) (payload : List (Text × JsonValue)) (parsed : NewToken)
    (sourceEventAt : Option Int) (receivedAt : Int) : Except ParseFailure DiscoveredToken := do
  -- `json.dumps` recurses over the payload
  if py.encodeDepth < (JsonValue.dict payload).depth then throw (.escaped .recursionError)
  let keyMaterial := sourceName ++ text ":token_created:" ++ parsed.providerEventId
  let some keyBytes := encodeStrict keyMaterial | throw (.escaped .unicodeEncodeError)
  let token : DiscoveredToken := {
    chain := text "solana"
    address := parsed.mint
    sourceName := sourceName
    sourceEventId := some parsed.providerEventId
    eventType := text "token_created"
    sourceEventAt := sourceEventAt
    receivedAt := receivedAt
    sourcePayload := payload
    sourcePayloadSha256 := py.sha256 (py.canonicalJson (.dict payload))
    idempotencyKey := py.sha256 keyBytes }
  match token.blankField with
  | some field => throw (.escaped (.valueError (field ++ " must be non-empty")))
  | none => return token

/-- `_parse_new_token_message`. -/
def parseNewTokenMessage (py : Python) (raw : RawMessage) (receivedAt : Int) :
    Except ParseFailure (Option DiscoveredToken) := do
  let payload ← loadPayload py raw
  match postgresJsonStringFailure (.dict payload) with
  | some reason => throw (.unsafePayload (rejectedMessage py raw receivedAt reason))
  | none =>
    if isAcknowledgement py payload then return none
    else
      match validateNewToken payload, sourceTimestamp py payload with
      | none, _ => throw (.response "PumpPortal new-token event is malformed")
      | some _, .error (.valueError _) =>
        throw (.response "PumpPortal new-token event is malformed")
      | some _, .error .overflowError => throw (.escaped .overflowError)
      | some parsed, .ok sourceEventAt =>
        return some (← discoveredToken py payload parsed sourceEventAt receivedAt)

/-! ### What a result says about the message -/

/-- The message decodes to a JSON object. -/
def Decodes (py : Python) (raw : RawMessage) (payload : List (Text × JsonValue)) : Prop :=
  ∃ message, raw.message = some message ∧
    loads py.maxStrDigits py.decodeDepth message = .ok (.dict payload)

/-- The message announces a new token: its payload is storable and has the fields of one. -/
structure Creates (py : Python) (raw : RawMessage) (payload : List (Text × JsonValue))
    (parsed : NewToken) : Prop where
  decodes : Decodes py raw payload
  safe : ∀ s ∈ (JsonValue.dict payload).strings, Storable s
  announces : isAcknowledgement py payload = false
  valid : validateNewToken payload = some parsed

section Inversion
variable {py : Python} {raw : RawMessage} {receivedAt : Int} {payload : List (Text × JsonValue)}

theorem loadPayload_eq_ok : loadPayload py raw = .ok payload ↔ Decodes py raw payload := by
  unfold loadPayload Decodes
  cases raw.message with
  | none => simp
  | some message =>
    simp only [Option.some.injEq, exists_eq_left']
    cases hloads : loads py.maxStrDigits py.decodeDepth message with
    | error e => cases e <;> simp
    | ok value => cases value <;> simp

theorem Decodes.unique {payload' : List (Text × JsonValue)} (h : Decodes py raw payload)
    (h' : Decodes py raw payload') : payload = payload' := by
  have hload := loadPayload_eq_ok.mpr h
  rw [loadPayload_eq_ok.mpr h'] at hload
  exact (Except.ok.inj hload).symm

theorem parse_of_decodes (h : Decodes py raw payload) {reason : String}
    (hreason : postgresJsonStringFailure (.dict payload) = some reason) :
    parseNewTokenMessage py raw receivedAt =
      .error (.unsafePayload (rejectedMessage py raw receivedAt reason)) := by
  rw [parseNewTokenMessage, loadPayload_eq_ok.mpr h]
  simp only [ok_bind, hreason]
  rfl

/-- Decoding alone quarantines nothing. -/
theorem loadPayload_ne_unsafe {event : RejectedDiscoveryMessage} :
    loadPayload py raw ≠ .error (.unsafePayload event) := by
  unfold loadPayload
  intro h
  split at h
  · cases h
  · split at h
    all_goals cases h

/-- The errors of a new token leave the parser as they are. -/
theorem discoveredToken_eq_error {parsed : NewToken} {sourceEventAt : Option Int}
    {failure : ParseFailure}
    (h : discoveredToken py payload parsed sourceEventAt receivedAt = .error failure) :
    ∃ error, failure = .escaped error := by
  unfold discoveredToken at h
  split at h
  · cases h
    exact ⟨_, rfl⟩
  · simp only at h
    split at h
    · split at h
      · cases h
        exact ⟨_, rfl⟩
      · cases h
    · cases h
      exact ⟨_, rfl⟩

/-- The parser after the guard on strings. -/
theorem parse_of_safe (h : Decodes py raw payload)
    (hsafe : postgresJsonStringFailure (.dict payload) = none) :
    parseNewTokenMessage py raw receivedAt =
      if isAcknowledgement py payload then .ok none
      else
        match validateNewToken payload, sourceTimestamp py payload with
        | none, _ => .error (.response "PumpPortal new-token event is malformed")
        | some _, .error (.valueError _) =>
          .error (.response "PumpPortal new-token event is malformed")
        | some _, .error .overflowError => .error (.escaped .overflowError)
        | some parsed, .ok sourceEventAt =>
          (discoveredToken py payload parsed sourceEventAt receivedAt).map some := by
  rw [parseNewTokenMessage, loadPayload_eq_ok.mpr h]
  simp only [ok_bind, hsafe]
  rfl

/-- What a quarantined message is quarantined with. -/
theorem parse_eq_unsafe {event : RejectedDiscoveryMessage}
    (h : parseNewTokenMessage py raw receivedAt = .error (.unsafePayload event)) :
    ∃ payload reason, Decodes py raw payload ∧
      postgresJsonStringFailure (.dict payload) = some reason ∧
      event = rejectedMessage py raw receivedAt reason := by
  cases hload : loadPayload py raw with
  | error e =>
    rw [parseNewTokenMessage, hload] at h
    have herror : e = .unsafePayload event := Except.error.inj h
    exact absurd (herror ▸ hload) loadPayload_ne_unsafe
  | ok payload =>
    have hdecodes := loadPayload_eq_ok.mp hload
    cases hreason : postgresJsonStringFailure (.dict payload) with
    | some reason =>
      rw [parse_of_decodes hdecodes hreason] at h
      exact ⟨payload, reason, hdecodes, hreason, by cases h; rfl⟩
    | none =>
      rw [parse_of_safe hdecodes hreason] at h
      split at h
      · cases h
      · split at h
        · cases h
        · cases h
        · cases h
        · next parsed sourceEventAt _ _ =>
          cases htoken : discoveredToken py payload parsed sourceEventAt receivedAt with
          | ok token =>
            rw [htoken] at h
            cases h
          | error failure =>
            obtain ⟨error, hescaped⟩ := discoveredToken_eq_error htoken
            rw [htoken, hescaped] at h
            cases h

/-- What a message is whose token is returned. -/
theorem parse_eq_token {token : DiscoveredToken}
    (h : parseNewTokenMessage py raw receivedAt = .ok (some token)) :
    ∃ payload parsed sourceEventAt, Creates py raw payload parsed ∧
      sourceTimestamp py payload = .ok sourceEventAt ∧
      discoveredToken py payload parsed sourceEventAt receivedAt = .ok token := by
  cases hload : loadPayload py raw with
  | error e =>
    rw [parseNewTokenMessage, hload] at h
    cases h
  | ok payload =>
    have hdecodes := loadPayload_eq_ok.mp hload
    cases hreason : postgresJsonStringFailure (.dict payload) with
    | some reason =>
      rw [parse_of_decodes hdecodes hreason] at h
      cases h
    | none =>
      rw [parse_of_safe hdecodes hreason] at h
      split at h
      · cases h
      · next hannounces =>
        split at h
        · cases h
        · cases h
        · cases h
        · next parsed sourceEventAt hparsed hstamp =>
          have hcreates : Creates py raw payload parsed :=
            ⟨hdecodes, postgresJsonStringFailure_eq_none_iff.mp hreason,
              Bool.not_eq_true _ ▸ hannounces, hparsed⟩
          refine ⟨payload, parsed, sourceEventAt, hcreates, hstamp, ?_⟩
          obtain ⟨token', htoken, hsome⟩ := map_eq_ok.mp h
          rw [htoken, Option.some.inj hsome]

/-- The fields of a token that is returned. -/
theorem discoveredToken_eq_ok {parsed : NewToken} {sourceEventAt : Option Int}
    {token : DiscoveredToken}
    (h : discoveredToken py payload parsed sourceEventAt receivedAt = .ok token) :
    token.address = parsed.mint ∧ token.sourceEventId = some parsed.providerEventId ∧
      token.sourcePayload = payload := by
  unfold discoveredToken at h
  split at h
  · cases h
  · simp only at h
    split at h
    · split at h
      · cases h
      · cases h
        exact ⟨rfl, rfl, rfl⟩
    · cases h

end Inversion

/-! ### The strings of a new token -/

theorem mem_strings_of_get? {payload : List (Text × JsonValue)} {key : String} {s : Text}
    (h : get? payload key = some (.str s)) : s ∈ (JsonValue.dict payload).strings := by
  unfold get? at h
  simp only [JsonValue.strings]
  induction payload with
  | nil => cases h
  | cons entry payload ih =>
    obtain ⟨k, value⟩ := entry
    rw [List.lookup_cons] at h
    simp only [entriesStrings, List.mem_cons, List.mem_append]
    split at h
    · cases h
      exact .inr (.inl (by simp [JsonValue.strings]))
    · exact .inr (.inr (ih h))

/-- Both identifiers of a new token are strings of its payload. -/
theorem validateNewToken_eq_some {payload : List (Text × JsonValue)} {parsed : NewToken}
    (h : validateNewToken payload = some parsed) :
    parsed.mint ∈ (JsonValue.dict payload).strings ∧
      parsed.providerEventId ∈ (JsonValue.dict payload).strings := by
  unfold validateNewToken at h
  split at h
  · next c mint hmint =>
    have hmem := mem_strings_of_get? hmint
    split at h
    · cases h
      exact ⟨hmem, hmem⟩
    · cases h
      exact ⟨hmem, hmem⟩
    · next d signature hsignature =>
      cases h
      exact ⟨hmem, mem_strings_of_get? hsignature⟩
    · cases h
  · cases h

end PumpResearch.Discovery
