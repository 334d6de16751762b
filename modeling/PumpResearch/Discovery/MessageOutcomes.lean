import PumpResearch.Discovery.PushSource

/-! Which exceptions leave the parser and what its tokens carry. The guarded regions of the parser
leave out the depth and the digits of the JSON text, two overflows of a timestamp and a blank
address; the limits of the schema are not checked at all. -/
namespace PumpResearch.Discovery
open Utf8 PythonJson PythonText Results

/-! ### The conditions -/

/-- No exception but a `DiscoveryResponseParseError` leaves the parser. -/
def Contained (py : Python) (raw : RawMessage) (receivedAt : Int) : Prop :=
  ∀ error, parseNewTokenMessage py raw receivedAt ≠ .error (.escaped error)

/-- The reader stays on its connection, records no gap and puts at most one envelope. -/
def KeepsReading (py : Python) (capacity : Nat) (raw : RawMessage) (receivedAt : Int)
    (loss : Loss) (s : PushState) : Prop :=
  (readMessage py capacity raw receivedAt loss s).source.reader = s.source.reader ∧
  (readMessage py capacity raw receivedAt loss s).gaps = s.gaps ∧
  ∃ envelopes : List Envelope, envelopes.length ≤ 1 ∧
    (∀ envelope ∈ envelopes, ∀ event, envelope ≠ .connectivity event) ∧
    (readMessage py capacity raw receivedAt loss s).enqueued = s.enqueued ++ envelopes

/-- A timestamp whose conversion raises an `OverflowError`: an integer beyond the doubles, or a
wall clock whose instant in UTC is not a `datetime`. -/
def TimestampOverflows (py : Python) : JsonValue → Prop
  | .int n => overflowBound ≤ n.natAbs
  | .str value => ∃ wallClock utcoffset,
      py.fromIsoformat (replaceZulu value) = some ⟨wallClock, some utcoffset⟩ ∧
        ¬ (minInstant ≤ wallClock - utcoffset ∧ wallClock - utcoffset ≤ maxInstant)
  | _ => False

/-- A message that no unguarded step of the parser trips over. -/
structure Harmless (py : Python) (raw : RawMessage) : Prop where
  decodes : ∀ message, raw.message = some message →
    loads py.maxStrDigits py.decodeDepth message ≠ .error .recursionLimit ∧
      loads py.maxStrDigits py.decodeDepth message ≠ .error .tooManyDigits
  timestamp : ∀ payload parsed, Creates py raw payload parsed →
    ∀ field ∈ timestampField payload, ¬ TimestampOverflows py field.2
  rest : ∀ payload parsed, Creates py raw payload parsed →
    (∃ sourceEventAt, sourceTimestamp py payload = .ok sourceEventAt) →
      (JsonValue.dict payload).depth ≤ py.encodeDepth ∧
        ∃ c ∈ parsed.mint, isWhitespace c = false

section Outcomes
variable {py : Python} {raw : RawMessage} {receivedAt : Int} {payload : List (Text × JsonValue)}
  {parsed : NewToken}

theorem timestampOfNumber_ne_overflow {fieldName : String} {numeric : FloatLiteral} :
    timestampOfNumber py fieldName numeric ≠ .error .overflowError := by
  intro h
  unfold timestampOfNumber at h
  split at h
  · cases h
  · cases h
  · split at h
    · cases h
    · split at h
      all_goals cases h

theorem parseTimestamp_eq_overflow_iff {fieldName : String} {value : JsonValue} :
    parseTimestamp py fieldName value = .error .overflowError ↔ TimestampOverflows py value := by
  cases value with
  | int n =>
    have hbound : (⟨n < 0, n.natAbs, 0⟩ : Decimal).overflows = true ↔ overflowBound ≤ n.natAbs := by
      simp [Decimal.overflows]
    simp only [parseTimestamp, TimestampOverflows, ← hbound]
    split
    · next hover => exact iff_of_true rfl hover
    · next hover => exact iff_of_false timestampOfNumber_ne_overflow hover
  | str value =>
    simp only [parseTimestamp, TimestampOverflows]
    cases hiso : py.fromIsoformat (replaceZulu value) with
    | none =>
      refine iff_of_false ?_ (by simp)
      cases py.floatOfText value with
      | none => simp
      | some numeric => exact timestampOfNumber_ne_overflow
    | some iso =>
      obtain ⟨wallClock, utcoffset⟩ := iso
      cases utcoffset with
      | none => simp
      | some utcoffset =>
        simp only [Option.some.injEq, IsoDatetime.mk.injEq]
        split
        · next hrange =>
          refine iff_of_false (by simp) fun hover => ?_
          obtain ⟨_, _, ⟨hwall, hoffset⟩, hout⟩ := hover
          rw [← hwall, ← hoffset] at hout
          exact hout hrange
        · next hrange => exact iff_of_true rfl ⟨wallClock, utcoffset, ⟨rfl, rfl⟩, hrange⟩
  | null => simp [parseTimestamp, TimestampOverflows]
  | bool b => simp [parseTimestamp, TimestampOverflows]
  | float numeric => exact iff_of_false timestampOfNumber_ne_overflow id
  | list items => simp [parseTimestamp, TimestampOverflows]
  | dict entries => simp [parseTimestamp, TimestampOverflows]

theorem sourceTimestamp_eq_overflow_iff :
    sourceTimestamp py payload = .error .overflowError ↔
      ∃ field ∈ timestampField payload, TimestampOverflows py field.2 := by
  unfold sourceTimestamp
  cases timestampField payload with
  | none => simp
  | some field => simp [parseTimestamp_eq_overflow_iff]

/-- The identifiers of a new token can be encoded. -/
theorem encodeStrict_keyMaterial (h : Creates py raw payload parsed) :
    encodeStrict (sourceName ++ text ":token_created:" ++ parsed.providerEventId) ≠ none := by
  have hsafe : parsed.providerEventId.any isSurrogate = false :=
    (h.safe _ (validateNewToken_eq_some h.valid).2).2
  have hfixed : (sourceName ++ text ":token_created:").any isSurrogate = false := by decide
  rw [encodeStrict, List.any_append, hfixed, hsafe]
  simp

/-- Only a blank address fails the checks of the constructor. -/
theorem blankField_eq_none_iff {token : DiscoveredToken} (hchain : token.chain = text "solana")
    (hsource : token.sourceName = sourceName) (htype : token.eventType = text "token_created") :
    token.blankField = none ↔ strip token.address ≠ [] := by
  have hsolana : strip (text "solana") ≠ [] := by decide
  have hname : strip sourceName ≠ [] := by decide
  have hcreated : strip (text "token_created") ≠ [] := by decide
  have hkey := token.idempotencyKey.strip_ne_nil
  simp [DiscoveredToken.blankField, List.find?_eq_none, hchain, hsource, htype, hsolana, hname,
    hcreated, hkey]

theorem discoveredToken_ok_iff (h : Creates py raw payload parsed) (sourceEventAt : Option Int) :
    (∃ token, discoveredToken py payload parsed sourceEventAt receivedAt = .ok token) ↔
      (JsonValue.dict payload).depth ≤ py.encodeDepth ∧
        ∃ c ∈ parsed.mint, isWhitespace c = false := by
  obtain ⟨keyBytes, hkey⟩ := Option.ne_none_iff_exists'.mp (encodeStrict_keyMaterial h)
  have hblank : (∃ c ∈ parsed.mint, isWhitespace c = false) ↔ strip parsed.mint ≠ [] := by
    rw [Ne, strip_eq_nil_iff]
    push Not
    simp
  rw [hblank]
  unfold discoveredToken
  split
  · next hdeep =>
    refine iff_of_false (fun hexists => ?_) fun hboth => ?_
    · obtain ⟨token, htoken⟩ := hexists
      cases htoken
    · omega
  · next hdeep =>
    simp only [hkey]
    split
    · next field hfield =>
      refine iff_of_false (fun hexists => ?_) fun hboth => ?_
      · obtain ⟨token, htoken⟩ := hexists
        cases htoken
      · rw [(blankField_eq_none_iff rfl rfl rfl).mpr hboth.2] at hfield
        cases hfield
    · next hnone =>
      exact iff_of_true ⟨_, rfl⟩ ⟨not_lt.mp hdeep, (blankField_eq_none_iff rfl rfl rfl).mp hnone⟩

theorem harmless_of_contained (h : Contained py raw receivedAt) : Harmless py raw where
  decodes message hmessage := by
    have hescapes : ∀ error, loadPayload py raw = .error (.escaped error) → False := by
      intro error hload
      refine h error ?_
      rw [parseNewTokenMessage, hload]
      rfl
    constructor
    · intro hloads
      exact hescapes .recursionError (by simp only [loadPayload, hmessage, hloads])
    · intro hloads
      exact hescapes (.valueError "integer string conversion")
        (by simp only [loadPayload, hmessage, hloads])
  timestamp payload parsed hcreates field hfield hover := by
    refine h .overflowError ?_
    rw [parse_of_safe hcreates.decodes (postgresJsonStringFailure_eq_none_iff.mpr hcreates.safe),
      hcreates.announces, hcreates.valid,
      sourceTimestamp_eq_overflow_iff.mpr ⟨field, hfield, hover⟩]
    rfl
  rest payload parsed hcreates haccepted := by
    obtain ⟨sourceEventAt, hstamp⟩ := haccepted
    rw [← @discoveredToken_ok_iff py raw receivedAt payload parsed hcreates sourceEventAt]
    cases hbuilt : discoveredToken py payload parsed sourceEventAt receivedAt with
    | ok token => exact ⟨token, rfl⟩
    | error failure =>
      obtain ⟨error, hescaped⟩ := discoveredToken_eq_error hbuilt
      refine absurd ?_ (h error)
      rw [parse_of_safe hcreates.decodes (postgresJsonStringFailure_eq_none_iff.mpr hcreates.safe),
        hcreates.announces, hcreates.valid, hstamp]
      simp only [hbuilt, hescaped]
      rfl

theorem contained_of_harmless (h : Harmless py raw) : Contained py raw receivedAt := by
  intro error hparse
  cases hload : loadPayload py raw with
  | error failure =>
    rw [parseNewTokenMessage, hload] at hparse
    have hfailure : failure = .escaped error := Except.error.inj hparse
    rw [hfailure] at hload
    unfold loadPayload at hload
    split at hload
    · cases hload
    · next message hmessage =>
      obtain ⟨hdepth, hdigits⟩ := h.decodes message hmessage
      split at hload
      · cases hload
      · next hloads => exact hdepth hloads
      · next hloads => exact hdigits hloads
      · cases hload
      · cases hload
  | ok payload =>
    have hdecodes := loadPayload_eq_ok.mp hload
    cases hreason : postgresJsonStringFailure (.dict payload) with
    | some reason =>
      rw [parse_of_decodes hdecodes hreason] at hparse
      cases hparse
    | none =>
      rw [parse_of_safe hdecodes hreason] at hparse
      split at hparse
      · cases hparse
      · next hannounces =>
        have hcreates : ∀ parsed, validateNewToken payload = some parsed →
            Creates py raw payload parsed := fun parsed hparsed =>
          ⟨hdecodes, postgresJsonStringFailure_eq_none_iff.mp hreason,
            Bool.not_eq_true _ ▸ hannounces, hparsed⟩
        split at hparse
        · cases hparse
        · cases hparse
        · next parsed hparsed hstamp =>
          obtain ⟨field, hfield, hover⟩ := sourceTimestamp_eq_overflow_iff.mp hstamp
          exact h.timestamp payload parsed (hcreates parsed hparsed) field hfield hover
        · next parsed sourceEventAt hparsed hstamp =>
          obtain ⟨token, htoken⟩ := (discoveredToken_ok_iff (hcreates parsed hparsed)
            sourceEventAt).mpr (h.rest payload parsed (hcreates parsed hparsed) ⟨_, hstamp⟩)
          rw [htoken] at hparse
          cases hparse

/-- What the parser contains, the reader takes without leaving its connection. -/
theorem keepsReading_of_contained (h : Contained py raw receivedAt) (capacity : Nat) (loss : Loss)
    (s : PushState) : KeepsReading py capacity raw receivedAt loss s := by
  unfold KeepsReading readMessage
  cases hreceived : receive py raw receivedAt with
  | error error =>
    unfold receive at hreceived
    split at hreceived
    · cases hreceived
    · cases hreceived
    · cases hreceived
    · cases hreceived
    · next hparse => exact absurd hparse (h _)
  | ok envelope =>
    cases envelope with
    | none => exact ⟨rfl, rfl, [], Nat.zero_le 1, by simp, (List.append_nil _).symm⟩
    | some envelope =>
      have hkind : ∀ event, envelope ≠ .connectivity event := by
        intro event heq
        unfold receive at hreceived
        rw [heq] at hreceived
        split at hreceived
        all_goals cases hreceived
      simp only [PushState.put]
      split
      · exact ⟨rfl, rfl, [envelope], le_rfl, by simpa using hkind, rfl⟩
      · exact ⟨rfl, rfl, [], Nat.zero_le 1, by simp, (List.append_nil _).symm⟩

end Outcomes

/-- A message is contained, and the reader goes on on its connection, exactly when no unguarded
step of the parser trips over it. -/
theorem message_contained_iff (py : Python) (raw : RawMessage) (receivedAt : Int) :
    (Contained py raw receivedAt ∧
      ∀ capacity loss s, KeepsReading py capacity raw receivedAt loss s) ↔ Harmless py raw :=
  ⟨fun h => harmless_of_contained h.1, fun h => ⟨contained_of_harmless h,
    keepsReading_of_contained (contained_of_harmless h)⟩⟩

/-! ### A blank address -/

/-- An interpreter with the digest of the message below and that of its event. -/
def blankPython : Python where
  decodeDepth := 1000
  encodeDepth := 1000
  maxStrDigits := 4300
  sha256 bytes :=
    if bytes = encode (text "\x7b\"mint\":\" \"\x7d") then
      hexDigest "5f4919cdd8f4d74313b94a8f158a54e47ce6304775e816f52df672d5f36dbda3"
        (by decide +kernel) (by decide +kernel)
    else
      hexDigest "415ebe7faec78b0a49b9521eea433ee80e02284350e08c4125ae8256074df887"
        (by decide +kernel) (by decide +kernel)
  canonicalJson _ := encode (text "\x7b\"mint\":\" \"\x7d")
  lower t := t
  isoformat _ := text "2026-09-07T08:45:18+00:00"
  fromIsoformat _ := none
  floatOfText _ := none
  fromTimestamp _ := none

def ParseFailure.isEscaped : ParseFailure → Bool
  | .escaped _ => true
  | _ => false

/-- The constructor's check of the address raises outside the guarded regions. -/
theorem blank_mint_escapes :
    ¬ (Contained blankPython (.text (text "\x7b\"mint\":\" \"\x7d")) 0 ∧
      ∀ capacity loss s, KeepsReading blankPython capacity (.text (text "\x7b\"mint\":\" \"\x7d")) 0
        loss s) := by
  have hescaped : (match parseNewTokenMessage blankPython (.text (text "\x7b\"mint\":\" \"\x7d")) 0 with
      | .error failure => failure.isEscaped
      | .ok _ => false) = true := by decide +kernel
  intro h
  cases hparse : parseNewTokenMessage blankPython (.text (text "\x7b\"mint\":\" \"\x7d")) 0 with
  | ok result =>
    rw [hparse] at hescaped
    cases hescaped
  | error failure =>
    rw [hparse] at hescaped
    cases failure with
    | escaped error => exact h.1 error hparse
    | response message => cases hescaped
    | unsafePayload event => cases hescaped

/-! ### What the schema can store -/

/-- The payload is JSON again when it is serialised, and the identifiers fit their columns. -/
structure FitsSchema (token : DiscoveredToken) : Prop where
  numbers : ∀ literal ∈ (JsonValue.dict token.sourcePayload).floats, literal.isFinite = true
  address : token.address.length ≤ 128
  sourceEventId : ∀ eventId ∈ token.sourceEventId, eventId.length ≤ 256

/-- A number that is a decimal below the bound of the doubles. -/
def InRange (literal : FloatLiteral) : Prop :=
  ∃ d, literal = .decimal d ∧ (d.digits : ℚ) * 10 ^ d.exponent < overflowBound

/-- The numbers and the identifiers of a creation message are within the limits. -/
def WithinLimits (py : Python) (raw : RawMessage) : Prop :=
  ∀ payload parsed, Creates py raw payload parsed →
    (∀ literal ∈ (JsonValue.dict payload).floats, InRange literal) ∧
      parsed.mint.length ≤ 128 ∧ parsed.providerEventId.length ≤ 256

theorem overflows_iff (d : Decimal) :
    d.overflows = true ↔ (overflowBound : ℚ) ≤ d.digits * 10 ^ d.exponent := by
  unfold Decimal.overflows
  cases hexponent : d.exponent with
  | ofNat e =>
    simp only [decide_eq_true_eq, Int.ofNat_eq_natCast, zpow_natCast]
    exact_mod_cast Iff.rfl
  | negSucc e =>
    have hpos : (0 : ℚ) < 10 ^ (e + 1) := by positivity
    rw [decide_eq_true_eq, zpow_negSucc, ← div_eq_mul_inv, le_div_iff₀ hpos]
    exact_mod_cast Iff.rfl

theorem isFinite_iff {literal : FloatLiteral} : literal.isFinite = true ↔ InRange literal := by
  cases literal with
  | nan =>
    refine iff_of_false Bool.false_ne_true fun h => ?_
    obtain ⟨_, heq, _⟩ := h
    cases heq
  | infinity negative =>
    refine iff_of_false Bool.false_ne_true fun h => ?_
    obtain ⟨_, heq, _⟩ := h
    cases heq
  | decimal d =>
    have hover : d.overflows = false ↔ (d.digits : ℚ) * 10 ^ d.exponent < overflowBound := by
      rw [← Bool.not_eq_true, overflows_iff, not_le]
    constructor
    · intro hfinite
      exact ⟨d, rfl, hover.mp (Bool.not_eq_true' _ ▸ hfinite)⟩
    · intro hrange
      obtain ⟨d', heq, hlt⟩ := hrange
      cases heq
      exact Bool.not_eq_true' _ ▸ hover.mpr hlt

theorem Creates.unique {py : Python} {raw : RawMessage} {payload payload' : List (Text × JsonValue)}
    {parsed parsed' : NewToken} (h : Creates py raw payload parsed)
    (h' : Creates py raw payload' parsed') : payload = payload' ∧ parsed = parsed' := by
  have hpayload := h.decodes.unique h'.decodes
  have hvalid := h.valid
  rw [hpayload, h'.valid] at hvalid
  exact ⟨hpayload, (Option.some.inj hvalid).symm⟩

/-- A token that is returned fits the schema exactly when its message is within the limits, which
nothing on the way checks. -/
theorem token_fits_iff {py : Python} {raw : RawMessage} {receivedAt : Int}
    {token : DiscoveredToken} (h : parseNewTokenMessage py raw receivedAt = .ok (some token)) :
    FitsSchema token ↔ WithinLimits py raw := by
  obtain ⟨payload, parsed, sourceEventAt, hcreates, _, hbuilt⟩ := parse_eq_token h
  obtain ⟨haddress, heventId, hpayload⟩ := discoveredToken_eq_ok hbuilt
  constructor
  · intro hfits payload' parsed' hcreates'
    obtain ⟨hsame, hsameParsed⟩ := hcreates.unique hcreates'
    rw [← hsame, ← hsameParsed]
    refine ⟨fun literal hmem => isFinite_iff.mp (hfits.numbers literal (hpayload ▸ hmem)), ?_, ?_⟩
    · rw [← haddress]
      exact hfits.address
    · exact hfits.sourceEventId _ heventId
  · intro hlimits
    obtain ⟨hnumbers, hmint, hprovider⟩ := hlimits payload parsed hcreates
    refine ⟨fun literal hmem => isFinite_iff.mpr (hnumbers literal (hpayload ▸ hmem)),
      haddress ▸ hmint, fun eventId hmem => ?_⟩
    rw [heventId] at hmem
    cases hmem
    exact hprovider

/-- An interpreter with the digest of the message below and that of its event. -/
def nanPython : Python :=
  { blankPython with
    sha256 bytes :=
      if bytes = encode (text "\x7b\"mint\":\"M\",\"x\":NaN\x7d") then
        hexDigest "003f8e3b7fa1f47451bb08671390695f3b21272653eca8132050d403b86f96a0"
          (by decide +kernel) (by decide +kernel)
      else
        hexDigest "274263b5c3e08411df8ffc3b4ca249bab0489ed15722a0ac5a44e00230cd98b4"
          (by decide +kernel) (by decide +kernel)
    canonicalJson _ := encode (text "\x7b\"mint\":\"M\",\"x\":NaN\x7d") }

def nanMessage : RawMessage := .text (text "\x7b\"mint\":\"M\",\"x\":NaN\x7d")

theorem nan_token : ∃ token, parseNewTokenMessage nanPython nanMessage 0 = .ok (some token) ∧
    ∃ literal ∈ (JsonValue.dict token.sourcePayload).floats, literal.isFinite = false := by
  have htoken : ((parseNewTokenMessage nanPython nanMessage 0).toOption.getD none).any (fun token =>
      (JsonValue.dict token.sourcePayload).floats.any fun x => !x.isFinite) = true := by
    decide +kernel
  cases hparse : parseNewTokenMessage nanPython nanMessage 0 with
  | error failure =>
    rw [hparse] at htoken
    cases htoken
  | ok result =>
    cases result with
    | none =>
      rw [hparse] at htoken
      cases htoken
    | some token =>
      rw [hparse] at htoken
      obtain ⟨literal, hmem, hinfinite⟩ := List.any_eq_true.mp htoken
      exact ⟨token, rfl, literal, hmem, by simpa using hinfinite⟩

theorem nan_message_beyond_limits : ¬ WithinLimits nanPython nanMessage := by
  obtain ⟨token, hparse, literal, hmem, hinfinite⟩ := nan_token
  intro hlimits
  have hfinite := ((token_fits_iff hparse).mpr hlimits).numbers literal hmem
  rw [hinfinite] at hfinite
  cases hfinite

/-- A payload with a constant that JSON does not have is admitted. -/
theorem nan_token_admitted :
    ¬ ∀ raw receivedAt token, parseNewTokenMessage nanPython raw receivedAt = .ok (some token) →
      FitsSchema token := by
  intro h
  obtain ⟨token, hparse, literal, hmem, hinfinite⟩ := nan_token
  have hfinite := (h nanMessage 0 token hparse).numbers literal hmem
  rw [hinfinite] at hfinite
  cases hfinite

end PumpResearch.Discovery
