import PumpResearch.Library.PythonJson
import PumpResearch.Library.PythonText

/-! The discovery contracts: discovered tokens, rejected messages and connectivity events, with the
checks their constructors make. Instants are in microseconds and in UTC. -/
namespace PumpResearch.Discovery
open Utf8 PythonJson PythonText

/-- The hexadecimal digits of a SHA-256. -/
@[ext] structure HexDigest where
  digits : Text
  hex : ∀ c ∈ digits, (hexDigit? c).isSome = true
  length_eq : digits.length = 64

instance decidableEqHexDigest : DecidableEq HexDigest :=
  fun a b => decidable_of_iff (a.digits = b.digits) HexDigest.ext_iff.symm

theorem not_isWhitespace_of_hex {c : CodePoint} (h : (hexDigit? c).isSome = true) :
    isWhitespace c = false := by
  have hrange : 0x30 ≤ c.val ∧ c.val ≤ 0x66 := by
    have hlow : code '0' = 0x30 ∧ code '9' = 0x39 := ⟨rfl, rfl⟩
    have hupper : code 'A' = 0x41 ∧ code 'F' = 0x46 := ⟨rfl, rfl⟩
    have hlower : code 'a' = 0x61 ∧ code 'f' = 0x66 := ⟨rfl, rfl⟩
    unfold hexDigit? at h
    split at h
    · omega
    · split at h
      · omega
      · split at h
        · omega
        · cases h
  simp only [isWhitespace, List.mem_cons, List.not_mem_nil, or_false, decide_eq_false_iff_not]
  omega

theorem HexDigest.strip_ne_nil (d : HexDigest) : strip d.digits ≠ [] := by
  intro h
  have hspace := strip_eq_nil_iff.mp h
  cases hdigits : d.digits with
  | nil =>
    have hlength := d.length_eq
    rw [hdigits] at hlength
    cases hlength
  | cons c rest =>
    have hmem : c ∈ d.digits := by rw [hdigits]; exact List.mem_cons_self
    have hsolid := not_isWhitespace_of_hex (d.hex c hmem)
    rw [hspace c hmem] at hsolid
    cases hsolid

/-- A digest from its text. -/
def hexDigest (s : String) (hex : ((text s).all fun c => (hexDigit? c).isSome) = true)
    (hlength : (text s).length = 64) : HexDigest := ⟨text s, List.all_eq_true.mp hex, hlength⟩

/-- `DiscoveredToken`. -/
structure DiscoveredToken where
  chain : Text
  address : Text
  sourceName : Text
  sourceEventId : Option Text
  eventType : Text
  sourceEventAt : Option Int
  receivedAt : Int
  sourcePayload : List (Text × JsonValue)
  sourcePayloadSha256 : HexDigest
  idempotencyKey : HexDigest

/-- `DiscoveredToken.__post_init__`: the first field that is blank. -/
def DiscoveredToken.blankField (token : DiscoveredToken) : Option String :=
  ([("chain", token.chain), ("address", token.address), ("source_name", token.sourceName),
    ("event_type", token.eventType), ("idempotency_key", token.idempotencyKey.digits)].find?
      fun field => strip field.2 = []).map (·.1)

/-- `RejectedDiscoveryMessage`. -/
structure RejectedDiscoveryMessage where
  sourceName : Text
  endpoint : Text
  receivedAt : Int
  reasonCode : String
  rawMessage : List UInt8
  messageEncoding : Text
  rawMessageSha256 : HexDigest
  idempotencyKey : HexDigest

inductive DiscoveryConnectivityEventType where
  | disconnected
  | reconnected
deriving DecidableEq, Repr

end PumpResearch.Discovery
