import Mathlib.Algebra.GroupWithZero.Nat
import Mathlib.Data.List.Basic

/-!
# The frames of the ingress protocol

A frame is a header of eight bytes and a payload.  The header has the two magic
bytes, the version of the protocol, the type of the message and the length of the
payload, little endian.
-/

namespace AgentOtelBridge.Ipc

def magic : UInt8 × UInt8 := (0x41, 0x47)
def protocolVersion : UInt8 := 1
def headerLen : Nat := 8

inductive MsgType where
  | hookPayload
  | quotaPing
  | healthPing
  | hookPayloadWithContext
  | shutdown
  | unknown
deriving DecidableEq, Repr

def MsgType.fromU8 (b : UInt8) : MsgType :=
  match b with
  | 0x01 => .hookPayload
  | 0x02 => .quotaPing
  | 0x03 => .healthPing
  | 0x04 => .hookPayloadWithContext
  | 0xFF => .shutdown
  | _ => .unknown

def MsgType.toU8 : MsgType → UInt8
  | .hookPayload => 0x01
  | .quotaPing => 0x02
  | .healthPing => 0x03
  | .hookPayloadWithContext => 0x04
  | .shutdown => 0xFF
  | .unknown => 0x00

@[simp] theorem MsgType.fromU8_toU8 (msgType : MsgType) : fromU8 msgType.toU8 = msgType := by
  cases msgType <;> rfl

/-- The eight bytes of a header. -/
structure Header where
  magic : UInt8 × UInt8
  version : UInt8
  msgType : UInt8
  len : UInt8 × UInt8 × UInt8 × UInt8
deriving DecidableEq, Repr

def toLeBytes (n : Nat) : UInt8 × UInt8 × UInt8 × UInt8 :=
  (.ofNat n, .ofNat (n / 2 ^ 8), .ofNat (n / 2 ^ 16), .ofNat (n / 2 ^ 24))

def fromLeBytes (b : UInt8 × UInt8 × UInt8 × UInt8) : Nat :=
  b.1.toNat + b.2.1.toNat * 2 ^ 8 + b.2.2.1.toNat * 2 ^ 16 + b.2.2.2.toNat * 2 ^ 24

theorem fromLeBytes_toLeBytes (n : Nat) : fromLeBytes (toLeBytes n) = n % 2 ^ 32 := by
  simp only [fromLeBytes, toLeBytes, UInt8.toNat_ofNat']
  omega

/-- `decode_header`. -/
def decodeHeader (header : Header) : Except String (MsgType × Nat) :=
  if header.magic ≠ magic then .error "invalid magic bytes"
  else if header.version ≠ protocolVersion then .error "unsupported protocol version"
  else
    let msgType := MsgType.fromU8 header.msgType
    if msgType = .unknown then .error "unknown message type"
    else .ok (msgType, fromLeBytes header.len)

/-- `encode_frame`: the header and the payload.  The length is cast to `u32`. -/
def encodeFrame (msgType : MsgType) (payload : List UInt8) : Header × List UInt8 :=
  (⟨magic, protocolVersion, msgType.toU8, toLeBytes (payload.length % 2 ^ 32)⟩, payload)

/-- What is decoded of a header is a known message and a length that fits a `u32`. -/
theorem decodeHeader_ok {header : Header} {msgType : MsgType} {len : Nat}
    (h : decodeHeader header = .ok (msgType, len)) : msgType ≠ .unknown ∧ len < 2 ^ 32 := by
  unfold decodeHeader at h
  split at h
  · cases h
  split at h
  · cases h
  simp only at h
  split at h
  · cases h
  rename_i hknown
  obtain ⟨rfl, rfl⟩ := by simpa using h
  refine ⟨hknown, ?_⟩
  have h₁ := header.len.1.toNat_lt
  have h₂ := header.len.2.1.toNat_lt
  have h₃ := header.len.2.2.1.toNat_lt
  have h₄ := header.len.2.2.2.toNat_lt
  simp only [fromLeBytes]
  omega

/-- A header is decoded as it was encoded. -/
theorem decodeHeader_encodeFrame {msgType : MsgType} {payload : List UInt8}
    (hm : msgType ≠ .unknown) (hp : payload.length < 2 ^ 32) :
    decodeHeader (encodeFrame msgType payload).1 = .ok (msgType, payload.length) := by
  simp only [decodeHeader, encodeFrame, ne_eq, not_true_eq_false, if_false, MsgType.fromU8_toU8,
    hm, fromLeBytes_toLeBytes, Nat.mod_eq_of_lt hp]

end AgentOtelBridge.Ipc
