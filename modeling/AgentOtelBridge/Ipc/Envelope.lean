import AgentOtelBridge.Core.Model
import AgentOtelBridge.Ipc.Frame

/-!
# The context envelope

The body of a `HookPayloadWithContext` frame is the wire header, the version of
the envelope, the length of an optional context, the context and the JSON bytes.
The sender is a hook and the receiver the daemon; the legacy `HookPayload` body is
the wire header and the JSON bytes.

Each side has one lemma: a decoder reads what the encoder wrote, and what it
accepts is what the encoder writes.
-/

namespace AgentOtelBridge.Ipc

open Text (asBytes fromUtf8)

/-! ## Frames as bytes -/

def Header.toBytes (header : Header) : List UInt8 :=
  [header.magic.1, header.magic.2, header.version, header.msgType, header.len.1, header.len.2.1,
    header.len.2.2.1, header.len.2.2.2]

/-- The header of exactly eight bytes. -/
def Header.ofBytes : List UInt8 → Option Header
  | [m₀, m₁, version, msgType, l₀, l₁, l₂, l₃] =>
      some ⟨(m₀, m₁), version, msgType, (l₀, l₁, l₂, l₃)⟩
  | _ => none

@[simp] theorem Header.ofBytes_toBytes (header : Header) : ofBytes header.toBytes = some header := rfl

@[simp] theorem Header.length_toBytes (header : Header) : header.toBytes.length = headerLen := rfl

/-- The bytes of a frame. -/
def frameBytes (msgType : MsgType) (payload : List UInt8) : List UInt8 :=
  (encodeFrame msgType payload).1.toBytes ++ (encodeFrame msgType payload).2

theorem frameBytes_take (msgType : MsgType) (payload : List UInt8) :
    (frameBytes msgType payload).take headerLen = (encodeFrame msgType payload).1.toBytes :=
  List.take_left' (Header.length_toBytes _)

theorem frameBytes_drop (msgType : MsgType) (payload : List UInt8) :
    (frameBytes msgType payload).drop headerLen = payload :=
  List.drop_left' (Header.length_toBytes _)

/-! ## The envelope -/

def contextEnvelopeVersion : UInt8 := 1
def maxContextLen : Nat := 512

/-- The fixed part: the wire header, the version and the length of the context. -/
def envelopeLen : Nat := WireHeader.len + 1 + 2

/-- The bytes sent for a context: none when it is empty or over the limit. -/
def contextBytes (context : Option String) : Option (List UInt8) :=
  ((context.filter fun value => value ≠ "").map asBytes).filter fun value =>
    value.length ≤ maxContextLen

def encodeContextPayload (header : WireHeader) (context : Option String) (json : List UInt8) :
    List UInt8 :=
  let contextLen := (contextBytes context).elim 0 List.length
  let lenBytes := u16ToLe (.ofNat contextLen)
  header.encode ++ [contextEnvelopeVersion] ++ [lenBytes.1, lenBytes.2] ++
    (contextBytes context).getD [] ++ json

/-- The length of the context that an envelope states. -/
def contextLen (payload : List UInt8) : Nat :=
  (u16FromLe (payload.getD (WireHeader.len + 1) 0) (payload.getD (WireHeader.len + 2) 0)).toNat

def contextEnd (payload : List UInt8) : Nat := envelopeLen + contextLen payload

/-- The bytes of the context of an envelope. -/
def contextSlice (payload : List UInt8) : List UInt8 :=
  (payload.drop envelopeLen).take (contextLen payload)

def decodeContextPayload (payload : List UInt8) :
    Except String (WireHeader × Option String × List UInt8) :=
  if payload.length < envelopeLen then .error "truncated context payload"
  else
    match WireHeader.decode payload with
    | none => .error "truncated wire header"
    | some header =>
        if payload.getD WireHeader.len 0 ≠ contextEnvelopeVersion then
          .error "unsupported context envelope version"
        else if maxContextLen < contextLen payload then .error "context exceeds maximum length"
        else if payload.length < contextEnd payload then .error "truncated context payload"
        else
          let context := if contextLen payload = 0 then none else fromUtf8 (contextSlice payload)
          .ok (header, context, payload.drop (contextEnd payload))

/-- `decode_wire_payload`, of either layout. -/
def decodeWirePayload (msgType : MsgType) (payload : List UInt8) :
    Option (WireHeader × Option String × List UInt8) :=
  match msgType with
  | .hookPayload =>
      (WireHeader.decode payload).map fun header => (header, none, payload.drop WireHeader.len)
  | .hookPayloadWithContext => (decodeContextPayload payload).toOption
  | _ => none

/-! ## What is sent -/

/-- The context that reaches the other side: a text that is not empty and within
the limit. -/
def sentContext (context : Option String) : Option String :=
  context.filter fun value => value ≠ "" ∧ value.utf8ByteSize ≤ maxContextLen

theorem contextBytes_eq (context : Option String) :
    contextBytes context = (sentContext context).map asBytes := by
  cases context with
  | none => rfl
  | some value =>
      by_cases empty : value = "" <;> by_cases small : value.utf8ByteSize ≤ maxContextLen <;>
        simp [contextBytes, sentContext, Option.filter, empty, small]

/-- The bytes of the context in an envelope. -/
def sentBytes (context : Option String) : List UInt8 := (contextBytes context).getD []

theorem length_sentBytes_le (context : Option String) :
    (sentBytes context).length ≤ maxContextLen := by
  unfold sentBytes contextBytes
  cases sent : ((context.filter fun value => value ≠ "").map asBytes).filter
      fun value => value.length ≤ maxContextLen with
  | none => exact Nat.zero_le _
  | some value => exact of_decide_eq_true (Option.filter_eq_some_iff.mp sent).2

/-- The fixed part of an envelope, before a context of some length. -/
def fixedPart (header : WireHeader) (len : Nat) : List UInt8 :=
  header.encode ++ [contextEnvelopeVersion] ++
    [(u16ToLe (.ofNat len)).1, (u16ToLe (.ofNat len)).2]

@[simp] theorem length_fixedPart (header : WireHeader) (len : Nat) :
    (fixedPart header len).length = envelopeLen := rfl

theorem encodeContextPayload_eq (header : WireHeader) (context : Option String)
    (json : List UInt8) :
    encodeContextPayload header context json =
      fixedPart header (sentBytes context).length ++ (sentBytes context ++ json) := by
  unfold encodeContextPayload sentBytes fixedPart
  cases contextBytes context <;> simp

/-! ## What is received -/

theorem contextLen_fixedPart (header : WireHeader) {len : Nat} (bound : len ≤ maxContextLen)
    (body : List UInt8) : contextLen (fixedPart header len ++ body) = len := by
  have read : contextLen (fixedPart header len ++ body) = (UInt16.ofNat len).toNat :=
    congrArg UInt16.toNat (u16FromLe_u16ToLe (.ofNat len))
  rw [read, UInt16.toNat_ofNat']
  exact Nat.mod_eq_of_lt (Nat.lt_of_le_of_lt bound (by decide))

/-- An envelope whose context is cut is refused. -/
theorem decodeContextPayload_cut (header : WireHeader) {len : Nat} (bound : len ≤ maxContextLen)
    {body : List UInt8} (cut : body.length < len) :
    decodeContextPayload (fixedPart header len ++ body) = .error "truncated context payload" := by
  have whole : ¬ (fixedPart header len ++ body).length < envelopeLen := by
    rw [List.length_append, length_fixedPart]
    omega
  have short : (fixedPart header len ++ body).length < contextEnd (fixedPart header len ++ body) := by
    rw [contextEnd, contextLen_fixedPart header bound, List.length_append, length_fixedPart]
    omega
  have decoded : WireHeader.decode (fixedPart header len ++ body) = some header := by
    rw [fixedPart, List.append_assoc, List.append_assoc]
    exact header.decode_encode _
  have version : (fixedPart header len ++ body).getD WireHeader.len 0 = contextEnvelopeVersion := rfl
  simp only [decodeContextPayload, whole, decoded, version, contextLen_fixedPart header bound,
    Nat.not_lt_of_le bound, short, ne_eq, not_true_eq_false, if_false, if_true]

/-- An envelope with its whole context is read part by part. -/
theorem decodeContextPayload_whole (header : WireHeader) {len : Nat} (bound : len ≤ maxContextLen)
    {body : List UInt8} (whole : len ≤ body.length) :
    decodeContextPayload (fixedPart header len ++ body) =
      .ok (header, if len = 0 then none else fromUtf8 (body.take len), body.drop len) := by
  have long : ¬ (fixedPart header len ++ body).length < envelopeLen := by
    rw [List.length_append, length_fixedPart]
    omega
  have contextThere :
      ¬ (fixedPart header len ++ body).length < contextEnd (fixedPart header len ++ body) := by
    rw [contextEnd, contextLen_fixedPart header bound, List.length_append, length_fixedPart]
    omega
  have decoded : WireHeader.decode (fixedPart header len ++ body) = some header := by
    rw [fixedPart, List.append_assoc, List.append_assoc]
    exact header.decode_encode _
  have version : (fixedPart header len ++ body).getD WireHeader.len 0 = contextEnvelopeVersion := rfl
  have slice : contextSlice (fixedPart header len ++ body) = body.take len := by
    rw [contextSlice, contextLen_fixedPart header bound, List.drop_left' (length_fixedPart _ _)]
  have rest : (fixedPart header len ++ body).drop (contextEnd (fixedPart header len ++ body)) =
      body.drop len := by
    rw [contextEnd, contextLen_fixedPart header bound, ← List.drop_drop,
      List.drop_left' (length_fixedPart _ _)]
  simp only [decodeContextPayload, long, decoded, version, contextLen_fixedPart header bound,
    Nat.not_lt_of_le bound, contextThere, slice, rest, ne_eq, not_true_eq_false, if_false]

/-- What is long enough and of the version of the envelope has a fixed part. -/
theorem exists_fixedPart {payload : List UInt8} (long : envelopeLen ≤ payload.length)
    (version : payload.getD WireHeader.len 0 = contextEnvelopeVersion) :
    ∃ header body, WireHeader.decode payload = some header ∧
      payload = fixedPart header (contextLen payload) ++ body := by
  match payload, long, version with
  | eventId :: low :: high :: v :: l₀ :: l₁ :: body, _, version =>
      obtain rfl : v = contextEnvelopeVersion := version
      refine ⟨⟨u16FromLe low high, eventId⟩, body, rfl, ?_⟩
      show _ = fixedPart ⟨u16FromLe low high, eventId⟩ (u16FromLe l₀ l₁).toNat ++ body
      simp [fixedPart, WireHeader.encode]

/-! ## The round trip -/

/-- A receiver reads what was sent. -/
theorem decodeContextPayload_encode (header : WireHeader) (context : Option String)
    (json : List UInt8) :
    decodeContextPayload (encodeContextPayload header context json) =
      .ok (header, sentContext context, json) := by
  have whole : (sentBytes context).length ≤ (sentBytes context ++ json).length := by simp
  have read := decodeContextPayload_whole header (length_sentBytes_le context) whole
  rw [encodeContextPayload_eq, read, List.take_left, List.drop_left, sentBytes, contextBytes_eq]
  cases sent : sentContext context with
  | none => rfl
  | some value =>
      have nonempty : value ≠ "" := by
        have kept := (Option.filter_eq_some_iff.mp sent).2
        simp only [decide_eq_true_eq] at kept
        exact kept.1
      simp [nonempty]

/-- What an accepted envelope is: a fixed part, the context it states and the rest. -/
theorem decodeContextPayload_ok {payload : List UInt8} {header : WireHeader}
    {context : Option String} {json : List UInt8}
    (accepted : decodeContextPayload payload = .ok (header, context, json)) :
    contextLen payload ≤ maxContextLen ∧ (contextSlice payload).length = contextLen payload ∧
      payload = fixedPart header (contextLen payload) ++ (contextSlice payload ++ json) ∧
      context = if contextLen payload = 0 then none else fromUtf8 (contextSlice payload) := by
  unfold decodeContextPayload at accepted
  split at accepted
  · cases accepted
  next long =>
    split at accepted
    · cases accepted
    next _ decoded =>
      split at accepted
      · cases accepted
      next version =>
        split at accepted
        · cases accepted
        next bound =>
          split at accepted
          · cases accepted
          next whole =>
            cases accepted
            obtain ⟨parsed, body, parses, shape⟩ :=
              exists_fixedPart (Nat.le_of_not_lt long) (not_not.mp version)
            obtain rfl : parsed = header := Option.some.inj (parses.symm.trans decoded)
            have slice : contextSlice payload = body.take (contextLen payload) := by
              rw [contextSlice]
              conv_lhs => rw [shape, List.drop_left' (length_fixedPart _ _)]
              rw [← shape]
            have rest : payload.drop (contextEnd payload) = body.drop (contextLen payload) := by
              rw [contextEnd]
              conv_lhs => rw [shape, ← List.drop_drop, List.drop_left' (length_fixedPart _ _)]
              rw [← shape]
            have enough : contextLen payload ≤ body.length := by
              have size : payload.length = envelopeLen + body.length := by
                conv_lhs => rw [shape, List.length_append, length_fixedPart]
              rw [contextEnd] at whole
              omega
            refine ⟨Nat.le_of_not_lt bound, ?_, ?_, rfl⟩
            · rw [slice, List.length_take, Nat.min_eq_left enough]
            · rw [slice, rest, List.take_append_drop]
              exact shape

/-- What is received with a valid context is what is sent for it. -/
theorem encodeContextPayload_decode {payload : List UInt8} {header : WireHeader}
    {context : Option String} {json : List UInt8}
    (accepted : decodeContextPayload payload = .ok (header, context, json))
    (valid : (fromUtf8 (contextSlice payload)).isSome = true) :
    encodeContextPayload header context json = payload := by
  obtain ⟨bound, size, shape, rfl⟩ := decodeContextPayload_ok accepted
  obtain ⟨value, text⟩ := Option.isSome_iff_exists.mp valid
  have bytes : asBytes value = contextSlice payload := Text.asBytes_of_fromUtf8 text
  have sent : sentBytes (if contextLen payload = 0 then none else fromUtf8 (contextSlice payload)) =
      contextSlice payload := by
    split
    next empty =>
      rw [empty] at size
      exact (List.length_eq_zero_iff.mp size).symm
    next nonzero =>
      have small : (asBytes value).length ≤ maxContextLen := by
        rw [bytes, size]
        exact bound
      have nonempty : value ≠ "" := by
        intro nil
        rw [← bytes, Text.asBytes_eq_nil.mpr nil] at size
        exact nonzero size.symm
      rw [text, sentBytes, contextBytes, Option.filter_some, if_pos (decide_eq_true nonempty),
        Option.map_some, Option.filter_some, if_pos (decide_eq_true small), Option.getD_some, bytes]
  rw [encodeContextPayload_eq, sent, size]
  exact shape.symm

/-- An envelope that is cut in its fixed part or its context is refused. -/
theorem decodeContextPayload_truncated (header : WireHeader) (context : Option String)
    (json : List UInt8) {n : Nat} (cut : n < envelopeLen + (sentBytes context).length) :
    decodeContextPayload ((encodeContextPayload header context json).take n) =
      .error "truncated context payload" := by
  rcases Nat.lt_or_ge n envelopeLen with inFixed | inContext
  · have short : ((encodeContextPayload header context json).take n).length < envelopeLen :=
      Nat.lt_of_le_of_lt (List.length_take_le _ _) inFixed
    rw [decodeContextPayload, if_pos short]
  · obtain ⟨more, rfl⟩ := Nat.exists_eq_add_of_le inContext
    have short : ((sentBytes context ++ json).take more).length < (sentBytes context).length :=
      Nat.lt_of_le_of_lt (List.length_take_le _ _) (by omega)
    rw [encodeContextPayload_eq, List.take_append, length_fixedPart, Nat.add_sub_cancel_left,
      List.take_of_length_le (by simp)]
    exact decodeContextPayload_cut header (length_sentBytes_le context) short

/-- **Sender and receiver agree.**  A frame is read as it was built, a context
envelope is read as it was encoded and encodes what was read of it, a cut envelope
is refused, and the two layouts of a payload without context say the same. -/
theorem wire_roundTrip (msgType : MsgType) (known : msgType ≠ .unknown) (payload : List UInt8)
    (short : payload.length < 2 ^ 32) (header : WireHeader) (context : Option String)
    (json : List UInt8) :
    ((Header.ofBytes ((frameBytes msgType payload).take headerLen)).map decodeHeader =
        some (.ok (msgType, payload.length)) ∧
      (frameBytes msgType payload).drop headerLen = payload) ∧
    decodeContextPayload (encodeContextPayload header context json) =
      .ok (header, context.filter fun c => c ≠ "" ∧ c.utf8ByteSize ≤ 512, json) ∧
    (∀ (received : List UInt8) (h : WireHeader) (c : Option String) (rest : List UInt8),
      decodeContextPayload received = .ok (h, c, rest) →
      (fromUtf8 (contextSlice received)).isSome = true →
      encodeContextPayload h c rest = received) ∧
    (∀ n < envelopeLen + (sentBytes context).length,
      ∃ error, decodeContextPayload ((encodeContextPayload header context json).take n) =
        .error error) ∧
    decodeWirePayload .hookPayload (header.encode ++ json) = some (header, none, json) ∧
    decodeWirePayload .hookPayloadWithContext (encodeContextPayload header none json) =
      some (header, none, json) := by
  refine ⟨⟨?_, frameBytes_drop msgType payload⟩, decodeContextPayload_encode header context json,
    fun _ _ _ _ => encodeContextPayload_decode, ?_, ?_, ?_⟩
  · rw [frameBytes_take, Header.ofBytes_toBytes, Option.map_some,
      decodeHeader_encodeFrame known short]
  · intro n cut
    exact ⟨_, decodeContextPayload_truncated header context json cut⟩
  · rw [decodeWirePayload, WireHeader.decode_encode]
    rfl
  · rw [decodeWirePayload, decodeContextPayload_encode]
    rfl

/-- A frame of two bytes and an envelope with a context. -/
theorem wire_roundTrip_traced :
    decodeContextPayload (encodeContextPayload ⟨0x0102, 3⟩ (some "00-trace") [0x7B, 0x7D]) =
      .ok (⟨0x0102, 3⟩, some "00-trace", [0x7B, 0x7D]) :=
  (wire_roundTrip .hookPayload (by decide) [1, 2] (by decide) ⟨0x0102, 3⟩ (some "00-trace")
    [0x7B, 0x7D]).2.1

end AgentOtelBridge.Ipc
