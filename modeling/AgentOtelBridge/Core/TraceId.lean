import AgentOtelBridge.Core.Model

/-!
# Trace and span ids

A trace id is a hash of the conversation, a span id a hash of what the event says
and of a salt.  The hash function is the parameter `sha256`.

The text a span id is a hash of does not name its parts, but with a salt it ends
with it: two texts are equal only if their salts are.
-/

namespace AgentOtelBridge

open Text

/-! ## Bytes of a number -/

/-- The bytes of an unsigned integer of some width, little endian. -/
def leBytes : Nat → Nat → List UInt8
  | 0, _ => []
  | width + 1, n => .ofNat n :: leBytes width (n / 256)

@[simp] theorem length_leBytes (width n : Nat) : (leBytes width n).length = width := by
  induction width generalizing n with
  | zero => rfl
  | succ width ih => simp [leBytes, ih]

theorem leBytes_inj {width m n : Nat} (same : leBytes width m = leBytes width n) :
    m % 256 ^ width = n % 256 ^ width := by
  induction width generalizing m n with
  | zero => simp [Nat.mod_one]
  | succ width ih =>
      obtain ⟨low, high⟩ := List.cons.inj same
      have lows : m % 256 = n % 256 := by simpa using congrArg UInt8.toNat low
      have highs := ih high
      rw [Nat.pow_succ', Nat.mod_mul, Nat.mod_mul, lows, highs]

/-! ## Derived ids -/

/-- An id of all zeros is invalid. -/
def nonzeroId (id : List UInt8) : List UInt8 :=
  if id = List.replicate id.length 0 then 1 :: List.replicate (id.length - 1) 0 else id

/-- What a trace id is a hash of; `now` is the time in nanoseconds. -/
def traceIdText (now : Nat) (conversationId : Option String) : List UInt8 :=
  match conversationId with
  | some cid =>
      if trim cid ≠ "" then asBytes "agy-otel:trace_id:" ++ asBytes (trim cid)
      else asBytes "agy-otel:trace_id:fallback:" ++ leBytes 16 now
  | none => asBytes "agy-otel:trace_id:fallback:" ++ leBytes 16 now

def deriveTraceId (sha256 : List UInt8 → List UInt8) (now : Nat) (conversationId : Option String) :
    List UInt8 :=
  nonzeroId ((sha256 (traceIdText now conversationId)).take 16)

/-- What a span id is a hash of. -/
def spanIdText (conversationId : Option String) (stepIdx : Option UInt64) (event : HookEvent)
    (toolName : Option String) (salt : UInt32) : List UInt8 :=
  asBytes "agy-otel:span_id:" ++ (conversationId.elim [] asBytes ++
    (asBytes ":" ++ ((stepIdx.elim [] fun step => leBytes 8 step.toNat) ++
      (asBytes ":" ++ (asBytes event.asStr ++ (asBytes ":" ++ (toolName.elim [] asBytes ++
        if 0 < salt then asBytes ":salt:" ++ leBytes 4 salt.toNat else [])))))))

def spanIdOf (digest : List UInt8) : List UInt8 := nonzeroId (digest.take 8)

def deriveSpanId (sha256 : List UInt8 → List UInt8) (conversationId : Option String)
    (stepIdx : Option UInt64) (event : HookEvent) (toolName : Option String) (salt : UInt32) :
    List UInt8 :=
  spanIdOf (sha256 (spanIdText conversationId stepIdx event toolName salt))

/-- A text with a salt ends with its four bytes. -/
theorem spanIdText_salted (conversationId : Option String) (stepIdx : Option UInt64)
    (event : HookEvent) (toolName : Option String) {salt : UInt32} (salted : 0 < salt) :
    ∃ front, spanIdText conversationId stepIdx event toolName salt = front ++ leBytes 4 salt.toNat := by
  refine ⟨asBytes "agy-otel:span_id:" ++ (conversationId.elim [] asBytes ++
    (asBytes ":" ++ ((stepIdx.elim [] fun step => leBytes 8 step.toNat) ++
      (asBytes ":" ++ (asBytes event.asStr ++ (asBytes ":" ++ (toolName.elim [] asBytes ++
        asBytes ":salt:"))))))), ?_⟩
  simp only [spanIdText, if_pos salted, List.append_assoc]

/-- Equal texts have equal salts, if both are salted. -/
theorem spanIdText_salt {cid cid' : Option String} {step step' : Option UInt64}
    {event event' : HookEvent} {tool tool' : Option String} {salt salt' : UInt32} (salted : 0 < salt)
    (salted' : 0 < salt')
    (same : spanIdText cid step event tool salt = spanIdText cid' step' event' tool' salt') :
    salt = salt' := by
  obtain ⟨front, text⟩ := spanIdText_salted cid step event tool salted
  obtain ⟨front', text'⟩ := spanIdText_salted cid' step' event' tool' salted'
  rw [text, text'] at same
  have salts := leBytes_inj (List.append_inj_right' same (by simp))
  apply UInt32.toNat_inj.mp
  have bound : salt.toNat < 256 ^ 4 := salt.toNat_lt
  have bound' : salt'.toNat < 256 ^ 4 := salt'.toNat_lt
  rwa [Nat.mod_eq_of_lt bound, Nat.mod_eq_of_lt bound'] at salts

/-! ## The trace context -/

/-- A validated trace context carried by a hook event. -/
structure ResolvedTraceContext where
  traceId : List UInt8
  parentSpanId : Option (List UInt8)
  /-- The W3C trace-flags byte. -/
  traceFlags : UInt8
deriving DecidableEq, Repr

def hexNibble (byte : UInt8) : Option UInt8 :=
  if 48 ≤ byte ∧ byte ≤ 57 then some (byte - 48)
  else if 97 ≤ byte ∧ byte ≤ 102 then some (byte - 97 + 10)
  else none

/-- The loop of `parse_hex`, two digits a byte. -/
def parsePairs : List UInt8 → Option (List UInt8)
  | high :: low :: rest =>
      (hexNibble high).bind fun h => (hexNibble low).bind fun l =>
        (parsePairs rest).map fun parsed => (h <<< 4 ||| l) :: parsed
  | _ => some []

/-- `parse_hex::<N>`. -/
def parseHex (n : Nat) (bytes : List UInt8) : Option (List UInt8) :=
  if bytes.length ≠ n * 2 then none else parsePairs bytes

def parseHexByte (bytes : List UInt8) : Option UInt8 := (parseHex 1 bytes).bind List.head?

/-- What may follow the four fields. -/
def extensionOk (version : UInt8) (bytes : List UInt8) : Bool :=
  if version = 0 then bytes.length = 55
  else bytes.length ≤ 55 ||
    (bytes[55]? = some 45 && !(bytes.drop 56).isEmpty && (bytes.drop 56).all fun byte => byte < 128)

/-- `parse_w3c_traceparent_with_flags`. -/
def parseW3cTraceparentWithFlags (raw : String) : Option ResolvedTraceContext :=
  let bytes := asBytes raw
  if bytes.length < 55 ∨ 512 < bytes.length then none
  else if bytes[2]? ≠ some 45 ∨ bytes[35]? ≠ some 45 ∨ bytes[52]? ≠ some 45 then none
  else do
    let version ← parseHexByte (bytes.take 2)
    if version = 0xff then none
    else if extensionOk version bytes = false then none
    else do
      let traceId ← parseHex 16 ((bytes.drop 3).take 32)
      let parentSpanId ← parseHex 8 ((bytes.drop 36).take 16)
      let traceFlags ← parseHexByte ((bytes.drop 53).take 2)
      if traceId = List.replicate 16 0 ∨ parentSpanId = List.replicate 8 0 then none
      else some ⟨traceId, some parentSpanId, traceFlags⟩

/-- `resolve_trace_context`: the payload, then the origin, then the conversation. -/
def resolveTraceContext (sha256 : List UInt8 → List UInt8) (now : Nat)
    (payloadTraceparent originTraceparent conversationId : Option String) : ResolvedTraceContext :=
  match (payloadTraceparent.bind parseW3cTraceparentWithFlags).or
      (originTraceparent.bind parseW3cTraceparentWithFlags) with
  | some context => context
  | none => ⟨deriveTraceId sha256 now conversationId, none, 1⟩

end AgentOtelBridge
