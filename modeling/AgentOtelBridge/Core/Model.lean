import AgentOtelBridge.Lib.Text

/-!
# The hook events

The header a hook puts before an event, the events it reports, the names it
reports them under and the clients it reports for.
-/

namespace AgentOtelBridge

/-! ## The wire header -/

structure WireHeader where
  clientId : UInt16
  eventId : UInt8
deriving DecidableEq, Repr

/-- The two bytes of a `u16`, little endian. -/
def u16ToLe (n : UInt16) : UInt8 × UInt8 := (.ofNat n.toNat, .ofNat (n.toNat / 2 ^ 8))

def u16FromLe (low high : UInt8) : UInt16 := .ofNat (low.toNat + high.toNat * 2 ^ 8)

@[simp] theorem u16FromLe_u16ToLe (n : UInt16) : u16FromLe (u16ToLe n).1 (u16ToLe n).2 = n := by
  apply UInt16.toNat_inj.mp
  have bound := n.toNat_lt
  simp only [u16FromLe, u16ToLe, UInt16.toNat_ofNat', UInt8.toNat_ofNat']
  omega

@[simp] theorem u16ToLe_u16FromLe (low high : UInt8) :
    u16ToLe (u16FromLe low high) = (low, high) := by
  have lowBound := low.toNat_lt
  have highBound := high.toNat_lt
  apply Prod.ext
  · apply UInt8.toNat_inj.mp
    simp only [u16FromLe, u16ToLe, UInt16.toNat_ofNat', UInt8.toNat_ofNat']
    omega
  · apply UInt8.toNat_inj.mp
    simp only [u16FromLe, u16ToLe, UInt16.toNat_ofNat', UInt8.toNat_ofNat']
    omega

/-- `WireHeader::LEN`. -/
def WireHeader.len : Nat := 3

def WireHeader.encode (header : WireHeader) : List UInt8 :=
  [header.eventId, (u16ToLe header.clientId).1, (u16ToLe header.clientId).2]

def WireHeader.decode : List UInt8 → Option WireHeader
  | eventId :: low :: high :: _ => some ⟨u16FromLe low high, eventId⟩
  | _ => none

@[simp] theorem WireHeader.decode_encode (header : WireHeader) (rest : List UInt8) :
    decode (header.encode ++ rest) = some header := by
  simp [decode, encode]

/-! ## Events -/

inductive HookEvent where
  | unknown
  | preInvocation
  | postInvocation
  | preToolUse
  | postToolUse
  | stop
deriving DecidableEq, Repr

/-- `HookEvent::from_str_name`. -/
def HookEvent.fromStrName (s : String) : HookEvent :=
  match Text.trim s with
  | "PreInvocation" | "pre_invocation" => .preInvocation
  | "PostInvocation" | "post_invocation" => .postInvocation
  | "PreToolUse" | "pre_tool_use" => .preToolUse
  | "PostToolUse" | "post_tool_use" => .postToolUse
  | "Stop" | "stop" => .stop
  | _ => .unknown

/-- `HookEvent::as_str`. -/
def HookEvent.asStr : HookEvent → String
  | .preInvocation => "PreInvocation"
  | .postInvocation => "PostInvocation"
  | .preToolUse => "PreToolUse"
  | .postToolUse => "PostToolUse"
  | .stop => "Stop"
  | .unknown => "Unknown"

/-- `HookEvent::from_wire`. -/
def HookEvent.fromWire (eventId : UInt8) : HookEvent :=
  match eventId with
  | 1 => .preInvocation
  | 2 => .postInvocation
  | 3 => .preToolUse
  | 4 => .postToolUse
  | 5 => .stop
  | _ => .unknown

/-- The name an event is reported under is read back as the event. -/
theorem HookEvent.fromStrName_asStr (event : HookEvent) : fromStrName event.asStr = event := by
  cases event <;> decide

/-! ## Clients -/

inductive ClientKind where
  | unspecified
  | antigravity
  | claudeCode
  | codex
  | grok
  | pi
deriving DecidableEq, Repr

/-- `ClientKind::from_wire`. -/
def ClientKind.fromWire (clientId : UInt16) : ClientKind :=
  match clientId with
  | 1 => .antigravity
  | 2 => .claudeCode
  | 3 => .codex
  | 4 => .grok
  | 5 => .pi
  | _ => .unspecified

/-- `ClientKind::as_str`. -/
def ClientKind.asStr : ClientKind → Option String
  | .unspecified => none
  | .antigravity => some "antigravity"
  | .claudeCode => some "claude-code"
  | .codex => some "codex"
  | .grok => some "grok"
  | .pi => some "pi"

end AgentOtelBridge
