import AgentOtelBridge.Core.Model
import Mathlib.Data.List.Find

/-!
# The arguments of the hook

The hook reads the client and the event of its header from its arguments.  There are two readers,
of which only one is compiled: one for Linux, which takes the arguments from an iterator and has
255 for no event from the start, and one for other systems, which goes over their list by index
and puts 255 in the place of 0 at the end.

The two go through the same states, if the 0 of the one is read as the 255 of the other
(`linuxLoop_portableLoop`).
-/

namespace AgentOtelBridge.HeaderArguments

/-! ## Clients and events -/

structure ClientMapping where
  aliases : List String
  wireId : UInt16

/-- `CLIENT_MAPPINGS`. -/
def clientMappings : List ClientMapping :=
  [⟨["antigravity", "agy", "gemini"], 1⟩, ⟨["claude", "claude-code", "claudecode"], 2⟩,
    ⟨["codex", "openai", "codex-cli"], 3⟩, ⟨["grok", "xai", "grok-cli"], 4⟩,
    ⟨["pi", "pi-cli"], 5⟩]

/-- The arms of both readers for the events with a name. -/
def namedEvent : String → Option UInt8
  | "PreInvocation" | "pre_invocation" => some 1
  | "PostInvocation" | "post_invocation" => some 2
  | "PreToolUse" | "pre_tool_use" => some 3
  | "PostToolUse" | "post_tool_use" => some 4
  | "Stop" | "stop" => some 5
  | _ => none

/-- `parse::<u8>`. -/
def parseU8 (s : String) : Option UInt8 := (Text.parseUnsigned 8 s).map UInt8.ofNat

def isClientOption (argument : String) : Bool := argument = "--client" || argument = "--agent"

/-! ## Other systems -/

def resolveClientId (arg : String) : UInt16 :=
  let lower := Text.asciiLower arg
  match clientMappings.find? fun mapping => mapping.aliases.elem lower with
  | some mapping => mapping.wireId
  | none => 0

/-- The event after an argument that is no option. -/
def portableEvent (eventId : UInt8) (arg : String) : UInt8 :=
  match namedEvent arg with
  | some named => named
  | none =>
      match parseU8 arg with
      | some num => num
      | none => eventId

def portableLoop (args : List String) (i : Nat) (eventId : UInt8) (clientId : UInt16) :
    UInt8 × UInt16 :=
  if inside : i < args.length then
    let arg := args[i]
    if followed : isClientOption arg ∧ i + 1 < args.length then
      portableLoop args (i + 2) eventId (resolveClientId (args.get ⟨i + 1, followed.2⟩))
    else portableLoop args (i + 1) (portableEvent eventId arg) clientId
  else (eventId, clientId)
termination_by args.length - i

/-- `resolve_header` where the system is not Linux. -/
def resolveHeaderPortable (args : List String) : WireHeader :=
  let (eventId, clientId) := portableLoop (args.drop 1) 0 0 0
  ⟨clientId, if eventId = 0 then 255 else eventId⟩

/-! ## Linux -/

/-- An argument as the system has it. -/
abbrev OsString := List UInt8

def eqIgnoreAsciiCase (s t : String) : Bool := Text.asciiLower s = Text.asciiLower t

/-- The client of the argument behind an option. -/
def linuxClient (client : OsString) : UInt16 :=
  match (Text.fromUtf8 client).bind fun client =>
    clientMappings.find? fun mapping =>
      mapping.aliases.any fun known => eqIgnoreAsciiCase known client with
  | some mapping => mapping.wireId
  | none => 0

/-- The event after an argument that is no option. -/
def linuxEvent (eventId : UInt8) (argument : String) : UInt8 :=
  match namedEvent argument with
  | some named => named
  | none =>
      match parseU8 argument with
      | some number => if number = 0 then 255 else number
      | none => eventId

def linuxLoop (eventId : UInt8) (clientId : UInt16) : List OsString → UInt8 × UInt16
  | [] => (eventId, clientId)
  | argument :: args =>
      match Text.fromUtf8 argument with
      | none => linuxLoop eventId clientId args
      | some argument =>
          if isClientOption argument then
            match args with
            | [] => (eventId, clientId)
            | client :: args => linuxLoop eventId (linuxClient client) args
          else linuxLoop (linuxEvent eventId argument) clientId args

/-- `resolve_header` on Linux. -/
def resolveHeaderLinux (args : List OsString) : WireHeader :=
  let (eventId, clientId) := linuxLoop 255 0 (args.drop 1)
  ⟨clientId, eventId⟩

/-! ## Arguments -/

/-- The event of the one reader as the other has it. -/
def shown (eventId : UInt8) : UInt8 := if eventId = 0 then 255 else eventId

theorem asciiLower_of_mem {mapping : ClientMapping} (member : mapping ∈ clientMappings)
    {known : String} (listed : known ∈ mapping.aliases) : Text.asciiLower known = known := by
  have all : ∀ mapping ∈ clientMappings, ∀ known ∈ mapping.aliases,
      Text.asciiLower known = known := by decide
  exact all mapping member known listed

/-- The names of the clients are in small letters, so both readers compare alike. -/
theorem linuxClient_asBytes (client : String) :
    linuxClient (Text.asBytes client) = resolveClientId client := by
  have same : ∀ mapping ∈ clientMappings,
      (mapping.aliases.any fun known => eqIgnoreAsciiCase known client) =
        mapping.aliases.elem (Text.asciiLower client) := by
    intro mapping member
    rw [Bool.eq_iff_iff, List.any_eq_true, List.elem_iff]
    constructor
    · rintro ⟨known, listed, equal⟩
      rw [← of_decide_eq_true equal, asciiLower_of_mem member listed]
      exact listed
    · intro listed
      exact ⟨_, listed, decide_eq_true (asciiLower_of_mem member listed)⟩
  rw [linuxClient, Text.fromUtf8_asBytes, Option.bind_some, resolveClientId, List.find?_congr same]

theorem namedEvent_ne_zero {argument : String} {eventId : UInt8}
    (named : namedEvent argument = some eventId) : eventId ≠ 0 := by
  unfold namedEvent at named
  split at named <;> cases named <;> decide

theorem linuxEvent_shown (eventId : UInt8) (argument : String) :
    linuxEvent (shown eventId) argument = shown (portableEvent eventId argument) := by
  rw [linuxEvent, portableEvent]
  cases named : namedEvent argument with
  | some known => exact (if_neg (namedEvent_ne_zero named)).symm
  | none => cases parseU8 argument <;> rfl

/-- An option is no event. -/
theorem portableEvent_of_option {argument : String} (option : isClientOption argument = true)
    (eventId : UInt8) : portableEvent eventId argument = eventId := by
  rcases (Bool.or_eq_true _ _).mp option with client | agent
  · rw [of_decide_eq_true client]
    rfl
  · rw [of_decide_eq_true agent]
    rfl

/-! ## The loops -/

section

variable {argument : String} (eventId : UInt8) (clientId : UInt16)

theorem linuxLoop_client (option : isClientOption argument = true) (client : OsString)
    (args : List OsString) :
    linuxLoop eventId clientId (Text.asBytes argument :: client :: args) =
      linuxLoop eventId (linuxClient client) args := by
  rw [linuxLoop.eq_def]
  simp only [Text.fromUtf8_asBytes, option, if_true]

theorem linuxLoop_last (option : isClientOption argument = true) :
    linuxLoop eventId clientId [Text.asBytes argument] = (eventId, clientId) := by
  rw [linuxLoop.eq_def]
  simp only [Text.fromUtf8_asBytes, option, if_true]

theorem linuxLoop_event (other : isClientOption argument = false) (args : List OsString) :
    linuxLoop eventId clientId (Text.asBytes argument :: args) =
      linuxLoop (linuxEvent eventId argument) clientId args := by
  rw [linuxLoop.eq_def]
  simp only [Text.fromUtf8_asBytes, other, if_neg Bool.false_ne_true]

end

/-- From the same argument on, in states that are alike, both loops come to states that are. -/
theorem linuxLoop_portableLoop (args : List String) (i : Nat) (eventId : UInt8)
    (clientId : UInt16) :
    linuxLoop (shown eventId) clientId ((args.drop i).map Text.asBytes) =
      (shown (portableLoop args i eventId clientId).1,
        (portableLoop args i eventId clientId).2) := by
  fun_induction portableLoop args i eventId clientId with
  | case1 i eventId clientId inside arg followed ih =>
      obtain ⟨option, next⟩ := followed
      rw [List.drop_eq_getElem_cons inside, List.drop_eq_getElem_cons next, List.map_cons,
        List.map_cons, linuxLoop_client _ _ option, linuxClient_asBytes]
      exact ih
  | case2 i eventId clientId inside arg single ih =>
      rw [List.drop_eq_getElem_cons inside, List.map_cons]
      cases option : isClientOption args[i] with
      | true =>
          -- an option without a value: the one loop stops, the other finds no event in it
          have last : args.drop (i + 1) = [] := by
            refine List.drop_eq_nil_of_le ?_
            by_contra next
            exact single ⟨option, Nat.not_le.mp next⟩
          rw [last] at ih ⊢
          rw [List.map_nil, linuxLoop_last _ _ option, ← ih, portableEvent_of_option option]
          rfl
      | false =>
          rw [linuxLoop_event _ _ option, linuxEvent_shown]
          exact ih
  | case3 i eventId clientId outside =>
      rw [List.drop_eq_nil_of_le (Nat.not_lt.mp outside)]
      rfl

/-- Both readers resolve the same header of the same arguments. -/
theorem resolveHeader_agrees (args : List String) :
    resolveHeaderLinux (args.map Text.asBytes) = resolveHeaderPortable args := by
  have loops := linuxLoop_portableLoop (args.drop 1) 0 0 0
  rw [List.drop_zero] at loops
  rw [resolveHeaderLinux, resolveHeaderPortable, ← List.map_drop]
  have start : linuxLoop 255 0 ((args.drop 1).map Text.asBytes) = _ := loops
  rw [start]
  rfl

end AgentOtelBridge.HeaderArguments
