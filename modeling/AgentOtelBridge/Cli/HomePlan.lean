import AgentOtelBridge.Cli.HomePropose
import AgentOtelBridge.Cli.HookLiteral
import AgentOtelBridge.Cli.HookMerge
import AgentOtelBridge.Lib.FaultySettles
import AgentOtelBridge.Lib.JsonCode

/-!
# Plans for a HOME

`planNativeHooks` says what the hook files of some clients are to be.  A JSON file is
parsed, merged and printed; the extension of Pi is rendered from a template.  Parsing
and printing of JSON are parameters, of which only that they are inverse is known.

A plan changes no file, and is idempotent: when every file has what was planned, the
same plan changes nothing.  A JSON file differs from what it was only in what is owned.
-/

namespace AgentOtelBridge.HomeApply

open Faulty Json HookCommand HookMerge

/-! ## JSON files -/

/-- A parser and a printer of JSON.  Values are printed to a file with a newline. -/
structure JsonCodec where
  parse : List UInt8 → Except String Json.Value
  pretty : Json.Value → List UInt8
  compact : Json → String
  inverse : ∀ value, parse (pretty value ++ [10]) = .ok value

/-- `json!({})`. -/
def emptyObject : Json.Value := ⟨.obj [], .obj .nil fun _ h => absurd h List.not_mem_nil⟩

/-- The tag of a client in its commands. -/
def clientTag (client : String) : String :=
  match client with
  | "claude" => "claude"
  | "codex" => "codex"
  | "grok" => "grok"
  | "pi" => "pi"
  | _ => "agy"

/-- The command of an event for a client. -/
def clientCommand (client binary : String) (socket : Option String) (event : String) : String :=
  if client = "claude" then
    formatPosixClaudeHookCommand binary event (some (clientTag client)) socket
  else formatPosixHookCommand binary event (some (clientTag client)) socket

/-- The configuration of a client with its hooks. -/
def mergeClient (client : String) (command : String → String) (root : Json) : Except String Json :=
  match root with
  | .obj fields =>
    if client = "agy" ∨ client = "antigravity" then
      .ok (.obj (insertField "agent-otel-bridge" (antigravityBridgeHooks command) fields))
    else if client = "gemini-cli" then (mergeGeminiHooks command fields).map .obj
    else mergeFormattedHooks command root
  | _ => .error "Invalid native hook configuration; configuration unchanged"

/-! ## The extension of Pi -/

def piManaged : String := "// Managed by agent-otel-bridge."

/-- What `pi-extension.ts` has behind its first words. -/
def piBody : String := "\n".intercalate [
  " Native Pi event adapter; no model-visible output.",
  "import \x7b spawn \x7d from \"node:child_process\";",
  "",
  "const hook = __AGENT_OTEL_HOOK_PATH__;",
  "const socketEnv = __AGENT_OTEL_SOCKET_ENV__;",
  "export default function (pi: any) \x7b",
  "  const events = \x7b",
  "    session_start: \"PreInvocation\",",
  "    tool_call: \"PreToolUse\",",
  "    tool_result: \"PostToolUse\",",
  "    agent_end: \"Stop\",",
  "    session_shutdown: \"PostInvocation\",",
  "  \x7d;",
  "  for (const [source, target] of Object.entries(events)) \x7b",
  "    pi.on(source, (event: any, ctx: any) => \x7b",
  "      try \x7b",
  "        const payload = JSON.stringify(\x7b",
  "          session_id: ctx.sessionManager.getSessionId(),",
  "          cwd: ctx.cwd,",
  "          hook_event_name: target,",
  "          tool_name: event.toolName,",
  "          tool_input: event.input,",
  "          tool_use_id: event.toolCallId,",
  "          is_error: event.isError,",
  "        \x7d);",
  "        const child = spawn(hook, [target, \"--client\", \"pi\"], \x7b",
  "          windowsHide: true,",
  "          env: \x7b ...process.env, ...socketEnv \x7d,",
  "          stdio: [\"pipe\", \"ignore\", \"ignore\"],",
  "          timeout: 1000,",
  "        \x7d);",
  "        child.on(\"error\", () => \x7b\x7d);",
  "        child.stdin.on(\"error\", () => \x7b\x7d);",
  "        child.stdin.end(payload);",
  "        child.unref();",
  "      \x7d catch \x7b",
  "        // Telemetry must not block or change Pi tool execution.",
  "      \x7d",
  "    \x7d);",
  "  \x7d",
  "\x7d",
  ""]

def renderPiExtension (codec : JsonCodec) (binary : String) (socket : Option String) : String :=
  let hook := codec.compact (.str (Text.trimMatches [quotation] binary))
  let environment := codec.compact (match socket with
    | some socket => .obj [("AGENT_OTEL_SOCKET", .str socket)]
    | none => .obj [])
  Text.replace "__AGENT_OTEL_SOCKET_ENV__" environment
    (Text.replace "__AGENT_OTEL_HOOK_PATH__" hook (piManaged ++ piBody))

/-! ## The plan -/

theorem wellFormed_mergeClient {client : String} {command : String → String} {root root' : Json}
    (merged : mergeClient client command root = .ok root') (h : root.WellFormed) :
    root'.WellFormed := by
  cases root with
  | null | bool | num | str | arr => simp [mergeClient] at merged
  | obj fields =>
      unfold mergeClient at merged
      simp only at merged
      split at merged
      · obtain rfl := Except.ok.inj merged
        exact wellFormed_obj.mpr ((wellFormed_obj.mp h).insertField _
          (wellFormed_antigravityBridgeHooks command))
      · split at merged
        · cases gemini : mergeGeminiHooks command fields with
          | error error => simp [gemini, Except.map] at merged
          | ok fields' =>
              rw [gemini] at merged
              obtain rfl := Except.ok.inj merged
              exact wellFormed_obj.mpr (mergeGeminiHooks_wellFormed gemini (wellFormed_obj.mp h))
        · exact mergeFormattedHooks_wellFormed merged h

/-- The configuration of a client that is parsed with its hooks. -/
def mergeValue (client : String) (command : String → String) (root : Json.Value) : Except String Json.Value :=
  match merged : mergeClient client command root.val with
  | .ok root' => .ok ⟨root', wellFormed_mergeClient merged root.property⟩
  | .error error => .error error

theorem mergeValue_eq_ok {client : String} {command : String → String} {root root' : Json.Value} :
    mergeValue client command root = .ok root' ↔
      mergeClient client command root.val = .ok root'.val := by
  unfold mergeValue
  split
  next merged same =>
    constructor
    · intro ok
      obtain rfl := Except.ok.inj ok
      exact same
    · intro ok
      exact congrArg Except.ok (Subtype.ext (Except.ok.inj (same.symm.trans ok)))
  next error same =>
    constructor
    · intro ok
      cases ok
    · intro ok
      cases same.symm.trans ok

/-- The configuration of a client: the file, if it is there, or none. -/
def parseBefore (codec : JsonCodec) (before : Option (List UInt8)) : Except String Json.Value :=
  match before with
  | some bytes => codec.parse bytes
  | none => .ok emptyObject

/-- What `plan_home_hooks` makes of the file of a client. -/
def renderHooks (codec : JsonCodec) (client : String) (before : Option (List UInt8))
    (binary : Path) (socket : Option Path) : Except String (List UInt8) :=
  let binary := display binary
  let socket := socket.map display
  if client = "pi" then
    if before.any fun bytes => !(Text.asBytes piManaged).isPrefixOf bytes then
      .error "Refusing to replace an unowned Pi extension"
    else .ok (Text.asBytes (renderPiExtension codec binary socket))
  else do
    let root ← parseBefore codec before
    let root ← mergeValue client (clientCommand client binary socket) root
    .ok (codec.pretty root ++ [10])

/-- The paths of a plan are without NUL. -/
abbrev NoNul (binary : Path) (socket : Option Path) : Prop :=
  '\x00' ∉ (display binary).toList ∧
    (socket.map display).all fun socket => '\x00' ∉ socket.toList

/-- `plan_home_hooks` of paths that are absolute and UTF-8. -/
def planNativeHooks (codec : JsonCodec) (home : Path) (clients : List String) (binary : Path)
    (socket : Option Path) : Prog World (List HomeHookChange) := do
  ensure (NoNul binary socket) "Hook executable and socket cannot contain NUL"
  planHomeHooks (renderHooks codec) home clients binary socket

/-! ## What is rendered is settled -/

section

variable {codec : JsonCodec} {client : String} {binary : Path} {socket : Option Path}
  {command : String → String} {root root' : Json}

theorem bridgeEvents_subset : bridgeEvents ⊆ hookEvents := by decide

theorem clientTag_mem (client : String) : clientTag client ∈ hookClients := by
  unfold clientTag
  split <;> decide

theorem isBridgeCommand_clientCommand (hook : IsHook (display binary)) (client : String)
    (socket : Option String) {event : String} (event_ : event ∈ hookEvents) :
    isBridgeCommand (clientCommand client (display binary) socket event) = true := by
  unfold clientCommand
  split
  · exact isBridgeCommand_claude event_ (clientTag_mem client) hook socket
  · exact isBridgeCommand_posix event_ (clientTag_mem client) hook socket

theorem mergeClient_idempotent
    (accepted : ∀ event ∈ bridgeEvents, isBridgeCommand (command event) = true)
    (merged : mergeClient client command root = .ok root') :
    mergeClient client command root' = .ok root' := by
  cases root with
  | null | bool | num | str | arr => simp [mergeClient] at merged
  | obj fields =>
      unfold mergeClient at merged
      simp only at merged
      split at merged
      next agy =>
        obtain rfl := Except.ok.inj merged
        unfold mergeClient
        simp only [if_pos agy]
        rw [insertField_eq_self (getField_insertField_self ..)]
      next agy =>
        split at merged
        next gemini =>
          cases result : mergeGeminiHooks command fields with
          | error error => simp [result, Except.map] at merged
          | ok fields' =>
              rw [result] at merged
              obtain rfl := Except.ok.inj merged
              unfold mergeClient
              simp only [if_neg agy, if_pos gemini]
              rw [mergeGeminiHooks_idempotent result]
              rfl
        next gemini =>
          obtain ⟨fields', rfl, -⟩ := mergeFormattedHooks_kept accepted merged
          unfold mergeClient
          simp only [if_neg agy, if_neg gemini]
          exact mergeFormattedHooks_idempotent accepted merged

theorem piManaged_isPrefixOf (codec : JsonCodec) (binary : String) (socket : Option String) :
    (Text.asBytes piManaged).isPrefixOf (Text.asBytes (renderPiExtension codec binary socket)) =
      true := by
  have absent : '_' ∉ piManaged.toList := by decide
  obtain ⟨rest, same⟩ : ∃ rest, renderPiExtension codec binary socket = piManaged ++ rest := by
    unfold renderPiExtension
    simp only
    rw [Text.replace_append rfl _ _ _ absent, Text.replace_append rfl _ _ _ absent]
    exact ⟨_, rfl⟩
  rw [same, Text.asBytes_append, List.isPrefixOf_iff_prefix]
  exact List.prefix_append ..

/-- What is rendered for Pi. -/
theorem renderHooks_pi_eq_ok {before : Option (List UInt8)} {after : List UInt8} :
    renderHooks codec "pi" before binary socket = .ok after ↔
      (before.any fun bytes => !(Text.asBytes piManaged).isPrefixOf bytes) = false ∧
        after = Text.asBytes (renderPiExtension codec (display binary) (socket.map display)) := by
  unfold renderHooks
  simp only [if_true]
  generalize Text.asBytes (renderPiExtension codec (display binary) (socket.map display)) = text
  generalize Option.any _ before = refused
  cases refused with
  | true => simp
  | false => simp [eq_comm]

/-- What is rendered for a JSON file. -/
theorem renderHooks_eq_ok {before : Option (List UInt8)} {after : List UInt8} (json : client ≠ "pi") :
    renderHooks codec client before binary socket = .ok after ↔
      ∃ root root', parseBefore codec before = .ok root ∧
        mergeValue client (clientCommand client (display binary) (socket.map display)) root =
          .ok root' ∧ after = codec.pretty root' ++ [10] := by
  unfold renderHooks
  simp only [if_neg json]
  cases parsed : parseBefore codec before with
  | error error => simp [bind, Except.bind]
  | ok root =>
      cases merged : mergeValue client (clientCommand client (display binary) (socket.map display))
          root with
      | error error => simp [bind, Except.bind, merged]
      | ok root' =>
          simp only [bind, Except.bind, merged]
          constructor
          · intro ok
            exact ⟨root, root', rfl, merged, (Except.ok.inj ok).symm⟩
          · rintro ⟨root₁, root₂, same, merged', rfl⟩
            obtain rfl := Except.ok.inj same
            obtain rfl := Except.ok.inj (merged.symm.trans merged')
            rfl

/-- What is rendered for a client is rendered again as it is. -/
theorem renderHooks_settled (hook : IsHook (display binary)) (socket : Option Path) :
    Settled (renderHooks codec) binary socket := by
  intro client before after rendered
  by_cases pi : client = "pi"
  · subst pi
    have text := (renderHooks_pi_eq_ok.mp rendered).2
    refine renderHooks_pi_eq_ok.mpr ⟨?_, text⟩
    rw [text, Option.any_some, piManaged_isPrefixOf, Bool.not_true]
  · obtain ⟨root, root', -, merged, rfl⟩ := (renderHooks_eq_ok pi).mp rendered
    have again := mergeValue_eq_ok.mpr (mergeClient_idempotent (fun event member =>
      isBridgeCommand_clientCommand hook client (socket.map display)
        (bridgeEvents_subset member)) (mergeValue_eq_ok.mp merged))
    exact (renderHooks_eq_ok pi).mpr ⟨root', root', codec.inverse root', again, rfl⟩

/-! ## What a plan keeps -/

/-- The configuration of a client keeps what the bridge does not own. -/
def ClientKept (client : String) (fields fields' : Fields) : Prop :=
  if client = "agy" ∨ client = "antigravity" then
    without ["agent-otel-bridge"] fields' = without ["agent-otel-bridge"] fields
  else if client = "gemini-cli" then
    HookMerge.Kept (fun source => ownsName (geminiName source)) geminiSources [] fields fields'
  else HookMerge.Kept (fun _ => ownsCommand) bridgeEvents ["agent-otel-bridge"] fields fields'

/-- What is planned for a JSON file is a document that keeps what the bridge does not own. -/
def DocumentKept (codec : JsonCodec) (client : String) (change : HomeHookChange) : Prop :=
  ∃ root root' fields fields', parseBefore codec change.before = .ok root ∧
    change.after = codec.pretty root' ++ [10] ∧ root.val = .obj fields ∧ root'.val = .obj fields' ∧
    ClientKept client fields fields'

theorem mergeClient_kept
    (accepted : ∀ event ∈ bridgeEvents, isBridgeCommand (command event) = true)
    (merged : mergeClient client command root = .ok root') :
    ∃ fields fields', root = .obj fields ∧ root' = .obj fields' ∧ ClientKept client fields fields' := by
  cases root with
  | null | bool | num | str | arr => simp [mergeClient] at merged
  | obj fields =>
      unfold mergeClient at merged
      simp only at merged
      unfold ClientKept
      split at merged
      next agy =>
        obtain rfl := Except.ok.inj merged
        refine ⟨fields, _, rfl, rfl, ?_⟩
        rw [if_pos agy]
        exact without_insertField List.mem_cons_self _ fields
      next agy =>
        split at merged
        next gemini =>
          cases result : mergeGeminiHooks command fields with
          | error error => simp [result, Except.map] at merged
          | ok fields' =>
              rw [result] at merged
              obtain rfl := Except.ok.inj merged
              refine ⟨fields, fields', rfl, rfl, ?_⟩
              rw [if_neg agy, if_pos gemini]
              exact mergeGeminiHooks_kept result
        next gemini =>
          obtain ⟨fields', rfl, kept⟩ := mergeFormattedHooks_kept accepted merged
          refine ⟨fields, fields', rfl, rfl, ?_⟩
          rw [if_neg agy, if_neg gemini]
          exact kept

theorem Proposed.kept {home : Path} {files : Files} {change : HomeHookChange}
    (hook : IsHook (display binary)) (json : client ≠ "pi")
    (h : Proposed (renderHooks codec) home binary socket files client change) :
    DocumentKept codec client change := by
  obtain ⟨root, root', parsed, merged, after⟩ := (renderHooks_eq_ok json).mp h.after
  obtain ⟨fields, fields', old, new, kept⟩ := mergeClient_kept (fun event member =>
    isBridgeCommand_clientCommand hook client (socket.map display) (bridgeEvents_subset member))
    (mergeValue_eq_ok.mp merged)
  exact ⟨root, root', fields, fields', parsed, after, old, new, kept⟩

end

/-! ## A plan and the next one -/

section

variable {codec : JsonCodec} {home binary : Path} {clients : List String} {socket : Option Path}

/-- A plan of quiet reads, by the plan over the files there are. -/
theorem planNativeHooks_triple (codec : JsonCodec) (home : Path) (clients : List String)
    (binary : Path) (socket : Option Path) (w₀ : World) :
    Triple ReadFate.Quiet (fun w _ => w = w₀) (planNativeHooks codec home clients binary socket)
      (fun changes w _ => NoNul binary socket ∧ w = w₀ ∧
        propose (renderHooks codec) home binary socket w₀.files clients = .ok changes)
      (fun _ _ => ¬ NoNul binary socket ∨
        ∃ error, propose (renderHooks codec) home binary socket w₀.files clients = .error error)
      fun _ _ => True := by
  refine Triple.bind (Triple.ensure fun refused _ _ _ => .inl refused) fun _ => ?_
  refine Triple.of_pure fun named => ?_
  exact (planHomeHooks_triple clients w₀).conseq (fun _ _ => id) (fun _ _ _ h => ⟨named, h⟩)
    (fun _ _ h => .inr h.2) fun _ _ _ => trivial

/-- A plan changes no file, plans each path once, and keeps what the bridge does not own.
When its files are written, the next plan finds each of them as it is planned. -/
theorem planNativeHooks_settles (hook : IsHook (display binary)) {m m' : Faulty.Machine World}
    {changes : List HomeHookChange} (quiet : ∀ fate ∈ m.reads, fate.Quiet)
    (planned : planNativeHooks codec home clients binary socket m = (.ok changes, m')) :
    m'.world = m.world ∧ (changes.map HomeHookChange.path).Nodup ∧
      (∀ change ∈ changes, change.before = m.world.files change.path ∧
        ∃ client ∈ clients, ∃ relative, clientTarget client = some relative ∧
          change.path = home ++ relative ∧ (client ≠ "pi" → DocumentKept codec client change)) ∧
      ∀ n : Faulty.Machine World, (∀ fate ∈ n.reads, fate.Quiet) → Wrote n.world.files changes →
        (planNativeHooks codec home clients binary socket n).1 =
            .ok (changes.map HomeHookChange.settled) ∨
          (planNativeHooks codec home clients binary socket n).1 = .crash := by
  obtain ⟨-, first⟩ := planNativeHooks_triple codec home clients binary socket m.world m quiet rfl
  rw [planned] at first
  obtain ⟨named, same, proposed⟩ := first
  have proposal := propose_proposal proposed
  refine ⟨same, proposal.distinct, fun change member => ?_, fun n quiet' wrote => ?_⟩
  · obtain ⟨client, listed, change_⟩ := proposal.proposed change member
    obtain ⟨relative, target, path⟩ := change_.path
    exact ⟨change_.before, client, listed, relative, target, path, fun json =>
      change_.kept hook json⟩
  · have again := propose_settled (renderHooks_settled hook socket) proposed wrote
    obtain ⟨-, second⟩ := planNativeHooks_triple codec home clients binary socket n.world n quiet' rfl
    cases exit : (planNativeHooks codec home clients binary socket n).1 with
    | ok changes' =>
        rw [exit] at second
        exact .inl (congrArg Exit.ok (Except.ok.inj (second.2.2.symm.trans again)))
    | err error =>
        rw [exit] at second
        obtain refused | ⟨error, failed⟩ := second
        · exact absurd named refused
        · cases failed.symm.trans again
    | crash => exact .inr rfl

end

/-! ## A file of Codex -/

/-- What is planned for the configuration of Codex where there is none. -/
def codexDocument : Json :=
  let entry (event : String) : Json := .arr [.obj [
    ("command", .str ("\"/opt/agent-hook\" " ++ event ++ " --client codex")), ("timeout", .num "5"),
    ("type", .str "command")]]
  .obj [("hooks", .obj [
    ("PostToolUse", .arr [.obj [("hooks", entry "PostToolUse"), ("matcher", .str ".*")]]),
    ("PreToolUse", .arr [.obj [("hooks", entry "PreToolUse"), ("matcher", .str ".*")]]),
    ("Stop", .arr [.obj [("hooks", entry "Stop")]])])]

def codexText : String := "\n".intercalate [
  "\x7b",
  "  \"hooks\": \x7b",
  "    \"PostToolUse\": [",
  "      \x7b",
  "        \"hooks\": [",
  "          \x7b",
  "            \"command\": \"\\\"/opt/agent-hook\\\" PostToolUse --client codex\",",
  "            \"timeout\": 5,",
  "            \"type\": \"command\"",
  "          \x7d",
  "        ],",
  "        \"matcher\": \".*\"",
  "      \x7d",
  "    ],",
  "    \"PreToolUse\": [",
  "      \x7b",
  "        \"hooks\": [",
  "          \x7b",
  "            \"command\": \"\\\"/opt/agent-hook\\\" PreToolUse --client codex\",",
  "            \"timeout\": 5,",
  "            \"type\": \"command\"",
  "          \x7d",
  "        ],",
  "        \"matcher\": \".*\"",
  "      \x7d",
  "    ],",
  "    \"Stop\": [",
  "      \x7b",
  "        \"hooks\": [",
  "          \x7b",
  "            \"command\": \"\\\"/opt/agent-hook\\\" Stop --client codex\",",
  "            \"timeout\": 5,",
  "            \"type\": \"command\"",
  "          \x7d",
  "        ]",
  "      \x7d",
  "    ]",
  "  \x7d",
  "\x7d"]

/-- A printer that is right for this document, and injective. -/
def printCodex (value : Json.Value) : List UInt8 :=
  if value.val = codexDocument then Text.asBytes codexText
  else 0 :: List.replicate (code value.val) 1

theorem printCodex_injective {a b : Json.Value} (same : printCodex a = printCodex b) : a = b := by
  have apart : ∀ n, Text.asBytes codexText ≠ 0 :: List.replicate n 1 := fun n same => by
    have first := congrArg List.head? same
    have start : (Text.asBytes codexText).head? = some 123 := by decide +kernel
    rw [start] at first
    cases first
  unfold printCodex at same
  split at same
  next left =>
    split at same
    next right => exact Subtype.ext (left.trans right.symm)
    next right => exact absurd same (apart _)
  next left =>
    split at same
    next right => exact absurd same.symm (apart _)
    next right =>
      have length := congrArg List.length same
      simp only [List.length_cons, List.length_replicate, Nat.add_right_cancel_iff] at length
      exact Subtype.ext (code_injective _ _ length)

open Classical in
noncomputable def codexCodec : JsonCodec where
  parse bytes :=
    if printed : ∃ value, printCodex value ++ [10] = bytes then .ok printed.choose
    else .error "expected value at line 1 column 1"
  pretty := printCodex
  compact := fun _ => ""
  inverse value := by
    have printed : ∃ value', printCodex value' ++ [10] = printCodex value ++ [10] := ⟨value, rfl⟩
    rw [dif_pos printed]
    exact congrArg Except.ok (printCodex_injective (List.append_cancel_right printed.choose_spec))

def emptyHome : World where
  disk := fun _ => none
  journals := fun _ => none
  clock := 0
  pid := 1
  agentOtelSocket := none
  journal := ⟨1, ["home", "u"], ["opt", "agent-hook"], none, [], .prepared, false, []⟩
  attempted := 0
  applied := 0
  log := []

def codexChange : HomeHookChange :=
  ⟨["home", "u", ".codex", "hooks.json"], none, Text.asBytes codexText ++ [10]⟩

theorem mergeClient_codex : mergeClient "codex"
    (clientCommand "codex" (display ["opt", "agent-hook"]) none) (.obj []) = .ok codexDocument := by
  decide +kernel

def codexValue : Json.Value :=
  ⟨codexDocument, wellFormed_mergeClient mergeClient_codex emptyObject.property⟩

theorem printCodex_codexValue : printCodex codexValue = Text.asBytes codexText := if_pos rfl

theorem renderHooks_codex :
    renderHooks codexCodec "codex" none ["opt", "agent-hook"] none = .ok codexChange.after :=
  (renderHooks_eq_ok (by decide)).mpr ⟨emptyObject, codexValue, rfl,
    mergeValue_eq_ok.mpr mergeClient_codex, congrArg (· ++ [10]) printCodex_codexValue.symm⟩

theorem planNativeHooks_codex :
    planNativeHooks codexCodec ["home", "u"] ["codex"] ["opt", "agent-hook"] none
      ⟨emptyHome, [], [], 0⟩ = (.ok [codexChange], ⟨emptyHome, [], [], 0⟩) := by
  have named : NoNul ["opt", "agent-hook"] none := by decide
  have change : Settles (planClient (renderHooks codexCodec) ["home", "u"] ["opt", "agent-hook"] none []
      "codex") emptyHome (.ok [codexChange]) emptyHome := by
    refine Settles.bind (Settles.read_ok rfl) ?_
    rw [show (emptyHome.disk (["home", "u"] ++ [".codex", "hooks.json"])).map File.bytes = none from rfl,
      renderHooks_codex]
    exact Settles.pure _
  exact (Settles.bind (Settles.ensure named _) (Settles.bind change (Settles.pure _))) 0

theorem planNativeHooks_settles_codex :
    ([codexChange].map HomeHookChange.path).Nodup ∧
      ((planNativeHooks codexCodec ["home", "u"] ["codex"] ["opt", "agent-hook"] none
          ⟨emptyHome.put codexChange.path (some ⟨codexChange.after, 0o600⟩), [], [], 0⟩).1 =
          .ok [codexChange.settled] ∨
        (planNativeHooks codexCodec ["home", "u"] ["codex"] ["opt", "agent-hook"] none
          ⟨emptyHome.put codexChange.path (some ⟨codexChange.after, 0o600⟩), [], [], 0⟩).1 =
          .crash) := by
  obtain ⟨-, distinct, -, again⟩ := planNativeHooks_settles ⟨by decide, by decide⟩
    (fun _ h => absurd h List.not_mem_nil) planNativeHooks_codex
  refine ⟨distinct, again _ (fun _ h => absurd h List.not_mem_nil) fun change member => ?_⟩
  rw [List.mem_singleton.mp member]
  simp [World.files, World.put]

end AgentOtelBridge.HomeApply
