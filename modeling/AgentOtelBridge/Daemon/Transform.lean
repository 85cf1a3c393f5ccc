import AgentOtelBridge.Core.Otlp
import AgentOtelBridge.Daemon.Conservation
import AgentOtelBridge.Daemon.ContextCache
import AgentOtelBridge.Ipc.Envelope
import AgentOtelBridge.Ipc.Server
import AgentOtelBridge.Lib.UnixPath

/-!
# The transformation of a frame

`production_transform_with_workspace` decodes a frame, reads its hook input, fills
it from the context cache, hides its paths and builds its span.  The parser of the
payload, the hash and what the cache answers are parameters.

`prepare` is the transformation without the span, which only the salt is missing
for.  A run of the loop numbers the frames that can be prepared: that is
`transformRun`, and the events of a daemon are those of such a run
(`Daemon.reachable_transformed`).
-/

namespace AgentOtelBridge

open Semconv ContextCache
open Text (asBytes)
open Ipc (IngressFrame)

/-! ## Workspace paths -/

inductive WorkspacePathMode where
  | absolute
  | relative
  | hash
deriving DecidableEq, Repr

def hexDigits : List Char := "0123456789abcdef".toList

def sha256Hex (sha256 : List UInt8 → List UInt8) (value : String) : String :=
  .ofList ((sha256 (asBytes value)).flatMap fun (byte : UInt8) =>
    [hexDigits.getD (byte >>> 4).toNat '0', hexDigits.getD (byte &&& 0x0f).toNat '0'])

/-- The path from the root, if the path is below it. -/
def relativeWorkspacePath (path root : String) : Option String :=
  (UnixPath.stripPrefix path.toList root.toList).map fun relative =>
    if relative = [] then "." else .ofList relative

def finalPathComponent (path : String) : Option String :=
  ((UnixPath.fileName path.toList).filter fun name => name ≠ []).map String.ofList

def applyRelativeWorkspace (input : AgentHookInput) : AgentHookInput :=
  { input with
    workspacePath :=
      match input.workspacePath, input.projectRoot with
      | some path, some root => relativeWorkspacePath path root
      | some _, none => none
      | none, _ => none
    projectRoot := input.projectRoot.bind finalPathComponent }

def applyWorkspacePathMode (sha256 : List UInt8 → List UInt8) (mode : WorkspacePathMode)
    (input : AgentHookInput) : AgentHookInput :=
  match mode with
  | .absolute => input
  | .relative => applyRelativeWorkspace input
  | .hash =>
      { input with
        workspacePath := input.workspacePath.map (sha256Hex sha256)
        projectRoot := input.projectRoot.map (sha256Hex sha256) }

/-! ## Preparing an event -/

inductive TransformError where
  | invalidEnvelope
  | invalidJson
deriving DecidableEq, Repr

/-- `Display` of the error. -/
def TransformError.display : TransformError → String
  | .invalidEnvelope => "invalid wire frame envelope"
  | .invalidJson => "failed to parse hook json payload"

structure ParsedEventMeta where
  agentName : Option String
  totalTokens : Option Nat
deriving DecidableEq, Repr

/-- The hash and the parser a transformation uses, and its settings. -/
structure Transformer where
  sha256 : List UInt8 → List UInt8
  parseSlice : List UInt8 → Option AgentHookInput
  mode : ExecutionMode
  aliases : Bool
  experimental : Bool
  metadata : ResolvedSpanMetadata
  pathMode : WorkspacePathMode

/-- A frame when its turn comes: what the cache answers then, and the two times that
are read, one of them for a trace id without a conversation. -/
structure Arrival where
  frame : IngressFrame
  contexts : AgentHookInput → ContextLookup WorkspaceContext
  traceNow : Nat
  now : Nat

/-- What the context cache had to do with an event. -/
structure ContextReport where
  state : String
  source : String
  ageMs : Option Int
deriving DecidableEq, Repr

def ContextReport.slots (report : ContextReport) : List Slot :=
  [.string "agent.context.state" (some report.state),
    .string "agent.context.source" (some report.source),
    .int "agent.context.age_ms" report.ageMs]

/-- An event without its span. -/
structure Prepared where
  event : HookEvent
  /-- The input as the span reports it. -/
  input : AgentHookInput
  context : ResolvedTraceContext
  eventMeta : ParsedEventMeta
  report : ContextReport
  now : Nat

def i64Max : Int := 2 ^ 63 - 1

/-- The saturating sum of the two counts, at least zero. -/
def totalTokens (input : AgentHookInput) : Option Nat :=
  match input.inputTokens, input.outputTokens with
  | none, none => none
  | a, b => some (max 0 (min i64Max (max (-i64Max - 1) (a.getD 0 + b.getD 0)))).toNat

/-- The event of the wire, or the one that the payload names. -/
def resolveEvent (eventId : UInt8) (input : AgentHookInput) : HookEvent :=
  if HookEvent.fromWire eventId = .unknown then
    input.hookEventName.elim .unknown HookEvent.fromStrName
  else HookEvent.fromWire eventId

/-- The input with the agent of the wire and the mode of the daemon behind its own. -/
def addressed (clientId : UInt16) (mode : ExecutionMode) (input : AgentHookInput) :
    AgentHookInput :=
  { input with
    agentName := input.agentName.or (ClientKind.fromWire clientId).asStr
    executionMode := input.executionMode.or (some mode) }

/-- What is said about the context of an event. -/
def contextReport (lookup : ContextLookup WorkspaceContext) (input : AgentHookInput) :
    ContextReport :=
  let provided := lookup.context.isNone &&
    input.workspacePath.any fun path => UnixPath.isAbsolute path.toList
  { state :=
      if provided then "provided"
      else
        match lookup.state with
        | .fresh => "fresh"
        | .stale => "stale"
        | .missing => "missing"
    source :=
      if lookup.context.isSome then "workspace_cache" else if provided then "event" else "none"
    ageMs :=
      if !provided && lookup.context.isSome then
        lookup.age.map fun age => min (age / 1000000 : Nat) i64Max
      else none }

namespace Transformer

variable (T : Transformer)

/-- The transformation up to the span. -/
def prepare (a : Arrival) : Except TransformError Prepared :=
  match Ipc.decodeWirePayload a.frame.msgType a.frame.payload with
  | none => .error .invalidEnvelope
  | some (header, traceparent, bytes) =>
      match T.parseSlice bytes with
      | none => .error .invalidJson
      | some parsed =>
          let input := addressed header.clientId T.mode parsed
          let lookup := a.contexts input
          let normalized := input.normalizeWithContext lookup.context
          .ok {
            event := resolveEvent header.eventId parsed
            input := applyWorkspacePathMode T.sha256 T.pathMode normalized
            context :=
              resolveTraceContext T.sha256 a.traceNow input.traceparent traceparent
                input.conversationId
            eventMeta := ⟨input.agentName, totalTokens input⟩
            report := contextReport lookup normalized
            now := a.now }

/-- The span of a prepared event. -/
def span (salt : UInt32) (p : Prepared) : Span :=
  let built := buildSpanFromResolved T.sha256 p.event p.input p.now p.now salt p.context T.metadata
    T.aliases T.experimental
  { built with attributes := built.attributes ++ attributesOf p.report.slots }

/-- `production_transform_with_workspace`. -/
def productionTransformWithWorkspace (salt : UInt32) (a : Arrival) :
    Except TransformError Outcome :=
  (T.prepare a).map fun p => ⟨T.span salt p, p.eventMeta.agentName, p.eventMeta.totalTokens⟩

/-- The salts and events of a run that starts after a salt: only an event that could
be prepared takes the next salt. -/
def transformRun : UInt32 → List Arrival → List (UInt32 × Prepared)
  | _, [] => []
  | salt, a :: arrivals =>
      match T.prepare a with
      | .ok p => (salt + 1, p) :: transformRun (salt + 1) arrivals
      | .error _ => transformRun salt arrivals

variable {T}

theorem transformRun_cons_ok {a : Arrival} {p : Prepared} (prepared : T.prepare a = .ok p)
    (salt : UInt32) (arrivals : List Arrival) :
    T.transformRun salt (a :: arrivals) = (salt + 1, p) :: T.transformRun (salt + 1) arrivals := by
  rw [transformRun, prepared]

theorem transformRun_cons_error {a : Arrival} {error : TransformError}
    (refused : T.prepare a = .error error) (salt : UInt32) (arrivals : List Arrival) :
    T.transformRun salt (a :: arrivals) = T.transformRun salt arrivals := by
  rw [transformRun, refused]

theorem salt_add_succ (salt : UInt32) (n : Nat) : salt + 1 + .ofNat n = salt + .ofNat (n + 1) := by
  rw [UInt32.add_assoc, UInt32.add_comm 1, UInt32.ofNat_add]
  rfl

theorem transformRun_append (arrivals more : List Arrival) (salt : UInt32) :
    T.transformRun salt (arrivals ++ more) =
      T.transformRun salt arrivals ++
        T.transformRun (salt + .ofNat (T.transformRun salt arrivals).length) more := by
  induction arrivals generalizing salt with
  | nil => simp [transformRun]
  | cons a arrivals ih =>
      cases prepared : T.prepare a with
      | error error =>
          rw [List.cons_append, transformRun_cons_error prepared, transformRun_cons_error prepared, ih]
      | ok p =>
          rw [List.cons_append, transformRun_cons_ok prepared, transformRun_cons_ok prepared, ih,
            List.length_cons, List.cons_append, salt_add_succ]

/-- The events of a run are numbered from the first on. -/
theorem transformRun_salt {arrivals : List Arrival} {salt : UInt32} {k : Nat}
    {entry : UInt32 × Prepared} (at_ : (T.transformRun salt arrivals)[k]? = some entry) :
    entry.1 = salt + .ofNat (k + 1) := by
  induction arrivals generalizing salt k with
  | nil => cases at_
  | cons a arrivals ih =>
      cases prepared : T.prepare a with
      | error error =>
          rw [transformRun_cons_error prepared] at at_
          exact ih at_
      | ok p =>
          rw [transformRun_cons_ok prepared] at at_
          cases k with
          | zero =>
              obtain rfl : (salt + 1, p) = entry := Option.some.inj at_
              rfl
          | succ k => rw [ih (by simpa using at_), salt_add_succ]

end Transformer

/-! ## A small conversation -/

/-- The hash at the texts of a small conversation. -/
def sampleHash (text : List UInt8) : List UInt8 :=
  if text = asBytes "agy-otel:trace_id:c" then
    [195, 88, 201, 56, 143, 144, 235, 142, 121, 84, 238, 113, 34, 74, 64, 133, 152, 236, 171, 232,
      90, 246, 163, 249, 254, 251, 174, 177, 60, 206, 214, 206]
  else if text = asBytes "agy-otel:span_id:c::PreInvocation::salt:" ++ [1, 0, 0, 0] then
    [146, 82, 172, 66, 124, 13, 35, 19, 184, 198, 29, 44, 153, 28, 192, 132, 119, 75, 61, 102, 42,
      228, 82, 118, 160, 179, 36, 248, 193, 141, 234, 214]
  else if text = asBytes "agy-otel:span_id:c::Stop::salt:" ++ [2, 0, 0, 0] then
    [253, 33, 17, 105, 203, 218, 120, 7, 254, 166, 48, 143, 142, 192, 238, 34, 238, 182, 8, 128,
      220, 134, 101, 35, 44, 66, 153, 61, 130, 168, 102, 185]
  else []

/-- What transforms one payload. -/
def sampleTransformer (payload : List UInt8) (parsed : AgentHookInput)
    (pathMode : WorkspacePathMode) : Transformer where
  sha256 := sampleHash
  parseSlice bytes := if bytes = payload then some parsed else none
  mode := .interactive
  aliases := false
  experimental := false
  metadata := {}
  pathMode := pathMode

/-- A hook with a payload, which no context is known for. -/
def sampleArrival (payload : List UInt8) (eventId : UInt8) : Arrival where
  frame := ⟨.hookPayload, WireHeader.encode ⟨2, eventId⟩ ++ payload, 0⟩
  contexts _ := ⟨none, .missing, none, .invalidWorkspace⟩
  traceNow := 0
  now := 0

/-! ## The events of a daemon -/

/-- What a frame becomes under a salt. -/
def Transformer.Produces (T : Transformer) (frame : IngressFrame) (salt : Nat)
    (result : Except String Outcome) : Prop :=
  ∃ a : Arrival, a.frame = frame ∧
    result = (T.productionTransformWithWorkspace (.ofNat salt) a).mapError TransformError.display

namespace Daemon

open Transition

variable {ρ : Type*} {T : Transformer} {d : Daemon IngressFrame ρ}

/-- The events are those of a run of transformations, and the salt is their number. -/
def Numbered (T : Transformer) (d : Daemon IngressFrame ρ) : Prop :=
  ∃ arrivals, d.events.map (·.item) = (T.transformRun 0 arrivals).map (fun e => T.span e.1 e.2) ∧
    d.salt = (T.transformRun 0 arrivals).length % 2 ^ 32

theorem Numbered.of_eq {d' : Daemon IngressFrame ρ} (h : d.Numbered T)
    (events : d'.events = d.events) (salt : d'.salt = d.salt) : d'.Numbered T := by
  unfold Numbered
  rw [events, salt]
  exact h

theorem Numbered.transform (h : d.Numbered T) (quotas : Option Quotas) {frame : IngressFrame}
    {result : Except String Outcome} (produced : T.Produces frame d.nextSalt result)
    (ord : FiniteMap.IterOrder PairKey) (now : Nat) :
    (d.transform quotas result ord now).Numbered T := by
  obtain ⟨a, -, rfl⟩ := produced
  obtain ⟨arrivals, events, salt⟩ := h
  unfold Transformer.productionTransformWithWorkspace
  cases prepared : T.prepare a with
  | error error => exact ⟨arrivals, events, salt⟩
  | ok p =>
      obtain ⟨dropped, transformed⟩ := d.transform_ok quotas
        ⟨T.span (.ofNat d.nextSalt) p, p.eventMeta.agentName, p.eventMeta.totalTokens⟩ ord now
      have last : T.transformRun 0 (arrivals ++ [a]) =
          T.transformRun 0 arrivals ++ [(.ofNat d.nextSalt, p)] := by
        have salts : (0 : UInt32) + .ofNat (T.transformRun 0 arrivals).length + 1 =
            .ofNat d.nextSalt := by
          apply UInt32.toNat_inj.mp
          simp [nextSalt, salt]
        rw [Transformer.transformRun_append, Transformer.transformRun_cons_ok prepared, salts]
        rfl
      show Numbered T (d.transform quotas (.ok _) ord now)
      rw [transformed]
      refine ⟨arrivals ++ [a], ?_, ?_⟩
      · rw [last, List.map_append, List.map_append, events]
        rfl
      · rw [last, List.length_append, List.length_singleton]
        simp [nextSalt, salt]

theorem Step.numbered [Message ρ] {timeout : Nat} {d' : Daemon IngressFrame ρ}
    (step : Step T.Produces timeout d d') (h : d.Numbered T) : d'.Numbered T := by
  cases step with
  | @frame frame rest outcome hp hf hn hi quotas ho ord now =>
      have taken : Numbered T { d with inbox := rest, processed := d.processed + 1 } :=
        h.of_eq rfl rfl
      exact taken.transform (some quotas) ho ord now
  | @drain frame rest outcome hp hf hi ho ord now =>
      have taken : Numbered T { d with inbox := rest } := h.of_eq rfl rfl
      exact taken.transform none ho ord now
  | @push span rest hs hr now =>
      unfold Daemon.push
      split <;> exact h.of_eq rfl rfl
  | arrive | pause | tick | enqueue | stop | close | dropFrame | flush | dropQueue | recv | finish
  | workerEnds | abort | finished => exact h.of_eq rfl rfl

/-- The spans of the events that a daemon has transformed are those of a run that
starts with no salt. -/
theorem reachable_transformed [Message ρ] {timeout : Nat} {resource : ρ} {batchSize : Nat} {schemaUrl : String}
    (h : Reachable (· = start resource batchSize schemaUrl) (Step T.Produces timeout) d) :
    ∃ arrivals, d.events.map (·.item) =
      (T.transformRun 0 arrivals).map fun e => T.span e.1 e.2 := by
  have numbered : d.Numbered T :=
    h.invariant (fun _ hd => hd ▸ ⟨[], rfl, rfl⟩) fun _ _ hi hs => hs.numbered hi
  obtain ⟨arrivals, events, -⟩ := numbered
  exact ⟨arrivals, events⟩

end Daemon

end AgentOtelBridge
