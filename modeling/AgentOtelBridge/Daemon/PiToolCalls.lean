import AgentOtelBridge.Core.HookPayload
import AgentOtelBridge.Daemon.SpanCoherence
import AgentOtelBridge.Daemon.WorkspacePrivacy
import AgentOtelBridge.Lib.PairBufferPairing

/-!
# The tool calls of Pi

The extension of Pi reports each tool call and each result as a payload with the id of
the call and, for a result, whether it is an error.  The daemon reads neither: no field
of a hook has such a key.  A call is paired by its session and its tool, and no paired
span has failed.

So a result is paired with its call exactly when no other event of the tool came between
them, and its status is right exactly when it is not an error.
-/

namespace AgentOtelBridge

open Semconv FiniteMap PairBuffer Json

/-! ## The extension -/

/-- An event of Pi about a tool.  An input may be undefined. -/
inductive PiEvent where
  | toolCall (id tool : String) (input : Option Json)
  | toolResult (id tool : String) (input : Option Json) (isError : Bool)
deriving DecidableEq, Repr

namespace PiEvent

/-- `toolCallId`. -/
def id : PiEvent → String
  | .toolCall id _ _ | .toolResult id _ _ _ => id

/-- `toolName`. -/
def tool : PiEvent → String
  | .toolCall _ tool _ | .toolResult _ tool _ _ => tool

def input : PiEvent → Option Json
  | .toolCall _ _ input | .toolResult _ _ input _ => input

/-- `isError`, which is undefined for a call. -/
def isError : PiEvent → Option Bool
  | .toolCall .. => none
  | .toolResult _ _ _ isError => some isError

/-- The hook event that an event is reported as. -/
def target : PiEvent → HookEvent
  | .toolCall .. => .preToolUse
  | .toolResult .. => .postToolUse

/-- The object of `JSON.stringify`, which leaves out what is undefined. -/
def payload (session cwd : String) (event : PiEvent) : Fields :=
  [("session_id", .str session), ("cwd", .str cwd), ("hook_event_name", .str event.target.asStr),
    ("tool_name", .str event.tool)] ++
    event.input.toList.map (fun input => ("tool_input", input)) ++ [("tool_use_id", .str event.id)] ++
    event.isError.toList.map fun isError => ("is_error", .bool isError)

/-- The byte of the event in the header. -/
def eventId : PiEvent → UInt8
  | .toolCall .. => 3
  | .toolResult .. => 4

/-- What the daemon reads of a payload. -/
def read (session : String) (event : PiEvent) : AgentHookInput where
  conversationId := some session
  hookEventName := some event.target.asStr
  toolName := some event.tool
  toolInput := event.input.filter fun input => input ≠ .null

/-- Neither the id of a call nor the error of a result is read. -/
theorem deserialize_payload (float : String → UInt64) (session cwd : String) (event : PiEvent) :
    AgentHookInput.deserialize float (event.payload session cwd) = .ok (event.read session) := by
  cases event with
  | toolCall id tool input =>
      cases input with
      | none => rfl
      | some value => cases value <;> rfl
  | toolResult id tool input isError =>
      cases input with
      | none => rfl
      | some value => cases value <;> rfl

end PiEvent

/-! ## The spans of the events -/

/-- The fields that say which tool call an event is about, and how it ended. -/
def AgentHookInput.identity (input : AgentHookInput) :=
  (input.conversationId, input.stepIdx, input.toolCall, input.toolName, input.error)

theorem identity_normalize (input : AgentHookInput) (ctx : Option WorkspaceContext) :
    (input.normalizeWithContext ctx).identity = input.identity := by
  have capability : ∀ (input : AgentHookInput) tool,
      (input.classifyCapability tool).identity = input.identity := by
    intro input tool
    unfold AgentHookInput.classifyCapability
    split <;> rfl
  have archetype : ∀ (input : AgentHookInput) tool cmd,
      (input.classifyArchetype tool cmd).identity = input.identity := by
    intro input tool cmd
    unfold AgentHookInput.classifyArchetype
    split <;> rfl
  have classification : ∀ input : AgentHookInput,
      input.normalizeClassificationAndErrors.identity = input.identity := by
    intro input
    unfold AgentHookInput.normalizeClassificationAndErrors
    cases input.resolvedToolName with
    | none =>
        simp only
        split <;> rfl
    | some tool =>
        have classified := (archetype (input.classifyCapability tool) tool input.commandText).trans
          (capability input tool)
        simp only
        split <;> exact classified
  cases ctx with
  | none => exact classification input
  | some ctx => exact classification (input.fillWorkspace ctx)

theorem identity_applyWorkspacePathMode (sha256 : List UInt8 → List UInt8) (mode : WorkspacePathMode)
    (input : AgentHookInput) : (applyWorkspacePathMode sha256 mode input).identity = input.identity := by
  cases mode <;> rfl

/-- An event of a session reaches the assembler as a span: its payload is parsed, as
JSON is, and transformed. -/
def Sent (T : Transformer) (float : String → UInt64) (stringify : Json → List UInt8)
    (session cwd : String) (event : PiEvent) (e : Event PairKey Span) : Prop :=
  ∃ a salt traceparent outcome,
    Ipc.decodeWirePayload a.frame.msgType a.frame.payload =
      some (⟨5, event.eventId⟩, traceparent, stringify (.obj (event.payload session cwd))) ∧
    T.parseSlice (stringify (.obj (event.payload session cwd))) =
      (AgentHookInput.deserialize float (event.payload session cwd)).toOption ∧
    T.productionTransformWithWorkspace salt a = .ok outcome ∧ e.item = outcome.span

/-- The key of a tool in a session. -/
def toolOf (session tool : String) : PairKey := .toolFallback session none tool

/-- The keys of the attributes about the context. -/
def reportKeys : List String := ["agent.context.state", "agent.context.source", "agent.context.age_ms"]

/-- What an event does to the assembler. -/
def PiEvent.action (session : String) (event : PiEvent) : Action PairKey :=
  match event with
  | .toolCall _ tool _ => .open (toolOf session tool)
  | .toolResult _ tool _ _ => .close (toolOf session tool)

theorem Transformer.attrStr_span (T : Transformer) (salt : UInt32) (p : Prepared) {key : String}
    {value : Option String}
    (present : .string key value ∈ spanSlots p.event p.input T.metadata T.aliases T.experimental)
    (other : key ∉ reportKeys) : (T.span salt p).attrStr key = value := by
  have found := T.findAttr_span salt p _ present other
  show ((T.span salt p).findAttr key).bind KeyValue.str? = _
  rw [show (T.span salt p).findAttr key = _ from found]
  cases value <;> rfl

/-- An unsigned field that is absent has no attribute. -/
theorem Transformer.attrInt_span_none (T : Transformer) (salt : UInt32) (p : Prepared) {key : String}
    (present : .uint64 key none ∈ spanSlots p.event p.input T.metadata T.aliases T.experimental)
    (other : key ∉ reportKeys) : (T.span salt p).attrInt key = none := by
  have found := T.findAttr_span salt p _ present other
  show ((T.span salt p).findAttr key).bind KeyValue.int? = _
  rw [show (T.span salt p).findAttr key = _ from found]
  rfl

section

variable {T : Transformer} {float : String → UInt64} {stringify : Json → List UInt8}
  {session cwd : String} {event : PiEvent} {e : Event PairKey Span}

/-- A span is that of an input with the identity of what was read. -/
theorem Sent.span (sent : Sent T float stringify session cwd event e) :
    ∃ salt p, e.item = T.span salt p ∧ p.event = event.target ∧
      p.input.identity = (event.read session).identity := by
  obtain ⟨a, salt, traceparent, outcome, decoded, parsed, transformed, item⟩ := sent
  rw [PiEvent.deserialize_payload] at parsed
  unfold Transformer.productionTransformWithWorkspace Transformer.prepare at transformed
  rw [decoded] at transformed
  simp only [parsed, Except.toOption, Except.map] at transformed
  obtain rfl := Except.ok.inj transformed
  refine ⟨salt, _, item, ?_, ?_⟩
  · cases event <;> rfl
  · exact (identity_applyWorkspacePathMode _ _ _).trans (identity_normalize _ _)

/-- An event opens or closes the key of its tool, and its span has not failed. -/
theorem Sent.classify (sent : Sent T float stringify session cwd event e) :
    classify e.item = event.action session ∧ ¬ e.item.failed := by
  obtain ⟨salt, p, item, target, identity⟩ := sent.span
  rw [item]
  simp only [AgentHookInput.identity, PiEvent.read, Prod.mk.injEq] at identity
  obtain ⟨conversation, step, call, tool, error⟩ := identity
  have resolved : p.input.resolvedToolName = some event.tool := by
    rw [AgentHookInput.resolvedToolName, call, tool]
    rfl
  have noId : p.input.resolvedToolCallId = none := by
    rw [AgentHookInput.resolvedToolCallId, call]
    rfl
  have hook : (T.span salt p).attrStr agentHookEvent = some p.event.asStr :=
    T.attrStr_span salt p (by simp [spanSlots, agentSlots]) (by decide)
  have id_ : (T.span salt p).attrStr genAiToolCallId = none :=
    T.attrStr_span salt p (by simp [spanSlots, hookSlots, noId]) (by decide)
  have conversation_ : (T.span salt p).attrStr genAiConversationId = some session :=
    T.attrStr_span salt p (by simp [spanSlots, hookSlots, conversation]) (by decide)
  have tool_ : (T.span salt p).attrStr genAiToolName = some event.tool :=
    T.attrStr_span salt p (by simp [spanSlots, hookSlots, resolved]) (by decide)
  have step_ : (T.span salt p).attrInt agentStepIndex = none :=
    T.attrInt_span_none salt p (by simp [spanSlots, hookSlots, step]) (by decide)
  have key : toolKey (T.span salt p) = toolOf session event.tool := by
    unfold toolKey toolCallId
    rw [id_, conversation_, tool_, step_]
    rfl
  constructor
  · unfold AgentOtelBridge.classify hookEvent
    rw [hook, key, Option.map_some, HookEvent.fromStrName_asStr, target]
    cases event <;> rfl
  · unfold Span.failed
    show ¬ (some (spanStatus p.input.error T.experimental)).map Status.code = some statusError
    rw [error]
    cases T.experimental <;> decide

end

/-! ## Sessions -/

/-- The ids of the calls of a session. -/
def callIds (events : List PiEvent) : List String :=
  events.filterMap fun
    | .toolCall id _ _ => some id
    | .toolResult .. => none

def resultIds (events : List PiEvent) : List String :=
  events.filterMap fun
    | .toolCall .. => none
    | .toolResult id _ _ _ => some id

/-- The calls without a result. -/
def openCalls (events : List PiEvent) : List String :=
  (callIds events).filter fun id => id ∉ resultIds events

/-- The events of a session: the calls have distinct ids, and a result is that of a call
before it, of the same tool. -/
structure Session (events : List PiEvent) : Prop where
  distinct : (callIds events).Nodup
  called : ∀ (j : ℕ) id tool input isError, events[j]? = some (.toolResult id tool input isError) →
    ∃ (i : ℕ) (input' : Option Json), i < j ∧ events[i]? = some (.toolCall id tool input')

/-- A session whose events reach an assembler in their order, below its capacity and its
time to live. -/
structure PiRun (T : Transformer) (float : String → UInt64) (stringify : Json → List UInt8)
    (session cwd : String) (capacity ttl : ℕ) (events : List PiEvent)
    (es : List (Event PairKey Span)) : Prop where
  wellFormed : Session events
  sent : List.Forall₂ (Sent T float stringify session cwd) events es
  ordered : es.Pairwise fun e e' => e.now ≤ e'.now
  capacity : ∀ n, (openCalls (events.take n)).length ≤ capacity
  ttl : ∀ (i j : ℕ) id tool input tool' input' isError e e',
    events[i]? = some (.toolCall id tool input) →
      events[j]? = some (.toolResult id tool' input' isError) →
        es[i]? = some e → es[j]? = some e' → e'.now - e.now < ttl

/-- What an assembler emits, by the positions of the spans behind it. -/
def SpanAssembler.trace (capacity ttl : ℕ) (es : List (Event PairKey Span)) : List (Emission Span) :=
  (traceRun rules (SpanAssembler.new capacity ttl).config es).1

theorem SpanAssembler.run_emits (capacity ttl : ℕ) (es : List (Event PairKey Span)) :
    ((SpanAssembler.new capacity ttl).run es).1 =
      (SpanAssembler.trace capacity ttl es).flatMap rules.render := by
  rw [SpanAssembler.run_eq]
  exact congrArg Prod.fst (run_trace rules _ es)

/-- Every result is paired with the call of its id, and the pair has failed exactly when
the result is an error. -/
def PairsCalls (events : List PiEvent) (trace : List (Emission Span)) : Prop :=
  ∀ (j : ℕ) id tool input isError, events[j]? = some (.toolResult id tool input isError) →
    ∃ (i : ℕ) (tool' : String) (input' : Option Json) (x y : Span),
      events[i]? = some (.toolCall id tool' input') ∧
      .paired i x j y ∈ trace ∧ ((pair x y).failed ↔ isError = true)

/-- No result is an error, and no event of a tool comes between a call and its result. -/
def Solitary (events : List PiEvent) : Prop :=
  ∀ (i j : ℕ) id tool tool' input input' isError, events[i]? = some (.toolCall id tool input) →
    events[j]? = some (.toolResult id tool' input' isError) →
      isError = false ∧ ∀ (m : ℕ) event, i < m → m < j → events[m]? = some event → event.tool ≠ tool

section

variable {T : Transformer} {float : String → UInt64} {stringify : Json → List UInt8}
  {session cwd : String} {capacity ttl : ℕ} {events : List PiEvent} {es : List (Event PairKey Span)}

theorem mem_callIds {id : String} : id ∈ callIds events ↔ ∃ (i : ℕ) (tool : String) (input : Option Json),
    events[i]? = some (.toolCall id tool input) := by
  unfold callIds
  rw [List.mem_filterMap]
  constructor
  · rintro ⟨event, member, same⟩
    obtain ⟨i, at_⟩ := List.mem_iff_getElem?.mp member
    cases event with
    | toolCall id' tool input =>
        obtain rfl := Option.some.inj same
        exact ⟨i, tool, input, at_⟩
    | toolResult => cases same
  · rintro ⟨i, tool, input, at_⟩
    exact ⟨_, List.mem_of_getElem? at_, rfl⟩

theorem mem_resultIds {id : String} : id ∈ resultIds events ↔
    ∃ (j : ℕ) (tool : String) (input : Option Json) (isError : Bool), events[j]? = some (.toolResult id tool input isError) := by
  unfold resultIds
  rw [List.mem_filterMap]
  constructor
  · rintro ⟨event, member, same⟩
    obtain ⟨j, at_⟩ := List.mem_iff_getElem?.mp member
    cases event with
    | toolCall => cases same
    | toolResult id' tool input isError =>
        obtain rfl := Option.some.inj same
        exact ⟨j, tool, input, isError, at_⟩
  · rintro ⟨j, tool, input, isError, at_⟩
    exact ⟨_, List.mem_of_getElem? at_, rfl⟩

/-- A call has its id for itself. -/
theorem Session.call_unique (h : Session events) {i i' : ℕ} {id tool tool' : String}
    {input input' : Option Json} (at_ : events[i]? = some (.toolCall id tool input))
    (at' : events[i']? = some (.toolCall id tool' input')) : i = i' := by
  have pairs := List.pairwise_iff_getElem.mp (List.pairwise_filterMap.mp h.distinct)
  obtain ⟨bound, at_⟩ := List.getElem?_eq_some_iff.mp at_
  obtain ⟨bound', at'⟩ := List.getElem?_eq_some_iff.mp at'
  rcases Nat.lt_trichotomy i i' with before | same | behind
  · exact absurd rfl (pairs i i' bound bound' before id (by rw [at_]) id (by rw [at']))
  · exact same
  · exact absurd rfl (pairs i' i bound' bound behind id (by rw [at']) id (by rw [at_]))

/-- The call of a result is the one with its id. -/
theorem Session.call_of_result (h : Session events) {i j : ℕ} {id tool tool' : String}
    {input input' : Option Json} {isError : Bool} (at_ : events[i]? = some (.toolCall id tool input))
    (result : events[j]? = some (.toolResult id tool' input' isError)) : i < j ∧ tool' = tool := by
  obtain ⟨i', input'', before, call⟩ := h.called j id tool' input' isError result
  obtain rfl := h.call_unique at_ call
  rw [at_] at call
  obtain ⟨-, rfl, -⟩ := PiEvent.toolCall.inj (Option.some.inj call)
  exact ⟨before, rfl⟩

/-- A call without a result is open. -/
theorem Session.mem_openCalls (h : Session events) {i n : ℕ} {id tool : String}
    {input : Option Json} (call : events[i]? = some (.toolCall id tool input)) (before : i < n)
    (none_ : ∀ j input' isError, i < j → j < n →
      events[j]? ≠ some (.toolResult id tool input' isError)) :
    id ∈ openCalls (events.take n) := by
  unfold openCalls
  rw [List.mem_filter, decide_eq_true_eq, mem_callIds, mem_resultIds]
  refine ⟨⟨i, tool, input, by rw [List.getElem?_take_of_lt before, call]⟩, ?_⟩
  rintro ⟨j, tool', input', isError, result⟩
  have bound : j < n := by
    have inside := (List.getElem?_eq_some_iff.mp result).1
    rw [List.length_take] at inside
    omega
  rw [List.getElem?_take_of_lt bound] at result
  obtain ⟨later, rfl⟩ := h.call_of_result call result
  exact none_ j input' isError later bound result

namespace PiRun

variable (run : PiRun T float stringify session cwd capacity ttl events es)

include run

theorem span_at {i : ℕ} {event : PiEvent} (at_ : events[i]? = some event) :
    ∃ e, es[i]? = some e ∧ Sent T float stringify session cwd event e := by
  obtain ⟨length, sent⟩ := List.forall₂_iff_get.mp run.sent
  obtain ⟨bound, rfl⟩ := List.getElem?_eq_some_iff.mp at_
  exact ⟨es[i], List.getElem?_eq_getElem (length ▸ bound), sent i bound (length ▸ bound)⟩

theorem event_at {i : ℕ} {e : Event PairKey Span} (at_ : es[i]? = some e) :
    ∃ event, events[i]? = some event ∧ Sent T float stringify session cwd event e := by
  obtain ⟨length, sent⟩ := List.forall₂_iff_get.mp run.sent
  obtain ⟨bound, rfl⟩ := List.getElem?_eq_some_iff.mp at_
  exact ⟨events[i], List.getElem?_eq_getElem (length ▸ bound), sent i (length ▸ bound) bound⟩

/-- A span that opens a key is that of a call of its tool. -/
theorem call_at {i : ℕ} {e : Event PairKey Span} {k : PairKey} (at_ : es[i]? = some e)
    (opens : rules.action e.item = .open k) :
    ∃ id tool input, events[i]? = some (.toolCall id tool input) ∧ k = toolOf session tool := by
  obtain ⟨event, event_, sent⟩ := run.event_at at_
  rw [show rules.action e.item = _ from sent.classify.1] at opens
  cases event with
  | toolCall id tool input => exact ⟨id, tool, input, event_, (Action.open.inj opens).symm⟩
  | toolResult => cases opens

/-- A call that waits has no result yet. -/
theorem open_of_pending {n i : ℕ} {e : Event PairKey Span} {k : PairKey} {ttl' : ℕ}
    (pending : Pending rules ttl' (es.take n) i e k) {id tool : String} {input : Option Json}
    (call : events[i]? = some (.toolCall id tool input)) (key : k = toolOf session tool)
    {last : PiEvent} (next_ : events[n]? = some last) (isCall : last.isError = none) (before : i < n) :
    id ∈ openCalls (events.take (n + 1)) := by
  refine run.wellFormed.mem_openCalls call (Nat.lt_succ_of_lt before)
    fun j input' isError later bound result => ?_
  rcases Nat.lt_succ_iff_lt_or_eq.mp bound with less | rfl
  · obtain ⟨e', at', sent⟩ := run.span_at result
    refine pending.waits.other j e' later (by rw [List.getElem?_take_of_lt less, at']) ?_
    rw [show rules.action e'.item = _ from sent.classify.1, key]
    rfl
  · obtain rfl := Option.some.inj (next_.symm.trans result)
    cases isCall

/-- The entries of the table are calls that are open, also after the next call. -/
theorem held {front back : List (Event PairKey Span)} (split_ : es = front ++ back) {last : PiEvent}
    (next_ : events[front.length]? = some last) (isCall : last.isError = none) :
    ∀ entry ∈ (traceRun rules (SpanAssembler.new capacity ttl).config front).2.entries,
      ∃ id tool input, entry.2.item.1 < front.length ∧
        events[entry.2.item.1]? = some (.toolCall id tool input) ∧ entry.1 = toolOf session tool ∧
        id ∈ openCalls (events.take (front.length + 1)) := by
  intro entry stored
  have front_ : es.take front.length = front := by rw [split_, List.take_left' rfl]
  obtain ⟨e, pending, -, -⟩ := traceRun_pending rules (Nat.le_max_right _ _) front entry stored
  have before := pending.lt
  have there : es[entry.2.item.1]? = some e := by
    rw [split_, List.getElem?_append_left before, pending.event]
  rw [← front_] at pending
  obtain ⟨id, tool, input, call, key⟩ := run.call_at there pending.opens
  exact ⟨id, tool, input, before, call, key,
    run.open_of_pending pending call key next_ isCall before⟩

/-- The id of the event behind an entry. -/
def idOf (events : List PiEvent) (entry : Sigma fun _ : PairKey => Entry (ℕ × Span)) : String :=
  ((events[entry.2.item.1]?).map PiEvent.id).getD ""

omit run in
theorem idOf_eq {entry : Sigma fun _ : PairKey => Entry (ℕ × Span)} {id tool : String}
    {input : Option Json} (call : events[entry.2.item.1]? = some (.toolCall id tool input)) :
    idOf events entry = id := by
  simp [idOf, call, PiEvent.id]

/-- There is room for every call. -/
theorem roomy : Roomy rules (SpanAssembler.new capacity ttl).config es := by
  rintro front e back split_ ⟨k, opens⟩
  have at_ : es[front.length]? = some e := by rw [split_]; simp
  obtain ⟨id, tool, input, call, -⟩ := run.call_at at_ opens
  have held := run.held split_ call rfl
  revert held
  generalize (traceRun rules (SpanAssembler.new capacity ttl).config front).2 = table
  intro held
  have distinct : (id :: table.entries.map (idOf events)).Nodup := by
    rw [List.nodup_cons]
    constructor
    · intro member
      obtain ⟨entry, stored, same⟩ := List.mem_map.mp member
      obtain ⟨id', tool', input', before, call', -, -⟩ := held entry stored
      rw [idOf_eq call'] at same
      subst same
      have position := run.wellFormed.call_unique call call'
      omega
    · refine List.Nodup.map_on (fun entry stored entry' stored' same => ?_)
        (List.Nodup.of_map Sigma.fst table.nodupKeys)
      obtain ⟨id₁, tool₁, input₁, -, call₁, key₁, -⟩ := held entry stored
      obtain ⟨id₂, tool₂, input₂, -, call₂, key₂, -⟩ := held entry' stored'
      rw [idOf_eq call₁, idOf_eq call₂] at same
      subst same
      -- One id is one call, and one call has one tool.
      have position := run.wellFormed.call_unique call₁ call₂
      rw [position, call₂] at call₁
      obtain ⟨-, rfl, -⟩ := PiEvent.toolCall.inj (Option.some.inj call₁)
      obtain ⟨k₁, v₁⟩ := entry
      obtain ⟨k₂, v₂⟩ := entry'
      obtain rfl : k₁ = k₂ := key₁.trans key₂.symm
      have found₁ := mem_entries_iff.mp stored
      have found₂ := mem_entries_iff.mp stored'
      rw [Option.some.inj (found₁.symm.trans found₂)]
  have subset : id :: table.entries.map (idOf events) ⊆ openCalls (events.take (front.length + 1)) := by
    intro id' member
    rcases List.mem_cons.mp member with rfl | member
    · exact run.wellFormed.mem_openCalls call (Nat.lt_succ_self _) fun j _ _ later bound => by omega
    · obtain ⟨entry, stored, rfl⟩ := List.mem_map.mp member
      obtain ⟨id', tool', input', -, call', -, open_⟩ := held entry stored
      rw [idOf_eq call']
      exact open_
  have count := (List.subperm_of_subset distinct subset).length_le
  have bound := run.capacity (front.length + 1)
  rw [List.length_cons, List.length_map] at count
  show table.entries.length < max capacity 1
  omega

/-- A call and its result are joined when no event of the tool comes between them. -/
theorem matched {i j : ℕ} {id tool : String} {input input' : Option Json} {isError : Bool}
    (call : events[i]? = some (.toolCall id tool input))
    (result : events[j]? = some (.toolResult id tool input' isError))
    (solitary : ∀ (m : ℕ) event, i < m → m < j → events[m]? = some event → event.tool ≠ tool) :
    ∃ e e', Matched rules ttl es i e j e' (toolOf session tool) := by
  obtain ⟨before, -⟩ := run.wellFormed.call_of_result call result
  obtain ⟨e, at_, sent⟩ := run.span_at call
  obtain ⟨e', at', sent'⟩ := run.span_at result
  have young : e'.now - e.now < ttl := run.ttl i j _ _ _ _ _ _ e e' call result at_ at'
  have inside : ∀ {m : ℕ} {f : Event PairKey Span}, (es.take j)[m]? = some f → m < j := by
    intro m f at_
    have bound := (List.getElem?_eq_some_iff.mp at_).1
    rw [List.length_take] at bound
    omega
  refine ⟨e, e', ⟨?_, sent.classify.1, fun m f later at_ => ?_, fun m f later at_ => ?_⟩, at',
    .inl sent'.classify.1, young⟩
  · rw [List.getElem?_take_of_lt before, at_]
  · have bound := inside at_
    rw [List.getElem?_take_of_lt bound] at at_
    obtain ⟨event, event_, sent⟩ := run.event_at at_
    have other := solitary m event later bound event_
    rw [show rules.action f.item = _ from sent.classify.1]
    cases event <;>
    · intro same
      exact other (PairKey.toolFallback.inj (Option.some.inj same)).2.2
  · have bound := inside at_
    rw [List.getElem?_take_of_lt bound] at at_
    obtain ⟨mBound, rfl⟩ := List.getElem?_eq_some_iff.mp at_
    obtain ⟨jBound, rfl⟩ := List.getElem?_eq_some_iff.mp at'
    have ordered : es[m].now ≤ es[j].now :=
      List.pairwise_iff_getElem.mp run.ordered m j mBound jBound bound
    omega

/-- Two spans that are joined are those of a call and its result, with no event of the
tool between them. -/
theorem solitary_of_paired {i j : ℕ} {x y : Span}
    (paired : .paired i x j y ∈ SpanAssembler.trace capacity ttl es) {id tool : String}
    {input : Option Json} (call : events[i]? = some (.toolCall id tool input)) :
    ¬ (pair x y).failed ∧
      ∀ (m : ℕ) event, i < m → m < j → events[m]? = some event → event.tool ≠ tool := by
  obtain ⟨k, e, e', matched, rfl, rfl⟩ := matched_of_paired (Nat.le_max_right _ _) paired
  constructor
  · obtain ⟨event, -, sent⟩ := run.event_at matched.event
    rw [pair_failed]
    exact sent.classify.2
  · rintro m event later bound event_ rfl
    have before : i < j := Nat.lt_trans later bound
    have there : es[i]? = some e := by
      rw [← matched.pending.event, List.getElem?_take_of_lt before]
    obtain ⟨id', tool', input', call', key⟩ := run.call_at there matched.pending.opens
    obtain ⟨-, rfl, -⟩ := PiEvent.toolCall.inj (Option.some.inj (call.symm.trans call'))
    obtain ⟨f, at_, sent⟩ := run.span_at event_
    refine matched.pending.waits.other m f later (by rw [List.getElem?_take_of_lt bound, at_]) ?_
    rw [show rules.action f.item = _ from sent.classify.1, key]
    cases event <;> rfl

/-- **Every result is paired with its call, under the right status**, exactly when no
result is an error and no event of a tool comes between a call and its result. -/
theorem pairsCalls_iff :
    ((SpanAssembler.new capacity ttl).run es).1 =
        (SpanAssembler.trace capacity ttl es).flatMap rules.render ∧
      (PairsCalls events (SpanAssembler.trace capacity ttl es) ↔ Solitary events) := by
  refine ⟨SpanAssembler.run_emits capacity ttl es, ?_, ?_⟩
  · intro pairs i j id tool tool' input input' isError call result
    obtain ⟨i', tool'', input'', x, y, call', paired, failed⟩ := pairs j id tool' input' isError result
    obtain rfl := run.wellFormed.call_unique call call'
    obtain ⟨sound, alone⟩ := run.solitary_of_paired paired call
    refine ⟨?_, alone⟩
    cases isError with
    | false => rfl
    | true => exact absurd (failed.mpr rfl) sound
  · intro solitary j id tool input isError result
    obtain ⟨i, input', before, call⟩ := run.wellFormed.called j id tool input isError result
    obtain ⟨rfl, alone⟩ := solitary i j id tool tool input' input isError call result
    obtain ⟨e, e', matched⟩ := run.matched call result alone
    have positive : 0 < (SpanAssembler.new capacity ttl).config.capacity := Nat.le_max_right _ _
    have paired := (paired_iff positive run.roomy).mpr ⟨_, e, e', matched, rfl, rfl⟩
    refine ⟨i, tool, input', e.item, e'.item, call, paired, fun failed => ?_, nofun⟩
    exact absurd failed (run.solitary_of_paired paired call).1

end PiRun

end

/-! ## Calls at once -/

/-- The text of a payload without an input. -/
def piText (event : PiEvent) : String :=
  "\x7b\"session_id\":\"s\",\"cwd\":\"/w\",\"hook_event_name\":\"" ++ event.target.asStr ++
    "\",\"tool_name\":\"" ++ event.tool ++ "\",\"tool_use_id\":\"" ++ event.id ++ "\"" ++
    (match event.isError with
      | none => ""
      | some true => ",\"is_error\":true"
      | some false => ",\"is_error\":false") ++ "\x7d"

/-- A printer that is right for the payloads of some events. -/
def piStringify (events : List PiEvent) (value : Json) : List UInt8 :=
  ((events.find? fun event => value = .obj (event.payload "s" "/w")).map fun event =>
    Text.asBytes (piText event)).getD []

/-- What transforms these payloads. -/
def piTransformer (events : List PiEvent) : Transformer where
  sha256 := sampleHash
  parseSlice bytes := (events.find? fun event => bytes = Text.asBytes (piText event)).map fun event =>
    event.read "s"
  mode := .interactive
  aliases := false
  experimental := false
  metadata := {}
  pathMode := .absolute

def piArrival (events : List PiEvent) (event : PiEvent) : Arrival where
  frame := ⟨.hookPayload, WireHeader.encode ⟨5, event.eventId⟩ ++
    piStringify events (.obj (event.payload "s" "/w")), 0⟩
  contexts _ := ⟨none, .missing, none, .invalidWorkspace⟩
  traceNow := 0
  now := 0

def piSpan (events : List PiEvent) (event : PiEvent) : Span :=
  match (piTransformer events).productionTransformWithWorkspace 1 (piArrival events event) with
  | .ok outcome => outcome.span
  | .error _ => toolSpan "" "" "" 0

/-- The spans of some events, one time unit apart. -/
def piSpans (events : List PiEvent) : List (Event PairKey Span) :=
  events.zipIdx.map fun entry => ⟨piSpan events entry.1, entry.2, .id⟩

theorem sent_piSpan {events : List PiEvent} {event : PiEvent} (now : ℕ)
    (parsed : (piTransformer events).parseSlice
      (piStringify events (.obj (event.payload "s" "/w"))) = some (event.read "s")) :
    Sent (piTransformer events) (fun _ => 0) (piStringify events) "s" "/w" event
      ⟨piSpan events event, now, .id⟩ := by
  have decoded : Ipc.decodeWirePayload (piArrival events event).frame.msgType
      (piArrival events event).frame.payload =
        some (⟨5, event.eventId⟩, none, piStringify events (.obj (event.payload "s" "/w"))) := by
    unfold piArrival Ipc.decodeWirePayload
    simp only [WireHeader.decode_encode]
    rfl
  cases transformed : (piTransformer events).productionTransformWithWorkspace 1
      (piArrival events event) with
  | error error =>
      unfold Transformer.productionTransformWithWorkspace Transformer.prepare at transformed
      rw [decoded] at transformed
      simp only [parsed] at transformed
      cases transformed
  | ok outcome =>
      refine ⟨_, 1, none, outcome, decoded, ?_, transformed, ?_⟩
      · rw [parsed, PiEvent.deserialize_payload]
        rfl
      · simp only [piSpan, transformed]

theorem piSpans_getElem {events : List PiEvent} {i : ℕ} {e : Event PairKey Span}
    (at_ : (piSpans events)[i]? = some e) : e.now = i ∧ i < events.length := by
  obtain ⟨bound, rfl⟩ := List.getElem?_eq_some_iff.mp at_
  simp only [piSpans, List.length_map, List.length_zipIdx] at bound
  exact ⟨by simp [piSpans], bound⟩

theorem length_openCalls_le (events : List PiEvent) : (openCalls events).length ≤ events.length :=
  (List.length_filter_le _ _).trans (List.length_filterMap_le _ _)

/-- A short session whose payloads are read. -/
theorem piSpans_run {events : List PiEvent} {capacity ttl : ℕ} (wellFormed : Session events)
    (parsed : ∀ event ∈ events, (piTransformer events).parseSlice
      (piStringify events (.obj (event.payload "s" "/w"))) = some (event.read "s"))
    (room : events.length ≤ capacity) (time : events.length ≤ ttl) :
    PiRun (piTransformer events) (fun _ => 0) (piStringify events) "s" "/w" capacity ttl events
      (piSpans events) where
  wellFormed := wellFormed
  sent := by
    refine List.forall₂_iff_get.mpr ⟨by simp [piSpans], fun i bound bound' => ?_⟩
    have span := sent_piSpan i (parsed _ (List.get_mem events ⟨i, bound⟩))
    simpa [piSpans] using span
  ordered := by
    rw [List.pairwise_iff_getElem]
    intro i j iBound jBound before
    simp only [piSpans, List.getElem_map, List.getElem_zipIdx]
    omega
  capacity n := by
    have length := length_openCalls_le (events.take n)
    rw [List.length_take] at length
    omega
  ttl i j id tool input tool' input' isError e e' call result at_ at' := by
    have first := piSpans_getElem at_
    have second := piSpans_getElem at'
    omega

/-- A call and its result. -/
def oneCall : List PiEvent := [.toolCall "c1" "bash" none, .toolResult "c1" "bash" none false]

/-- Two calls of a tool at once, the first of which ends with an error. -/
def twoCalls : List PiEvent :=
  [.toolCall "c1" "bash" none, .toolCall "c2" "bash" none, .toolResult "c1" "bash" none true,
    .toolResult "c2" "bash" none false]

theorem oneCall_session : Session oneCall where
  distinct := by decide
  called
    | 0, _, _, _, _, result => by cases result
    | 1, _, _, _, _, result => by
        obtain ⟨rfl, rfl, rfl, rfl⟩ := PiEvent.toolResult.inj (Option.some.inj result)
        exact ⟨0, none, by decide, rfl⟩
    | _ + 2, _, _, _, _, result => by cases result

theorem twoCalls_session : Session twoCalls where
  distinct := by decide
  called
    | 0, _, _, _, _, result | 1, _, _, _, _, result => by cases result
    | 2, _, _, _, _, result => by
        obtain ⟨rfl, rfl, rfl, rfl⟩ := PiEvent.toolResult.inj (Option.some.inj result)
        exact ⟨0, none, by decide, rfl⟩
    | 3, _, _, _, _, result => by
        obtain ⟨rfl, rfl, rfl, rfl⟩ := PiEvent.toolResult.inj (Option.some.inj result)
        exact ⟨1, none, by decide, rfl⟩
    | _ + 4, _, _, _, _, result => by cases result

theorem oneCall_run : PiRun (piTransformer oneCall) (fun _ => 0) (piStringify oneCall) "s" "/w"
    openSpanCapacity openSpanTtl oneCall (piSpans oneCall) :=
  piSpans_run oneCall_session (by decide) (by decide) (by decide)

theorem twoCalls_run : PiRun (piTransformer twoCalls) (fun _ => 0) (piStringify twoCalls) "s" "/w"
    openSpanCapacity openSpanTtl twoCalls (piSpans twoCalls) :=
  piSpans_run twoCalls_session (by decide) (by decide) (by decide)

theorem PiRun.pairsCalls_oneCall :
    ((SpanAssembler.new openSpanCapacity openSpanTtl).run (piSpans oneCall)).1 =
        (SpanAssembler.trace openSpanCapacity openSpanTtl (piSpans oneCall)).flatMap rules.render ∧
      (PairsCalls oneCall (SpanAssembler.trace openSpanCapacity openSpanTtl (piSpans oneCall)) ↔
        Solitary oneCall) :=
  oneCall_run.pairsCalls_iff

/-- The result of the first call is an error, but nothing it is paired with has failed. -/
theorem PiRun.mispairs :
    ¬ ∀ (T : Transformer) (float : String → UInt64) (stringify : Json → List UInt8)
      (session cwd : String) (capacity ttl : ℕ) (events : List PiEvent)
      (es : List (Event PairKey Span)),
      PiRun T float stringify session cwd capacity ttl events es →
        PairsCalls events (SpanAssembler.trace capacity ttl es) := by
  intro claim
  obtain ⟨i, tool, input, x, y, call, paired, failed⟩ :=
    claim _ _ _ _ _ _ _ _ _ twoCalls_run 2 "c1" "bash" none true rfl
  obtain ⟨sound, -⟩ := twoCalls_run.solitary_of_paired paired call
  exact sound (failed.mpr rfl)

end AgentOtelBridge
