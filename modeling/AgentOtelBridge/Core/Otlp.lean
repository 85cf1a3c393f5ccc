import AgentOtelBridge.Core.Input
import AgentOtelBridge.Core.Proto
import AgentOtelBridge.Core.Semconv
import AgentOtelBridge.Core.TraceId

/-!
# Building a span

`build_span_from_resolved` pushes an attribute for each field of the hook that is
there.  The model lays the pushes out as a table of slots, in the order of the
pushes: a slot has a key, and a value if its push happens.

The keys of the table are distinct (`spanSlots_distinct`), so looking a key up in
the built span is reading its slot (`findKey_build`).
-/

namespace AgentOtelBridge

open Semconv

/-! ## Slots -/

structure Slot where
  key : String
  value : Option Value

namespace Slot

def string (key : String) (value : Option String) : Slot := ⟨key, value.map .stringValue⟩
def int (key : String) (value : Option Int) : Slot := ⟨key, value.map .intValue⟩
def bool (key : String) (value : Option Bool) : Slot := ⟨key, value.map .boolValue⟩
def double (key : String) (value : Option UInt64) : Slot := ⟨key, value.map .doubleValue⟩
def array (key : String) (value : Option (List String)) : Slot := ⟨key, value.map .arrayValue⟩

/-- An unsigned field, read as a signed integer of 64 bits. -/
def uint64 (key : String) (value : Option UInt64) : Slot :=
  int key (value.map fun n => n.toInt64.toInt)

def uint32 (key : String) (value : Option UInt32) : Slot := int key (value.map fun n => n.toNat)

/-- A slot that is only filled under a flag. -/
def onlyIf (flag : Bool) (slot : Slot) : Slot := ⟨slot.key, if flag then slot.value else none⟩

def attribute? (slot : Slot) : Option KeyValue :=
  slot.value.map fun value => ⟨slot.key, some ⟨some value⟩⟩

theorem key_of_attribute? {slot : Slot} {kv : KeyValue} (pushed : slot.attribute? = some kv) :
    kv.key = slot.key := by
  obtain ⟨value, -, rfl⟩ := Option.map_eq_some_iff.mp pushed
  rfl

end Slot

/-- The attributes of the slots with a value, in their order. -/
def attributesOf (slots : List Slot) : List KeyValue := slots.filterMap Slot.attribute?

theorem attributesOf_cons (slot : Slot) (slots : List Slot) :
    attributesOf (slot :: slots) = slot.attribute?.toList ++ attributesOf slots := by
  unfold attributesOf
  rw [List.filterMap_cons]
  cases slot.attribute? <;> rfl

theorem findKey_attributesOf_absent {key : String} {slots : List Slot}
    (absent : key ∉ slots.map Slot.key) : findKey key (attributesOf slots) = none := by
  refine List.find?_eq_none.mpr fun kv pushed => ?_
  obtain ⟨slot, present, filled⟩ := List.mem_filterMap.mp pushed
  have keys := Slot.key_of_attribute? filled
  simp only [beq_iff_eq]
  rintro rfl
  exact absent (keys ▸ List.mem_map_of_mem present)

/-- Looking up the key of a slot finds what the slot pushed. -/
theorem findKey_attributesOf {slots : List Slot} (distinct : (slots.map Slot.key).Nodup)
    {slot : Slot} (present : slot ∈ slots) :
    findKey slot.key (attributesOf slots) = slot.attribute? := by
  induction slots with
  | nil => cases present
  | cons first slots ih =>
      obtain ⟨fresh, distinct⟩ := List.nodup_cons.mp distinct
      rw [attributesOf_cons]
      cases present with
      | head =>
          cases pushed : slot.attribute? with
          | none => exact findKey_attributesOf_absent fresh
          | some kv =>
              have keys := Slot.key_of_attribute? pushed
              simp [findKey_cons, keys]
      | tail _ present =>
          have other : first.key ≠ slot.key := fun same =>
            fresh (same ▸ List.mem_map_of_mem present)
          cases pushed : first.attribute? with
          | none => exact ih distinct present
          | some kv =>
              have keys := Slot.key_of_attribute? pushed
              simp [findKey_cons, keys, other, ih distinct present]

/-! ## The attributes of a span -/

/-- Values resolved before the span is built. -/
structure ResolvedSpanMetadata where
  userEmail : Option String := none
  terminalType : Option String := none
deriving DecidableEq, Repr

def operationName : HookEvent → String
  | .preInvocation | .postInvocation => genAiOperationInvokeAgent
  | .preToolUse | .postToolUse => genAiOperationExecuteTool
  | .stop => "agent.stop"
  | .unknown => "agent.unknown"

def spanName (event : HookEvent) (agentName : String) (toolName : Option String) : String :=
  match event with
  | .preInvocation | .postInvocation => "invoke_agent " ++ agentName
  | .preToolUse | .postToolUse =>
      match toolName with
      | some tool => "execute_tool " ++ tool
      | none => "execute_tool"
  | .stop => "agent.stop"
  | .unknown => "agent.unknown"

/-- The agent's name, or what the model suggests. -/
def AgentHookInput.spanAgentName (input : AgentHookInput) : String :=
  input.agentName.getD (inferAgentName input.model none)

/-- Under the opt-in an unknown provider is left out; without it there is a default. -/
def AgentHookInput.provider (input : AgentHookInput) (experimental : Bool) : Option String :=
  let inferred := input.model.map inferProvider
  if experimental then inferred.filter fun provider => provider ≠ genAiProviderUnknown
  else some (inferred.getD genAiProviderGoogle)

def AgentHookInput.spanErrorType (input : AgentHookInput) : String :=
  (input.errorCategory.filter fun category => category ≠ "").getD "_OTHER"

section

variable (event : HookEvent) (input : AgentHookInput) (metadata : ResolvedSpanMetadata)
  (aliases experimental : Bool)

def agentSlots : List Slot :=
  [.string genAiOperationName (some (operationName event)),
    .string genAiAgentName (some input.spanAgentName),
    .string agentHookEvent (some event.asStr),
    .string genAiProviderName (input.provider experimental),
    .onlyIf (!experimental) (.string genAiSystem (input.provider experimental)),
    .onlyIf aliases (.string agyHookEvent (some event.asStr))]

def hookSlots : List Slot :=
  [.string genAiConversationId input.conversationId,
    .string genAiRequestModel input.model,
    .string genAiToolName input.resolvedToolName,
    .string genAiToolCallId input.resolvedToolCallId,
    .string agentTerminationReason input.terminationReason,
    if experimental then
      .array genAiResponseFinishReasons (input.terminationReason.map fun reason => [reason])
    else .string genAiResponseFinishReasons input.terminationReason,
    .onlyIf aliases (.string agyTerminationReason input.terminationReason),
    .uint64 agentStepIndex input.stepIdx,
    .onlyIf (!experimental) (.uint64 genAiAgentStepIndex input.stepIdx),
    .onlyIf aliases (.uint64 agyStepIndex input.stepIdx),
    .int agentExecutionNum input.executionNum,
    .onlyIf aliases (.int agyExecutionNum input.executionNum),
    .bool agentFullyIdle input.fullyIdle,
    .onlyIf aliases (.bool agyFullyIdle input.fullyIdle),
    .int genAiUsageInputTokens input.inputTokens,
    .int genAiUsageOutputTokens input.outputTokens,
    .int genAiUsageCacheReadTokens input.cachedTokens,
    .string agentDecision input.decision,
    .bool agentSuccess input.success,
    .string userEmail (input.userEmail.or metadata.userEmail),
    .string terminalType (input.terminalType.or metadata.terminalType),
    .string agentExecutionMode (input.executionMode.map ExecutionMode.asStr)]

/-- The workspace and its repository. -/
def workspaceSlots : List Slot :=
  [.uint64 agentGitLinesAdded input.gitLinesAdded,
    .uint64 agentGitLinesDeleted input.gitLinesDeleted,
    .uint64 agentGitFilesChanged input.gitFilesChanged,
    .bool agentGitSelfRevert input.gitSelfRevert,
    .string workspacePath input.workspacePath,
    .string workspaceProjectName input.projectName,
    .string workspaceProjectRoot input.projectRoot,
    .string workspaceProjectType input.projectType,
    .string vcsSystem input.vcsSystem,
    .string vcsRepositoryName input.vcsRepository,
    .string (if experimental then vcsRefHeadName else vcsBranchName) input.vcsBranch,
    .string (if experimental then vcsRefHeadRevision else vcsCommitSha) input.vcsCommit,
    .bool vcsWorktreeActive input.vcsWorktree]

/-- The tool and its capability. -/
def toolSlots : List Slot :=
  [.string agentToolArchetype input.toolArchetype,
    .string agentToolBinary input.toolBinary,
    .string agentToolWrappedBinary input.toolWrappedBinary,
    .uint32 agentToolPipelineDepth input.toolPipelineDepth,
    .double agentToolCompressionRatio input.toolCompressionRatio,
    .int agentToolTokensSaved input.toolTokensSaved,
    .string capabilityKind input.capabilityKind,
    .string capabilityNamespace input.capabilityNamespace,
    .string capabilityName input.capabilityName,
    .int capabilitySchemaTokens input.capabilitySchemaTokens,
    .uint64 capabilityResponseBytes input.capabilityResponseBytes,
    .int capabilityResponseTokens input.capabilityResponseTokens,
    .uint32 capabilityConsecutiveRetries input.capabilityConsecutiveRetries,
    .bool capabilityIsWaste input.capabilityIsWaste]

/-- The lineage of the agent, and the error.  The opt-in renames the lineage keys. -/
def outcomeSlots : List Slot :=
  [.uint32 (if experimental then agentLineageDepth else genAiAgentDepth) input.agentDepth,
    .string (if experimental then agentLineageParentName else genAiAgentParentName)
      input.agentParentName,
    .string (if experimental then agentLineageRootId else genAiAgentRootId) input.agentRootId,
    .bool (if experimental then agentLineageIsRoot else genAiAgentIsRoot) input.agentIsRoot,
    .string agentErrorCategory input.errorCategory,
    .onlyIf (experimental && input.errored) (.string errorType (some input.spanErrorType))]

def spanSlots : List Slot :=
  agentSlots event input aliases experimental ++ hookSlots input metadata aliases experimental ++
    workspaceSlots input experimental ++ toolSlots input ++ outcomeSlots input experimental

/-- The keys of the table, which only depend on the opt-in. -/
def spanKeys : List String :=
  (spanSlots .unknown {} {} false experimental).map Slot.key

theorem spanSlots_keys :
    (spanSlots event input metadata aliases experimental).map Slot.key = spanKeys experimental := by
  cases experimental <;> rfl

theorem spanKeys_distinct : (spanKeys experimental).Nodup := by
  cases experimental <;> decide +kernel

theorem spanSlots_distinct :
    ((spanSlots event input metadata aliases experimental).map Slot.key).Nodup :=
  spanSlots_keys event input metadata aliases experimental ▸ spanKeys_distinct experimental

end

/-! ## The span -/

def statusMessageMaxBytes : Nat := 160

/-- The characters of a text that fit in a number of bytes. -/
def charsWithin : Nat → List Char → List Char
  | _, [] => []
  | budget, c :: cs => if budget < c.utf8Size then [] else c :: charsWithin (budget - c.utf8Size) cs

def truncateStatusMessage (message : String) : String :=
  if message.utf8ByteSize ≤ statusMessageMaxBytes then message
  else String.ofList (charsWithin statusMessageMaxBytes message.toList) ++ "…"

def statusUnset : Int := 0
def statusOk : Int := 1
def statusError : Int := 2

/-- An error is one that says something. -/
def spanStatus (error : Option String) (experimental : Bool) : Status :=
  match error.filter fun text => Text.trim text ≠ "" with
  | some text => ⟨if experimental then truncateStatusMessage text else text, statusError⟩
  | none => ⟨"", if experimental then statusUnset else statusOk⟩

/-- `SpanKind::Internal`. -/
def spanKindInternal : Int := 1

/-- `build_span_from_resolved`. -/
def buildSpanFromResolved (sha256 : List UInt8 → List UInt8) (event : HookEvent)
    (input : AgentHookInput) (start finish : Nat) (salt : UInt32) (context : ResolvedTraceContext)
    (metadata : ResolvedSpanMetadata) (aliases experimental : Bool) : Span where
  traceId := context.traceId
  spanId := deriveSpanId sha256 input.conversationId input.stepIdx event input.resolvedToolName salt
  parentSpanId := context.parentSpanId.getD []
  flags := context.traceFlags.toNat
  name := spanName event input.spanAgentName input.resolvedToolName
  kind := spanKindInternal
  startTimeUnixNano := start
  endTimeUnixNano := if start ≤ finish then finish else start
  attributes := attributesOf (spanSlots event input metadata aliases experimental)
  status := some (spanStatus input.error experimental)
  rest := []

/-- Looking a key up in a built span is reading its slot. -/
theorem findKey_build {event : HookEvent} {input : AgentHookInput} {metadata : ResolvedSpanMetadata}
    {aliases experimental : Bool} {slot : Slot}
    (present : slot ∈ spanSlots event input metadata aliases experimental) :
    findKey slot.key (attributesOf (spanSlots event input metadata aliases experimental)) =
      slot.attribute? :=
  findKey_attributesOf (spanSlots_distinct event input metadata aliases experimental) present

theorem spanStatus_code (input : AgentHookInput) (experimental : Bool) :
    (spanStatus input.error experimental).code = statusError ↔ input.errored = true := by
  unfold spanStatus AgentHookInput.errored
  cases input.error with
  | none => cases experimental <;> simp [statusUnset, statusOk, statusError]
  | some text =>
      by_cases blank : Text.trim text = ""
      · cases experimental <;> simp [Option.filter, blank, statusUnset, statusOk, statusError]
      · simp [Option.filter, blank]

end AgentOtelBridge
