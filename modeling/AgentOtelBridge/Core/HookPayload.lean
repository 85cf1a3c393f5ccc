import AgentOtelBridge.Core.Input
import AgentOtelBridge.Lib.JsonObject

/-!
# The payload of a hook

A payload is a JSON object.  A field is read under its own name, in camel case, and
under its aliases; a key that is no name is passed over, and a field that occurs under
two names is refused.

Floating point numbers are their bits; what bits a text has is a parameter.
-/

namespace AgentOtelBridge

open Json

/-! ## Values -/

def asBool : Json → Option Bool
  | .bool value => some value
  | _ => none

/-- The digits of an integer that is not negative. -/
def asU64 : Json → Option UInt64
  | .num text => ((Text.digitsValue 0 text.toList).filter (· < 2 ^ 64)).map .ofNat
  | _ => none

def asU32 : Json → Option UInt32
  | .num text => ((Text.digitsValue 0 text.toList).filter (· < 2 ^ 32)).map .ofNat
  | _ => none

/-- A negative zero is a floating point number. -/
def asI64 : Json → Option Int
  | .num text =>
    match text.toList with
    | '-' :: digits =>
        ((Text.digitsValue 0 digits).filter fun n => 0 < n ∧ n ≤ 2 ^ 63).map fun n => -(n : Int)
    | digits => ((Text.digitsValue 0 digits).filter (· < 2 ^ 63)).map Int.ofNat
  | _ => none

def asF64 (float : String → UInt64) : Json → Option UInt64
  | .num text => some (float text)
  | _ => none

def asStrings : Json → Option (List String)
  | .arr items => items.mapM asStr
  | _ => none

/-- A variant by its name, alone or as the key of a null. -/
def asExecutionMode (value : Json) : Option ExecutionMode :=
  let named (name : String) : Option ExecutionMode :=
    match name with
    | "interactive" | "iterativo" => some .interactive
    | "automation" | "automacao" => some .automation
    | _ => none
  match value with
  | .str name => named name
  | .obj [(name, .null)] => named name
  | _ => none

/-! ## Fields -/

inductive DecodeError where
  | duplicateField (name : String)
  | invalidType (name : String)
deriving DecidableEq, Repr

/-- A field of a record: its names, its own first, and what its value does to the record. -/
structure RecordField (ρ : Type) where
  names : List String
  read : Json → Option (ρ → ρ)

def RecordField.name {ρ : Type} (field : RecordField ρ) : String := field.names.headD ""

/-- An optional field is absent when it is null. -/
def optional {ρ α : Type} (as_ : Json → Option α) (set : Option α → ρ → ρ) (value : Json) :
    Option (ρ → ρ) :=
  match value with
  | .null => some (set none)
  | value => (as_ value).map fun v => set (some v)

/-- One key of an object, with the fields that were read before. -/
def decodeEntry {ρ : Type} (table : List (RecordField ρ)) (s : List String × ρ)
    (entry : String × Json) : Except DecodeError (List String × ρ) :=
  match table.find? fun field => entry.1 ∈ field.names with
  | none => .ok s
  | some field =>
    if field.name ∈ s.1 then .error (.duplicateField field.name)
    else
      match field.read entry.2 with
      | none => .error (.invalidType field.name)
      | some set => .ok (field.name :: s.1, set s.2)

def decodeObject {ρ : Type} (table : List (RecordField ρ)) (default : ρ) (fields : Fields) :
    Except DecodeError ρ :=
  (fields.foldlM (decodeEntry table) ([], default)).map Prod.snd

def toolCallFields : List (RecordField ToolCallInfo) :=
  [⟨["id"], optional asStr fun v i => { i with id := v }⟩,
    ⟨["name"], optional asStr fun v i => { i with name := v }⟩,
    ⟨["arguments"], optional some fun v i => { i with arguments := v }⟩]

/-- A record, or its values in their order. -/
def asToolCallInfo : Json → Option ToolCallInfo
  | .obj fields => (decodeObject toolCallFields {} fields).toOption
  | .arr items =>
    if toolCallFields.length < items.length then none
    else
      (toolCallFields.zip items).foldlM
        (fun info entry => (entry.1.read entry.2).map fun set => set info) {}
  | _ => none

/-- The fields of `AgentHookInput`, with `rename_all` and their aliases. -/
def hookFields (float : String → UInt64) : List (RecordField AgentHookInput) :=
  [⟨["conversationId", "conversation_id", "session_id", "sessionId"],
      optional asStr fun v i => { i with conversationId := v }⟩,
    ⟨["stepIdx", "step_idx", "step_index", "stepIndex"],
      optional asU64 fun v i => { i with stepIdx := v }⟩,
    ⟨["toolCall", "tool_call"], optional asToolCallInfo fun v i => { i with toolCall := v }⟩,
    ⟨["toolName", "tool_name"], optional asStr fun v i => { i with toolName := v }⟩,
    ⟨["toolInput", "tool_input"], optional some fun v i => { i with toolInput := v }⟩,
    ⟨["error"], optional asStr fun v i => { i with error := v }⟩,
    ⟨["terminationReason", "termination_reason"],
      optional asStr fun v i => { i with terminationReason := v }⟩,
    ⟨["model", "model_name", "modelName"], optional asStr fun v i => { i with model := v }⟩,
    ⟨["executionNum", "execution_num"], optional asI64 fun v i => { i with executionNum := v }⟩,
    ⟨["fullyIdle", "fully_idle"], optional asBool fun v i => { i with fullyIdle := v }⟩,
    ⟨["workspacePaths", "workspace_paths"],
      optional asStrings fun v i => { i with workspacePaths := v }⟩,
    ⟨["transcriptPath", "transcript_path"],
      optional asStr fun v i => { i with transcriptPath := v }⟩,
    ⟨["agentName", "agent_name"], optional asStr fun v i => { i with agentName := v }⟩,
    ⟨["hookEventName", "hook_event_name"], optional asStr fun v i => { i with hookEventName := v }⟩,
    ⟨["inputTokens", "input_tokens", "input_token_count", "inputTokenCount", "prompt_tokens",
        "promptTokens"],
      optional asI64 fun v i => { i with inputTokens := v }⟩,
    ⟨["outputTokens", "output_tokens", "output_token_count", "outputTokenCount",
        "completion_tokens", "completionTokens"],
      optional asI64 fun v i => { i with outputTokens := v }⟩,
    ⟨["cachedTokens", "cached_tokens", "cached_token_count", "cachedTokenCount",
        "cache_read_input_tokens"],
      optional asI64 fun v i => { i with cachedTokens := v }⟩,
    ⟨["userEmail", "user_email", "email"], optional asStr fun v i => { i with userEmail := v }⟩,
    ⟨["terminalType", "terminal_type"], optional asStr fun v i => { i with terminalType := v }⟩,
    ⟨["decision"], optional asStr fun v i => { i with decision := v }⟩,
    ⟨["success"], optional asBool fun v i => { i with success := v }⟩,
    ⟨["executionMode", "execution_mode", "mode"],
      optional asExecutionMode fun v i => { i with executionMode := v }⟩,
    ⟨["gitLinesAdded", "git_lines_added", "lines_added", "linesAdded"],
      optional asU64 fun v i => { i with gitLinesAdded := v }⟩,
    ⟨["gitLinesDeleted", "git_lines_deleted", "lines_deleted", "linesDeleted"],
      optional asU64 fun v i => { i with gitLinesDeleted := v }⟩,
    ⟨["gitFilesChanged", "git_files_changed", "files_changed", "filesChanged"],
      optional asU64 fun v i => { i with gitFilesChanged := v }⟩,
    ⟨["gitSelfRevert", "git_self_revert", "self_revert", "selfRevert"],
      optional asBool fun v i => { i with gitSelfRevert := v }⟩,
    ⟨["traceparent", "trace_parent"], optional asStr fun v i => { i with traceparent := v }⟩,
    ⟨["workspacePath", "workspace_path"], optional asStr fun v i => { i with workspacePath := v }⟩,
    ⟨["projectName", "project_name"], optional asStr fun v i => { i with projectName := v }⟩,
    ⟨["projectRoot", "project_root"], optional asStr fun v i => { i with projectRoot := v }⟩,
    ⟨["projectType", "project_type"], optional asStr fun v i => { i with projectType := v }⟩,
    ⟨["vcsSystem", "vcs_system"], optional asStr fun v i => { i with vcsSystem := v }⟩,
    ⟨["vcsRepository", "vcs_repository"], optional asStr fun v i => { i with vcsRepository := v }⟩,
    ⟨["vcsBranch", "vcs_branch"], optional asStr fun v i => { i with vcsBranch := v }⟩,
    ⟨["vcsCommit", "vcs_commit"], optional asStr fun v i => { i with vcsCommit := v }⟩,
    ⟨["vcsWorktree", "vcs_worktree"], optional asBool fun v i => { i with vcsWorktree := v }⟩,
    ⟨["toolArchetype", "tool_archetype"], optional asStr fun v i => { i with toolArchetype := v }⟩,
    ⟨["toolBinary", "tool_binary"], optional asStr fun v i => { i with toolBinary := v }⟩,
    ⟨["toolWrappedBinary", "tool_wrapped_binary"],
      optional asStr fun v i => { i with toolWrappedBinary := v }⟩,
    ⟨["toolPipelineDepth", "tool_pipeline_depth"],
      optional asU32 fun v i => { i with toolPipelineDepth := v }⟩,
    ⟨["toolCompressionRatio", "tool_compression_ratio"],
      optional (asF64 float) fun v i => { i with toolCompressionRatio := v }⟩,
    ⟨["toolTokensSaved", "tool_tokens_saved"],
      optional asI64 fun v i => { i with toolTokensSaved := v }⟩,
    ⟨["capabilityKind", "capability_kind"],
      optional asStr fun v i => { i with capabilityKind := v }⟩,
    ⟨["capabilityNamespace", "capability_namespace"],
      optional asStr fun v i => { i with capabilityNamespace := v }⟩,
    ⟨["capabilityName", "capability_name"],
      optional asStr fun v i => { i with capabilityName := v }⟩,
    ⟨["capabilitySchemaTokens", "capability_schema_tokens"],
      optional asI64 fun v i => { i with capabilitySchemaTokens := v }⟩,
    ⟨["capabilityResponseBytes", "capability_response_bytes"],
      optional asU64 fun v i => { i with capabilityResponseBytes := v }⟩,
    ⟨["capabilityResponseTokens", "capability_response_tokens"],
      optional asI64 fun v i => { i with capabilityResponseTokens := v }⟩,
    ⟨["capabilityConsecutiveRetries", "capability_consecutive_retries"],
      optional asU32 fun v i => { i with capabilityConsecutiveRetries := v }⟩,
    ⟨["capabilityIsWaste", "capability_is_waste"],
      optional asBool fun v i => { i with capabilityIsWaste := v }⟩,
    ⟨["agentDepth", "agent_depth"], optional asU32 fun v i => { i with agentDepth := v }⟩,
    ⟨["agentParentName", "agent_parent_name"],
      optional asStr fun v i => { i with agentParentName := v }⟩,
    ⟨["agentRootId", "agent_root_id"], optional asStr fun v i => { i with agentRootId := v }⟩,
    ⟨["agentIsRoot", "agent_is_root"], optional asBool fun v i => { i with agentIsRoot := v }⟩,
    ⟨["errorCategory", "error_category"], optional asStr fun v i => { i with errorCategory := v }⟩]

/-- `serde_json::from_slice` of a payload that is an object. -/
def AgentHookInput.deserialize (float : String → UInt64) (payload : Fields) :
    Except DecodeError AgentHookInput :=
  decodeObject (hookFields float) {} payload

/-- The keys a payload is read by. -/
def knownKeys : List String := (hookFields fun _ => 0).flatMap RecordField.names

end AgentOtelBridge
