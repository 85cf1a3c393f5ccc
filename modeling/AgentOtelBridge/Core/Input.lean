import AgentOtelBridge.Core.Archetype
import AgentOtelBridge.Core.Capability
import AgentOtelBridge.Lib.Json

/-!
# The hook input

`AgentHookInput` is the payload of a hook.  Normalizing it fills the workspace
fields the hook left out from a harvested context, field by field, classifies the
tool and its command, and sorts an error into a category.
-/

namespace AgentOtelBridge

inductive ExecutionMode where
  | interactive
  | automation
deriving DecidableEq, Repr

def ExecutionMode.asStr : ExecutionMode → String
  | .interactive => "interactive"
  | .automation => "automation"

structure ToolCallInfo where
  id : Option String := none
  name : Option String := none
  arguments : Option Json := none
deriving DecidableEq, Repr

structure WorkspaceContext where
  currentDir : String
  launchDir : Option String := none
  projectName : Option String := none
  projectRoot : Option String := none
  projectType : Option String := none
  vcsSystem : Option String := none
  vcsRepository : Option String := none
  vcsBranch : Option String := none
  vcsCommit : Option String := none
  vcsWorktree : Option Bool := none
deriving DecidableEq, Repr

/-- The payload of a hook.  An integer of the payload is one of the type the source
reads it at; a float is its bits. -/
structure AgentHookInput where
  conversationId : Option String := none
  stepIdx : Option UInt64 := none
  toolCall : Option ToolCallInfo := none
  toolName : Option String := none
  toolInput : Option Json := none
  error : Option String := none
  terminationReason : Option String := none
  model : Option String := none
  executionNum : Option Int := none
  fullyIdle : Option Bool := none
  workspacePaths : Option (List String) := none
  transcriptPath : Option String := none
  agentName : Option String := none
  hookEventName : Option String := none
  inputTokens : Option Int := none
  outputTokens : Option Int := none
  cachedTokens : Option Int := none
  userEmail : Option String := none
  terminalType : Option String := none
  decision : Option String := none
  success : Option Bool := none
  executionMode : Option ExecutionMode := none
  gitLinesAdded : Option UInt64 := none
  gitLinesDeleted : Option UInt64 := none
  gitFilesChanged : Option UInt64 := none
  gitSelfRevert : Option Bool := none
  traceparent : Option String := none
  workspacePath : Option String := none
  projectName : Option String := none
  projectRoot : Option String := none
  projectType : Option String := none
  vcsSystem : Option String := none
  vcsRepository : Option String := none
  vcsBranch : Option String := none
  vcsCommit : Option String := none
  vcsWorktree : Option Bool := none
  toolArchetype : Option String := none
  toolBinary : Option String := none
  toolWrappedBinary : Option String := none
  toolPipelineDepth : Option UInt32 := none
  toolCompressionRatio : Option UInt64 := none
  toolTokensSaved : Option Int := none
  capabilityKind : Option String := none
  capabilityNamespace : Option String := none
  capabilityName : Option String := none
  capabilitySchemaTokens : Option Int := none
  capabilityResponseBytes : Option UInt64 := none
  capabilityResponseTokens : Option Int := none
  capabilityConsecutiveRetries : Option UInt32 := none
  capabilityIsWaste : Option Bool := none
  agentDepth : Option UInt32 := none
  agentParentName : Option String := none
  agentRootId : Option String := none
  agentIsRoot : Option Bool := none
  errorCategory : Option String := none
deriving DecidableEq, Repr

namespace AgentHookInput

def resolvedToolName (input : AgentHookInput) : Option String :=
  (input.toolCall.bind (·.name)).or input.toolName

def resolvedToolCallId (input : AgentHookInput) : Option String := input.toolCall.bind (·.id)

def resolvedToolArguments (input : AgentHookInput) : Option Json :=
  (input.toolCall.bind (·.arguments)).or input.toolInput

/-- An error that says something. -/
def errored (input : AgentHookInput) : Bool := input.error.any fun error => Text.trim error ≠ ""

/-! ## Normalization -/

/-- The workspace fields of a context, behind those of the hook. -/
def fillWorkspace (input : AgentHookInput) (ctx : WorkspaceContext) : AgentHookInput :=
  { input with
    workspacePath := input.workspacePath.or (some ctx.currentDir)
    projectName := input.projectName.or ctx.projectName
    projectRoot := input.projectRoot.or ctx.projectRoot
    projectType := input.projectType.or ctx.projectType
    vcsSystem := input.vcsSystem.or ctx.vcsSystem
    vcsRepository := input.vcsRepository.or ctx.vcsRepository
    vcsBranch := input.vcsBranch.or ctx.vcsBranch
    vcsCommit := input.vcsCommit.or ctx.vcsCommit
    vcsWorktree := input.vcsWorktree.or ctx.vcsWorktree }

/-- The command in the arguments of a tool. -/
def commandText (input : AgentHookInput) : Option String :=
  input.resolvedToolArguments.bind fun args =>
    (((args.get "command").or (args.get "CommandLine")).or (args.get "cmd")).bind Json.asStr

def classifyCapability (input : AgentHookInput) (tool : String) : AgentHookInput :=
  if input.capabilityKind = none then
    let cap := ClassifiedCapability.classify tool
    { input with
      capabilityKind := some cap.kind.asStr
      capabilityNamespace := some cap.namespace
      capabilityName := some cap.operation }
  else input

def classifyArchetype (input : AgentHookInput) (tool : String) (cmd : Option String) :
    AgentHookInput :=
  if input.toolArchetype = none then
    let classified := ClassifiedCommand.classify (cmd.getD tool)
    { input with
      toolArchetype := some classified.archetype.asStr
      toolBinary := some classified.binary
      toolWrappedBinary := classified.wrappedBinary
      toolPipelineDepth := some (.ofNat classified.pipelineDepth) }
  else input

/-- The category of an error message. -/
def categorize (error : String) : String :=
  let message := Text.asciiLower error
  let mentions (words : List String) : Bool := words.any (Text.contains message)
  if mentions ["rate limit", "429", "quota"] then "provider_quota_exhausted"
  else if mentions ["interrupted", "sigint", "user cancelled"] then "user_interrupted"
  else if mentions ["validation", "schema", "invalid argument"] then "schema_validation_error"
  else "tool_verification_failed"

def normalizeClassificationAndErrors (input : AgentHookInput) : AgentHookInput :=
  let cmd := input.commandText
  let input :=
    match input.resolvedToolName with
    | some tool => (input.classifyCapability tool).classifyArchetype tool cmd
    | none => input
  if input.errored ∧ input.errorCategory = none then
    { input with errorCategory := some (categorize (input.error.getD "")) }
  else input

def normalizeWithContext (input : AgentHookInput) (workspace : Option WorkspaceContext) :
    AgentHookInput :=
  let input :=
    match workspace with
    | some ctx => input.fillWorkspace ctx
    | none => input
  input.normalizeClassificationAndErrors

end AgentHookInput

end AgentOtelBridge
