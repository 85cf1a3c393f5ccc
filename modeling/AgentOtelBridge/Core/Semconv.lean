import AgentOtelBridge.Lib.Text

/-!
# Semantic conventions

The attribute names the modelled code reads and writes, and what a model name says
of its provider and its agent.
-/

namespace AgentOtelBridge.Semconv

def genAiOperationName : String := "gen_ai.operation.name"
def genAiOperationExecuteTool : String := "execute_tool"
def genAiOperationInvokeAgent : String := "invoke_agent"

def genAiProviderName : String := "gen_ai.provider.name"
def genAiProviderGoogle : String := "google"
def genAiProviderAnthropic : String := "anthropic"
def genAiProviderOpenai : String := "openai"
def genAiProviderXai : String := "xai"
def genAiProviderPi : String := "pi"
/-- The provider of a model that matches no known one. -/
def genAiProviderUnknown : String := "unknown"
def genAiSystem : String := "gen_ai.system"

def genAiAgentName : String := "gen_ai.agent.name"
def genAiConversationId : String := "gen_ai.conversation.id"
def genAiRequestModel : String := "gen_ai.request.model"
def genAiResponseModel : String := "gen_ai.response.model"
def genAiToolName : String := "gen_ai.tool.name"
def genAiToolCallId : String := "gen_ai.tool.call.id"
def genAiUsageInputTokens : String := "gen_ai.usage.input_tokens"
def genAiUsageOutputTokens : String := "gen_ai.usage.output_tokens"
def genAiUsageCacheReadTokens : String := "gen_ai.usage.cache_read_tokens"
def genAiResponseFinishReasons : String := "gen_ai.response.finish_reasons"

def userEmail : String := "user.email"
def terminalType : String := "terminal.type"
def agentDecision : String := "agent.decision"
def agentSuccess : String := "agent.success"
def agentExecutionMode : String := "agent.execution.mode"

def agentGitLinesAdded : String := "agent.git.lines_added"
def agentGitLinesDeleted : String := "agent.git.lines_deleted"
def agentGitFilesChanged : String := "agent.git.files_changed"
def agentGitSelfRevert : String := "agent.git.self_revert"

def workspacePath : String := "workspace.path"
def workspaceProjectName : String := "workspace.project_name"
def workspaceProjectRoot : String := "workspace.project_root"
def workspaceProjectType : String := "workspace.project_type"

def vcsSystem : String := "vcs.system"
def vcsRepositoryName : String := "vcs.repository.name"
def vcsBranchName : String := "vcs.branch.name"
def vcsCommitSha : String := "vcs.commit.sha"
def vcsRefHeadName : String := "vcs.ref.head.name"
def vcsRefHeadRevision : String := "vcs.ref.head.revision"
def vcsWorktreeActive : String := "vcs.worktree.active"

def agentToolArchetype : String := "agent.tool.archetype"
def agentToolBinary : String := "agent.tool.binary"
def agentToolWrappedBinary : String := "agent.tool.wrapped_binary"
def agentToolPipelineDepth : String := "agent.tool.pipeline_depth"
def agentToolCompressionRatio : String := "agent.tool.compression_ratio"
def agentToolTokensSaved : String := "agent.tool.tokens_saved"

def capabilityKind : String := "capability.kind"
def capabilityNamespace : String := "capability.namespace"
def capabilityName : String := "capability.name"
def capabilitySchemaTokens : String := "capability.schema_tokens"
def capabilityResponseBytes : String := "capability.response_bytes"
def capabilityResponseTokens : String := "capability.response_tokens"
def capabilityConsecutiveRetries : String := "capability.consecutive_retries"
def capabilityIsWaste : String := "capability.is_waste"

def genAiAgentDepth : String := "gen_ai.agent.depth"
def genAiAgentParentName : String := "gen_ai.agent.parent_name"
def genAiAgentRootId : String := "gen_ai.agent.root_id"
def genAiAgentIsRoot : String := "gen_ai.agent.is_root"
def agentLineageDepth : String := "agent.lineage.depth"
def agentLineageParentName : String := "agent.lineage.parent_name"
def agentLineageRootId : String := "agent.lineage.root_id"
def agentLineageIsRoot : String := "agent.lineage.is_root"

def agentErrorCategory : String := "agent.error.category"
def errorType : String := "error.type"

def agentHookEvent : String := "agent.hook.event"
/-- True when the daemon joined a Pre hook with a later Post or Stop. -/
def agentSpanPaired : String := "agent.span.paired"
def agentStepIndex : String := "agent.step.index"
def genAiAgentStepIndex : String := "gen_ai.agent.step_index"
def agentExecutionNum : String := "agent.execution.num"
def agentFullyIdle : String := "agent.fully_idle"
def agentTerminationReason : String := "agent.termination_reason"

def agyHookEvent : String := "agy.hook.event"
def agyTerminationReason : String := "agy.termination_reason"
def agyExecutionNum : String := "agy.execution.num"
def agyFullyIdle : String := "agy.fully_idle"
def agyStepIndex : String := "agy.step.index"

/-- The first rule one of whose words a text mentions. -/
def firstMention (text : String) (rules : List (List String × String)) (default : String) : String :=
  ((rules.find? fun rule => rule.1.any (Text.contains text)).map (·.2)).getD default

def inferProvider (model : String) : String :=
  firstMention (Text.asciiLower model)
    [(["claude"], genAiProviderAnthropic), (["gemini"], genAiProviderGoogle),
      (["grok"], genAiProviderXai), (["pi"], genAiProviderPi),
      (["gpt", "o1", "o3", "o4", "codex"], genAiProviderOpenai)]
    genAiProviderUnknown

/-- The agent a client hint names. -/
def hintedAgent (hint : String) : Option String :=
  (([(["claude", "claude-code", "claudecode"], "claude-code"),
      (["antigravity", "agy", "gemini"], "antigravity"), (["grok", "xai", "grok-cli"], "grok"),
      (["codex", "codex-cli", "openai"], "codex"), (["pi", "pi-cli"], "pi")] :
    List (List String × String)).find? fun rule => rule.1.elem (Text.asciiLower hint)).map (·.2)

/-- The agent a model suggests. -/
def suggestedAgent (model : String) : String :=
  firstMention (Text.asciiLower model)
    [(["claude"], "claude-code"), (["gemini"], "antigravity"), (["grok"], "grok"),
      (["codex", "gpt", "o1", "o3", "o4"], "codex"), (["pi"], "pi")]
    "ai-agent"

def inferAgentName (model clientHint : Option String) : String :=
  (clientHint.bind hintedAgent).getD (model.elim "ai-agent" suggestedAgent)

end AgentOtelBridge.Semconv
