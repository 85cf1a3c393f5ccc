import AgentOtelBridge.Lib.Text

/-!
# Capabilities

The kind, the namespace and the operation of a tool, read from its name.
-/

namespace AgentOtelBridge

inductive CapabilityKind where
  | native
  | skill
  | mcp
  | subagent
deriving DecidableEq, Repr

def CapabilityKind.asStr : CapabilityKind → String
  | .native => "native"
  | .skill => "skill"
  | .mcp => "mcp"
  | .subagent => "subagent"

structure ClassifiedCapability where
  kind : CapabilityKind
  «namespace» : String
  operation : String
deriving DecidableEq, Repr

namespace ClassifiedCapability

/-- `<server>__<tool>`: what is after the prefix of a kind. -/
def ofParts (kind : CapabilityKind) (rest : String) : ClassifiedCapability :=
  match Text.splitOnce "__" rest with
  | some (server, tool) => ⟨kind, server, tool⟩
  | none => ⟨kind, rest, rest⟩

def classify (toolName : String) : ClassifiedCapability :=
  let trimmed := Text.trim toolName
  match Text.stripPrefix "mcp__" trimmed with
  | some rest => ofParts .mcp rest
  | none =>
      match Text.stripPrefix "skill__" trimmed with
      | some rest => ofParts .skill rest
      | none =>
          if trimmed ∈ ["invoke_subagent", "manage_subagents", "define_subagent", "run_subagent"] then
            ⟨.subagent, "fleet", trimmed⟩
          else ⟨.native, "core", trimmed⟩

end ClassifiedCapability

end AgentOtelBridge
