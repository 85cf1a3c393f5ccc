import AgentOtelBridge.Core.Otlp

/-!
# The provider and the agent of a model

A span of a hook without an agent name has its provider and its agent from the model.  Both are
inferred from the words that the model mentions, each by a list of its own.  The lists have the
same words for each vendor, but not in the same order: the provider of `pi` comes before that of
`gpt` and the like, the agent comes behind.
-/

namespace AgentOtelBridge

open Semconv

/-- The providers, each with its agent. -/
def vendors : List (String × String) :=
  [(genAiProviderAnthropic, "claude-code"), (genAiProviderGoogle, "antigravity"),
    (genAiProviderXai, "grok"), (genAiProviderOpenai, "codex"), (genAiProviderPi, "pi"),
    (genAiProviderUnknown, "ai-agent")]

def openaiWords : List String := ["gpt", "o1", "o3", "o4", "codex"]

/-- A model that mentions `pi` and a word of OpenAI, and no vendor that comes before both. -/
def MentionsBoth (model : String) : Prop :=
  let lower := Text.asciiLower model
  Text.contains lower "pi" = true ∧ openaiWords.any (Text.contains lower) = true ∧
    Text.contains lower "claude" = false ∧ Text.contains lower "gemini" = false ∧
    Text.contains lower "grok" = false

/-! ## Rules -/

theorem firstMention_nil (text default : String) : firstMention text [] default = default := rfl

theorem firstMention_cons (text : String) (words : List String) (name : String)
    (rules : List (List String × String)) (default : String) :
    firstMention text ((words, name) :: rules) default =
      if words.any (Text.contains text) then name else firstMention text rules default := by
  rw [firstMention, List.find?_cons]
  cases words.any (Text.contains text) <;> rfl

/-- The two lists of the words of OpenAI. -/
theorem any_openaiWords (mentioned : String → Bool) :
    ["codex", "gpt", "o1", "o3", "o4"].any mentioned = openaiWords.any mentioned := by
  have order : ["codex", "gpt", "o1", "o3", "o4"].Perm openaiWords := by decide
  exact order.any_eq

/-! ## Spans -/

section

variable (sha256 : List UInt8 → List UInt8) (event : HookEvent) (input : AgentHookInput)
  (start finish : Nat) (salt : UInt32) (context : ResolvedTraceContext)
  (metadata : ResolvedSpanMetadata) (aliases experimental : Bool)

/-- The name of the agent in a span, which is the model's if the input has none. -/
theorem agentName_build (input : AgentHookInput) :
    findKey genAiAgentName (attributesOf (spanSlots event input metadata aliases experimental)) =
      some ⟨genAiAgentName, some ⟨some (.stringValue input.spanAgentName)⟩⟩ := by
  have present : Slot.string genAiAgentName (some input.spanAgentName) ∈
      spanSlots event input metadata aliases experimental := by
    simp [spanSlots, agentSlots]
  exact findKey_build present

/-- The name of the provider in a span. -/
theorem providerName_build (input : AgentHookInput) :
    findKey genAiProviderName (attributesOf (spanSlots event input metadata aliases experimental)) =
      (input.provider experimental).map fun provider =>
        ⟨genAiProviderName, some ⟨some (.stringValue provider)⟩⟩ := by
  have present : Slot.string genAiProviderName (input.provider experimental) ∈
      spanSlots event input metadata aliases experimental := by
    simp [spanSlots, agentSlots]
  have found := findKey_build present
  cases named : input.provider experimental <;> rw [named] at found <;> exact found

/-- With the opt-in, an unknown provider is left out. -/
theorem provider_of_model {input : AgentHookInput} {model : String} (given : input.model = some model) :
    input.provider experimental =
      if experimental = true ∧ inferProvider model = genAiProviderUnknown then none
      else some (inferProvider model) := by
  cases experimental with
  | false => simp [AgentHookInput.provider, given]
  | true =>
      simp only [AgentHookInput.provider, given, Option.map_some, if_true, Option.filter_some,
        true_and]
      by_cases unknown : inferProvider model = genAiProviderUnknown
      · simp [unknown]
      · simp [unknown]

end

/-! ## The two lists -/

theorem inferProvider_eq (model : String) :
    inferProvider model =
      let mentions := Text.contains (Text.asciiLower model)
      if mentions "claude" then genAiProviderAnthropic
      else if mentions "gemini" then genAiProviderGoogle
      else if mentions "grok" then genAiProviderXai
      else if mentions "pi" then genAiProviderPi
      else if openaiWords.any mentions then genAiProviderOpenai
      else genAiProviderUnknown := by
  have listed : openaiWords = ["gpt", "o1", "o3", "o4", "codex"] := rfl
  simp only [inferProvider, firstMention_cons, firstMention_nil, ← listed]
  simp only [List.any_cons, List.any_nil, Bool.or_false]

/-- The agent of OpenAI comes before that of `pi`. -/
theorem inferAgentName_eq (model : String) :
    inferAgentName (some model) none =
      let mentions := Text.contains (Text.asciiLower model)
      if mentions "claude" then "claude-code"
      else if mentions "gemini" then "antigravity"
      else if mentions "grok" then "grok"
      else if openaiWords.any mentions then "codex"
      else if mentions "pi" then "pi"
      else "ai-agent" := by
  have suggested : inferAgentName (some model) none = suggestedAgent model := rfl
  rw [suggested, suggestedAgent]
  simp only [firstMention_cons, firstMention_nil, any_openaiWords]
  simp only [List.any_cons, List.any_nil, Bool.or_false]

/-- The provider and the agent of a model are of one vendor exactly if the model does not mention
both `pi` and a word of OpenAI. -/
theorem mem_vendors_iff (model : String) :
    (inferProvider model, inferAgentName (some model) none) ∈ vendors ↔ ¬MentionsBoth model := by
  rw [inferProvider_eq, inferAgentName_eq, MentionsBoth]
  dsimp only
  generalize Text.contains (Text.asciiLower model) = mentions
  -- a vendor before both decides alone
  cases claude : mentions "claude" with
  | true => simp [vendors]
  | false =>
      cases gemini : mentions "gemini" with
      | true => simp [vendors]
      | false =>
          cases grok : mentions "grok" with
          | true => simp [vendors]
          | false =>
              cases pi : mentions "pi" <;> cases openai : openaiWords.any mentions <;>
                simp [vendors, genAiProviderPi, genAiProviderOpenai, genAiProviderUnknown]

/-- The name of the agent and of the provider in the span of a hook without an agent name, and when
they are of one vendor. -/
theorem buildSpanFromResolved_vendor (sha256 : List UInt8 → List UInt8) (event : HookEvent)
    (input : AgentHookInput) (start finish : Nat) (salt : UInt32) (context : ResolvedTraceContext)
    (metadata : ResolvedSpanMetadata) (aliases experimental : Bool) (model : String) :
    let span := buildSpanFromResolved sha256 event
      { input with model := some model, agentName := none } start finish salt context metadata
      aliases experimental
    (findKey genAiAgentName span.attributes =
        some ⟨genAiAgentName, some ⟨some (.stringValue (inferAgentName (some model) none))⟩⟩ ∧
      findKey genAiProviderName span.attributes =
        if experimental = true ∧ inferProvider model = genAiProviderUnknown then none
        else some ⟨genAiProviderName, some ⟨some (.stringValue (inferProvider model))⟩⟩) ∧
    ((inferProvider model, inferAgentName (some model) none) ∈ vendors ↔ ¬MentionsBoth model) := by
  intro span
  have agent := agentName_build event metadata aliases experimental
    { input with model := some model, agentName := none }
  have provider := providerName_build event metadata aliases experimental
    { input with model := some model, agentName := none }
  rw [provider_of_model experimental rfl] at provider
  refine ⟨⟨agent, ?_⟩, mem_vendors_iff model⟩
  rw [apply_ite (Option.map _)] at provider
  exact provider

/-- A model of OpenAI with the agent of OpenAI and the provider of `pi`. -/
theorem copilot_of_pi :
    ¬∀ model : String, (inferProvider model, inferAgentName (some model) none) ∈ vendors := by
  intro agree
  exact absurd (agree "gpt-4o-copilot") (by decide)

end AgentOtelBridge
