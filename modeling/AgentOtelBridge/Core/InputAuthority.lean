import AgentOtelBridge.Core.Input

/-!
# What the hook supplies

Normalization fills seventeen fields of an input, those of `Enrichment`, and leaves the
others (`withEnrichment`).  Where one field of a group is missing, it fills the group: a
capability is classified as a whole where its kind is missing, and a command where its
archetype is.  So a value that the hook supplied stays only if it is the one that the
classification gives (`authoritative_iff`).
-/

namespace AgentOtelBridge

/-- The fields that normalization fills. -/
structure Enrichment where
  workspacePath : Option String
  projectName : Option String
  projectRoot : Option String
  projectType : Option String
  vcsSystem : Option String
  vcsRepository : Option String
  vcsBranch : Option String
  vcsCommit : Option String
  vcsWorktree : Option Bool
  toolArchetype : Option String
  toolBinary : Option String
  toolWrappedBinary : Option String
  toolPipelineDepth : Option UInt32
  capabilityKind : Option String
  capabilityNamespace : Option String
  capabilityName : Option String
  errorCategory : Option String
deriving DecidableEq

/-- The fields of `a` that are there, and those of `b` for the others. -/
def Enrichment.orElse (a b : Enrichment) : Enrichment where
  workspacePath := a.workspacePath.or b.workspacePath
  projectName := a.projectName.or b.projectName
  projectRoot := a.projectRoot.or b.projectRoot
  projectType := a.projectType.or b.projectType
  vcsSystem := a.vcsSystem.or b.vcsSystem
  vcsRepository := a.vcsRepository.or b.vcsRepository
  vcsBranch := a.vcsBranch.or b.vcsBranch
  vcsCommit := a.vcsCommit.or b.vcsCommit
  vcsWorktree := a.vcsWorktree.or b.vcsWorktree
  toolArchetype := a.toolArchetype.or b.toolArchetype
  toolBinary := a.toolBinary.or b.toolBinary
  toolWrappedBinary := a.toolWrappedBinary.or b.toolWrappedBinary
  toolPipelineDepth := a.toolPipelineDepth.or b.toolPipelineDepth
  capabilityKind := a.capabilityKind.or b.capabilityKind
  capabilityNamespace := a.capabilityNamespace.or b.capabilityNamespace
  capabilityName := a.capabilityName.or b.capabilityName
  errorCategory := a.errorCategory.or b.errorCategory

namespace AgentHookInput

variable (input : AgentHookInput) (ctx : Option WorkspaceContext)

def enrichment : Enrichment :=
  ⟨input.workspacePath, input.projectName, input.projectRoot, input.projectType, input.vcsSystem,
    input.vcsRepository, input.vcsBranch, input.vcsCommit, input.vcsWorktree, input.toolArchetype,
    input.toolBinary, input.toolWrappedBinary, input.toolPipelineDepth, input.capabilityKind,
    input.capabilityNamespace, input.capabilityName, input.errorCategory⟩

/-- The input with other values of the fields that normalization fills. -/
def withEnrichment (e : Enrichment) : AgentHookInput :=
  { input with
    workspacePath := e.workspacePath
    projectName := e.projectName
    projectRoot := e.projectRoot
    projectType := e.projectType
    vcsSystem := e.vcsSystem
    vcsRepository := e.vcsRepository
    vcsBranch := e.vcsBranch
    vcsCommit := e.vcsCommit
    vcsWorktree := e.vcsWorktree
    toolArchetype := e.toolArchetype
    toolBinary := e.toolBinary
    toolWrappedBinary := e.toolWrappedBinary
    toolPipelineDepth := e.toolPipelineDepth
    capabilityKind := e.capabilityKind
    capabilityNamespace := e.capabilityNamespace
    capabilityName := e.capabilityName
    errorCategory := e.errorCategory }

/-- Every field that is there stays.  The others than those of the enrichment are equal. -/
structure Keeps (input output : AgentHookInput) : Prop where
  frame : output = input.withEnrichment output.enrichment
  kept : input.enrichment.orElse output.enrichment = output.enrichment

/-- The workspace fields are those of the input, and those of the context where they are
missing. -/
structure Filled (input : AgentHookInput) (ctx : Option WorkspaceContext) (output : AgentHookInput) :
    Prop where
  workspacePath : output.workspacePath = input.workspacePath.or (ctx.map (·.currentDir))
  projectName : output.projectName = input.projectName.or (ctx.bind (·.projectName))
  projectRoot : output.projectRoot = input.projectRoot.or (ctx.bind (·.projectRoot))
  projectType : output.projectType = input.projectType.or (ctx.bind (·.projectType))
  vcsSystem : output.vcsSystem = input.vcsSystem.or (ctx.bind (·.vcsSystem))
  vcsRepository : output.vcsRepository = input.vcsRepository.or (ctx.bind (·.vcsRepository))
  vcsBranch : output.vcsBranch = input.vcsBranch.or (ctx.bind (·.vcsBranch))
  vcsCommit : output.vcsCommit = input.vcsCommit.or (ctx.bind (·.vcsCommit))
  vcsWorktree : output.vcsWorktree = input.vcsWorktree.or (ctx.bind (·.vcsWorktree))

/-- Normalization leaves what the hook supplied, and what it supplied itself before. -/
structure Authoritative : Prop where
  keeps : input.Keeps (input.normalizeWithContext ctx)
  filled : input.Filled ctx (input.normalizeWithContext ctx)
  again : ∀ ctx', (input.normalizeWithContext ctx).Keeps
    ((input.normalizeWithContext ctx).normalizeWithContext ctx')

/-! ## The result of a normalization -/

/-- The capability of the tool, where its kind is missing. -/
def missingCapability : Option ClassifiedCapability :=
  if input.capabilityKind = none then input.resolvedToolName.map ClassifiedCapability.classify
  else none

/-- The command of the tool, where its archetype is missing. -/
def missingCommand : Option ClassifiedCommand :=
  if input.toolArchetype = none then
    input.resolvedToolName.map fun tool => ClassifiedCommand.classify (input.commandText.getD tool)
  else none

/-- The category of the error, where it is missing. -/
def missingCategory : Option String :=
  if input.errored ∧ input.errorCategory = none then some (categorize (input.error.getD "")) else none

/-- What normalization makes of the fields it fills. -/
def normalized : Enrichment where
  workspacePath := input.workspacePath.or (ctx.map (·.currentDir))
  projectName := input.projectName.or (ctx.bind (·.projectName))
  projectRoot := input.projectRoot.or (ctx.bind (·.projectRoot))
  projectType := input.projectType.or (ctx.bind (·.projectType))
  vcsSystem := input.vcsSystem.or (ctx.bind (·.vcsSystem))
  vcsRepository := input.vcsRepository.or (ctx.bind (·.vcsRepository))
  vcsBranch := input.vcsBranch.or (ctx.bind (·.vcsBranch))
  vcsCommit := input.vcsCommit.or (ctx.bind (·.vcsCommit))
  vcsWorktree := input.vcsWorktree.or (ctx.bind (·.vcsWorktree))
  toolArchetype := (input.missingCommand.map (·.archetype.asStr)).or input.toolArchetype
  toolBinary := (input.missingCommand.map (·.binary)).or input.toolBinary
  toolWrappedBinary := input.missingCommand.elim input.toolWrappedBinary (·.wrappedBinary)
  toolPipelineDepth :=
    (input.missingCommand.map fun command => .ofNat command.pipelineDepth).or input.toolPipelineDepth
  capabilityKind := (input.missingCapability.map (·.kind.asStr)).or input.capabilityKind
  capabilityNamespace := (input.missingCapability.map (·.namespace)).or input.capabilityNamespace
  capabilityName := (input.missingCapability.map (·.operation)).or input.capabilityName
  errorCategory := input.missingCategory.or input.errorCategory

section

variable {input : AgentHookInput} {ctx : Option WorkspaceContext}

@[simp] theorem enrichment_withEnrichment (input : AgentHookInput) (e : Enrichment) :
    (input.withEnrichment e).enrichment = e := rfl

@[simp] theorem withEnrichment_withEnrichment (input : AgentHookInput) (e e' : Enrichment) :
    (input.withEnrichment e).withEnrichment e' = input.withEnrichment e' := rfl

@[simp] theorem withEnrichment_enrichment (input : AgentHookInput) :
    input.withEnrichment input.enrichment = input := rfl

/-- The tool of an input is not one of the fields that normalization fills. -/
theorem missing_withEnrichment (input : AgentHookInput) (e : Enrichment) :
    (input.withEnrichment e).resolvedToolName = input.resolvedToolName ∧
      (input.withEnrichment e).commandText = input.commandText ∧
      (input.withEnrichment e).errored = input.errored := ⟨rfl, rfl, rfl⟩

/-- What the classification of the capability fills. -/
def withCapability (input : AgentHookInput) : Enrichment :=
  { input.enrichment with
    capabilityKind := (input.missingCapability.map (·.kind.asStr)).or input.capabilityKind
    capabilityNamespace := (input.missingCapability.map (·.namespace)).or input.capabilityNamespace
    capabilityName := (input.missingCapability.map (·.operation)).or input.capabilityName }

/-- What the classification of the command fills. -/
def withCommand (input : AgentHookInput) : Enrichment :=
  { input.enrichment with
    toolArchetype := (input.missingCommand.map (·.archetype.asStr)).or input.toolArchetype
    toolBinary := (input.missingCommand.map (·.binary)).or input.toolBinary
    toolWrappedBinary := input.missingCommand.elim input.toolWrappedBinary (·.wrappedBinary)
    toolPipelineDepth := (input.missingCommand.map fun command =>
      .ofNat command.pipelineDepth).or input.toolPipelineDepth }

theorem classifyCapability_eq {tool : String} (named : input.resolvedToolName = some tool) :
    input.classifyCapability tool = input.withEnrichment input.withCapability := by
  unfold classifyCapability withCapability missingCapability
  rw [named]
  split <;> rfl

theorem classifyArchetype_eq {tool : String} (named : input.resolvedToolName = some tool) :
    input.classifyArchetype tool input.commandText = input.withEnrichment input.withCommand := by
  unfold classifyArchetype withCommand missingCommand
  rw [named]
  split <;> rfl

/-- The last step of normalization. -/
theorem categorized_eq (input : AgentHookInput) :
    (if input.errored ∧ input.errorCategory = none then
      { input with errorCategory := some (categorize (input.error.getD "")) }
    else input) = input.withEnrichment
      { input.enrichment with errorCategory := input.missingCategory.or input.errorCategory } := by
  unfold missingCategory
  split <;> rfl

/-- Without a tool nothing is classified. -/
theorem missing_of_unnamed (unnamed : input.resolvedToolName = none) :
    input.missingCapability = none ∧ input.missingCommand = none := by
  unfold missingCapability missingCommand
  rw [unnamed]
  constructor <;> split <;> rfl

/-- Normalization without a context. -/
theorem normalizeClassificationAndErrors_eq (input : AgentHookInput) :
    input.normalizeClassificationAndErrors = input.withEnrichment (input.normalized none) := by
  unfold normalizeClassificationAndErrors
  cases named : input.resolvedToolName with
  | none =>
      obtain ⟨capability, command⟩ := missing_of_unnamed named
      refine (categorized_eq input).trans (congrArg input.withEnrichment ?_)
      simp [normalized, capability, command, enrichment]
  | some tool =>
      have capability := classifyCapability_eq named
      have named' : (input.classifyCapability tool).resolvedToolName = some tool := by
        rw [capability]
        exact named
      have command := classifyArchetype_eq named'
      have text : (input.classifyCapability tool).commandText = input.commandText := by
        rw [capability]
        rfl
      rw [text] at command
      simp only
      rw [command, categorized_eq, capability]
      refine congrArg input.withEnrichment ?_
      simp only [normalized, Option.map_none, Option.bind_none, Option.or_none]
      rfl

/-- What a normalization makes of an input. -/
theorem normalizeWithContext_eq (input : AgentHookInput) (ctx : Option WorkspaceContext) :
    input.normalizeWithContext ctx = input.withEnrichment (input.normalized ctx) := by
  unfold normalizeWithContext
  cases ctx with
  | none => exact normalizeClassificationAndErrors_eq input
  | some ctx =>
      refine (normalizeClassificationAndErrors_eq _).trans (congrArg input.withEnrichment ?_)
      simp only [normalized, Option.map_none, Option.bind_none, Option.or_none, Option.map_some,
        Option.bind_some]
      rfl

/-! ## What stays -/

/-- A field that only one that is missing is filled into stays. -/
theorem or_or_self {α : Type} (a b : Option α) : a.or (a.or b) = a.or b := by
  rw [← Option.or_assoc, Option.or_self]

/-- The field whose absence a classification is made for stays. -/
theorem or_missing {α : Type} (a missing : Option α) (unneeded : a ≠ none → missing = none) :
    a.or (missing.or a) = missing.or a := by
  cases a with
  | none => rfl
  | some value => rw [unneeded (by simp)]; rfl

/-- Another field of the group stays if the classification gives the same. -/
theorem or_classified_iff {α β : Type} {a : Option α} {missing : Option β} {f : β → Option α} :
    a.or (missing.elim a f) = missing.elim a f ↔
      ∀ classified, missing = some classified → ∀ value, a = some value → f classified = some value := by
  cases missing with
  | none => simp
  | some classified => cases a <;> simp [eq_comm]

theorem map_or_eq_elim {α β : Type} (a : Option α) (missing : Option β) (f : β → α) :
    (missing.map f).or a = missing.elim a fun classified => some (f classified) := by
  cases missing <;> rfl

/-- Where a kind or an archetype is missing, what the hook supplied of its group is what the
classification gives. -/
structure Consistent (input : AgentHookInput) : Prop where
  capabilityNamespace : ∀ cap, input.missingCapability = some cap → ∀ value,
    input.capabilityNamespace = some value → cap.namespace = value
  capabilityName : ∀ cap, input.missingCapability = some cap → ∀ value,
    input.capabilityName = some value → cap.operation = value
  toolBinary : ∀ command, input.missingCommand = some command → ∀ value,
    input.toolBinary = some value → command.binary = value
  toolWrappedBinary : ∀ command, input.missingCommand = some command → ∀ value,
    input.toolWrappedBinary = some value → command.wrappedBinary = some value
  toolPipelineDepth : ∀ command, input.missingCommand = some command → ∀ value,
    input.toolPipelineDepth = some value → UInt32.ofNat command.pipelineDepth = value

theorem missingCapability_of_kind (supplied : input.capabilityKind ≠ none) :
    input.missingCapability = none := if_neg supplied

theorem missingCommand_of_archetype (supplied : input.toolArchetype ≠ none) :
    input.missingCommand = none := if_neg supplied

theorem missingCategory_of_category (supplied : input.errorCategory ≠ none) :
    input.missingCategory = none := if_neg fun h => supplied h.2

/-- Which inputs a normalization leaves what they have. -/
theorem keeps_iff (input : AgentHookInput) (ctx : Option WorkspaceContext) :
    input.Keeps (input.normalizeWithContext ctx) ↔ input.Consistent := by
  have kind := or_missing input.capabilityKind (input.missingCapability.map (·.kind.asStr))
    fun supplied => by rw [missingCapability_of_kind supplied]; rfl
  have archetype := or_missing input.toolArchetype (input.missingCommand.map (·.archetype.asStr))
    fun supplied => by rw [missingCommand_of_archetype supplied]; rfl
  have category := or_missing input.errorCategory input.missingCategory missingCategory_of_category
  have kept : input.enrichment.orElse (input.normalized ctx) = input.normalized ctx ↔
      input.Consistent := by
    simp only [Enrichment.orElse, normalized, enrichment, Enrichment.mk.injEq, or_or_self, kind,
      archetype, category, true_and, and_true]
    -- The five fields that are left are those of a group besides its leader.
    simp only [map_or_eq_elim, or_classified_iff, Option.some.injEq]
    constructor
    · rintro ⟨binary, wrapped, depth, space, name⟩
      exact ⟨space, name, binary, wrapped, depth⟩
    · rintro ⟨space, name, binary, wrapped, depth⟩
      exact ⟨binary, wrapped, depth, space, name⟩
  rw [normalizeWithContext_eq]
  exact ⟨fun keeps => kept.mp keeps.kept, fun consistent => ⟨rfl, kept.mpr consistent⟩⟩

/-- A normalized input has a kind and an archetype if it has a tool. -/
theorem consistent_normalized (input : AgentHookInput) (ctx : Option WorkspaceContext) :
    (input.normalizeWithContext ctx).Consistent := by
  have named : (input.normalizeWithContext ctx).resolvedToolName = input.resolvedToolName := by
    rw [normalizeWithContext_eq]
    rfl
  have capability : (input.normalizeWithContext ctx).missingCapability = none := by
    unfold missingCapability
    rw [named]
    cases tool : input.resolvedToolName with
    | none => split <;> rfl
    | some tool =>
        refine if_neg ?_
        rw [normalizeWithContext_eq]
        show (input.normalized ctx).capabilityKind ≠ none
        unfold normalized missingCapability
        rw [tool]
        by_cases supplied : input.capabilityKind = none <;> simp [supplied]
  have command : (input.normalizeWithContext ctx).missingCommand = none := by
    unfold missingCommand
    rw [named]
    cases tool : input.resolvedToolName with
    | none => split <;> rfl
    | some tool =>
        refine if_neg ?_
        rw [normalizeWithContext_eq]
        show (input.normalized ctx).toolArchetype ≠ none
        unfold normalized missingCommand
        rw [tool]
        by_cases supplied : input.toolArchetype = none <;> simp [supplied]
  constructor <;> intro classified missing <;> simp [capability, command] at missing

theorem filled_normalized (input : AgentHookInput) (ctx : Option WorkspaceContext) :
    input.Filled ctx (input.normalizeWithContext ctx) := by
  rw [normalizeWithContext_eq]
  exact ⟨rfl, rfl, rfl, rfl, rfl, rfl, rfl, rfl, rfl⟩

end

/-- **Hook-supplied values stay authoritative** exactly if, where a kind or an archetype is
missing, those of its group are the ones that are classified. -/
theorem authoritative_iff (input : AgentHookInput) (ctx : Option WorkspaceContext) :
    input.Authoritative ctx ↔ input.Consistent := by
  constructor
  · exact fun authoritative => (keeps_iff input ctx).mp authoritative.keeps
  · intro consistent
    exact ⟨(keeps_iff input ctx).mpr consistent, filled_normalized input ctx,
      fun ctx' => (keeps_iff _ ctx').mpr (consistent_normalized input ctx)⟩

/-- A namespace without a kind is replaced. -/
theorem not_authoritative_namespace :
    ¬ ∀ (input : AgentHookInput) (ctx : Option WorkspaceContext), input.Authoritative ctx := by
  intro all
  have kept := (all { toolName := some "Bash", capabilityNamespace := some "shell" } none).keeps.kept
  exact absurd (congrArg Enrichment.capabilityNamespace kept) (by decide +kernel)

end AgentHookInput

end AgentOtelBridge
