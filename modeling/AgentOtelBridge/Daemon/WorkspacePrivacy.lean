import AgentOtelBridge.Daemon.Transform
import AgentOtelBridge.Lib.UnixPathPrefix

/-!
# Relative workspace paths

In the relative mode a span reports where the workspace is below the project root,
and the name of the root.  `HidesAbove` says that nothing above the root shows: no
reported path is absolute, and two events whose roots lie in different directories
report the same.

An empty root is a prefix of every path, and then the whole path is reported.  That
is the only exception (`relative_hidesAbove`).
-/

namespace AgentOtelBridge

open Semconv
open Text (asBytes)
open UnixPath (isAbsolute segments bodyOf under StartsNamed)

/-! ## The paths of an event -/

namespace AgentHookInput

/-- The workspace path of the payload, or of the context. -/
def effectivePath (input : AgentHookInput) (ctx : Option WorkspaceContext) : Option String :=
  input.workspacePath.or (ctx.map (·.currentDir))

/-- The project root of the payload, or of the context. -/
def effectiveRoot (input : AgentHookInput) (ctx : Option WorkspaceContext) : Option String :=
  input.projectRoot.or (ctx.bind (·.projectRoot))

theorem normalizeClassification_paths (input : AgentHookInput) :
    input.normalizeClassificationAndErrors.workspacePath = input.workspacePath ∧
      input.normalizeClassificationAndErrors.projectRoot = input.projectRoot := by
  have capability : ∀ (input : AgentHookInput) tool,
      (input.classifyCapability tool).workspacePath = input.workspacePath ∧
        (input.classifyCapability tool).projectRoot = input.projectRoot := by
    intro input tool
    unfold classifyCapability
    split <;> exact ⟨rfl, rfl⟩
  have archetype : ∀ (input : AgentHookInput) tool cmd,
      (input.classifyArchetype tool cmd).workspacePath = input.workspacePath ∧
        (input.classifyArchetype tool cmd).projectRoot = input.projectRoot := by
    intro input tool cmd
    unfold classifyArchetype
    split <;> exact ⟨rfl, rfl⟩
  unfold normalizeClassificationAndErrors
  cases input.resolvedToolName with
  | none =>
      simp only
      split <;> exact ⟨rfl, rfl⟩
  | some tool =>
      have classified := archetype (input.classifyCapability tool) tool input.commandText
      have sorted := capability input tool
      simp only
      split <;> exact ⟨classified.1.trans sorted.1, classified.2.trans sorted.2⟩

theorem normalizeWithContext_paths (input : AgentHookInput) (ctx : Option WorkspaceContext) :
    (input.normalizeWithContext ctx).workspacePath = input.effectivePath ctx ∧
      (input.normalizeWithContext ctx).projectRoot = input.effectiveRoot ctx := by
  unfold normalizeWithContext effectivePath effectiveRoot
  cases ctx with
  | none =>
      have kept := input.normalizeClassification_paths
      simpa using kept
  | some ctx => exact (input.fillWorkspace ctx).normalizeClassification_paths

end AgentHookInput

/-- The path below the root, when both are known. -/
def relativePath (path root : Option String) : Option String :=
  root.bind fun root => path.bind fun path => relativeWorkspacePath path root

theorem applyRelativeWorkspace_paths (input : AgentHookInput) :
    (applyRelativeWorkspace input).workspacePath =
        relativePath input.workspacePath input.projectRoot ∧
      (applyRelativeWorkspace input).projectRoot = input.projectRoot.bind finalPathComponent := by
  refine ⟨?_, rfl⟩
  unfold applyRelativeWorkspace relativePath
  cases input.workspacePath <;> cases input.projectRoot <;> rfl

namespace Transformer

/-- The input that a frame carries, as it is looked up in the cache, and the context
found for it. -/
def Reads (T : Transformer) (a : Arrival) (input : AgentHookInput)
    (ctx : Option WorkspaceContext) : Prop :=
  ∃ header traceparent bytes parsed,
    Ipc.decodeWirePayload a.frame.msgType a.frame.payload = some (header, traceparent, bytes) ∧
    T.parseSlice bytes = some parsed ∧ input = addressed header.clientId T.mode parsed ∧
    ctx = (a.contexts input).context

/-- A frame that becomes a span is read in one way. -/
theorem Reads.prepare {T : Transformer} (relative : T.pathMode = .relative) {a : Arrival}
    {input : AgentHookInput} {ctx : Option WorkspaceContext} (reads : T.Reads a input ctx) :
    ∃ p, T.prepare a = .ok p ∧
      p.input.workspacePath = relativePath (input.effectivePath ctx) (input.effectiveRoot ctx) ∧
      p.input.projectRoot = (input.effectiveRoot ctx).bind finalPathComponent := by
  obtain ⟨header, traceparent, bytes, parsed, decoded, parse, rfl, rfl⟩ := reads
  unfold Transformer.prepare
  rw [decoded]
  simp only [parse]
  refine ⟨_, rfl, ?_⟩
  simp only [relative, applyWorkspacePathMode]
  obtain ⟨path, root⟩ := applyRelativeWorkspace_paths
    ((addressed header.clientId T.mode parsed).normalizeWithContext
      (a.contexts (addressed header.clientId T.mode parsed)).context)
  obtain ⟨path', root'⟩ := (addressed header.clientId T.mode parsed).normalizeWithContext_paths
    (a.contexts (addressed header.clientId T.mode parsed)).context
  rw [path, root, path', root']
  exact ⟨rfl, rfl⟩

/-- A built attribute is found in front of those about the context. -/
theorem findAttr_span (T : Transformer) (salt : UInt32) (p : Prepared) (slot : Slot)
    (present : slot ∈ spanSlots p.event p.input T.metadata T.aliases T.experimental)
    (other : slot.key ∉ p.report.slots.map Slot.key) :
    (T.span salt p).findAttr slot.key = slot.attribute? := by
  have built := findKey_build present
  show findKey slot.key (attributesOf _ ++ attributesOf p.report.slots) = slot.attribute?
  cases found : slot.attribute? with
  | some kv => exact findKey_append_left (built.trans found)
  | none => rw [findKey_append_none (built.trans found), findKey_attributesOf_absent other]

theorem attrStr_workspacePath (T : Transformer) (salt : UInt32) (p : Prepared) :
    (T.span salt p).attrStr workspacePath = p.input.workspacePath := by
  have found := T.findAttr_span salt p (.string workspacePath p.input.workspacePath)
    (by simp [spanSlots, workspaceSlots])
    (show workspacePath ∉ ["agent.context.state", "agent.context.source", "agent.context.age_ms"] by
      decide)
  show ((T.span salt p).findAttr workspacePath).bind KeyValue.str? = _
  rw [show (T.span salt p).findAttr workspacePath = _ from found]
  cases p.input.workspacePath <;> rfl

theorem attrStr_projectRoot (T : Transformer) (salt : UInt32) (p : Prepared) :
    (T.span salt p).attrStr workspaceProjectRoot = p.input.projectRoot := by
  have found := T.findAttr_span salt p (.string workspaceProjectRoot p.input.projectRoot)
    (by simp [spanSlots, workspaceSlots])
    (show workspaceProjectRoot ∉
      ["agent.context.state", "agent.context.source", "agent.context.age_ms"] by decide)
  show ((T.span salt p).findAttr workspaceProjectRoot).bind KeyValue.str? = _
  rw [show (T.span salt p).findAttr workspaceProjectRoot = _ from found]
  cases p.input.projectRoot <;> rfl

end Transformer

/-! ## What is reported -/

/-- The attributes that report a path. -/
def pathKeys : List String := [workspacePath, workspaceProjectRoot]

/-- No path that the span reports is absolute. -/
def Span.ReportsRelative (span : Span) : Prop :=
  ∀ key ∈ pathKeys, ∀ text, span.attrStr key = some text → isAbsolute text.toList = false

/-- Two workspace paths at one place of two directories. -/
inductive SamePlace (dir dir' : Option (List Char)) : Option String → Option String → Prop where
  | absent : SamePlace dir dir' none none
  | «at» : SamePlace dir dir' (some (.ofList (dir.getD []))) (some (.ofList (dir'.getD [])))
  | below (path : List Char) (named : dir = none ∨ dir' = none → StartsNamed path) :
      SamePlace dir dir' (some (.ofList (under dir path))) (some (.ofList (under dir' path)))

/-- Two project roots of one name in two directories, and workspace paths at one place
of these directories. -/
structure Relocated (path root path' root' : Option String) : Prop where
  places : ∃ (dir dir' : Option (List Char)) (base : List Char), bodyOf (segments base) ≠ [] ∧
    (dir = none ∨ dir' = none → StartsNamed base) ∧
    root = some (.ofList (under dir base)) ∧ root' = some (.ofList (under dir' base)) ∧
    SamePlace dir dir' path path'

/-- What is reported is where the path is below the root, and the name of the root. -/
theorem Relocated.reports {path root path' root' : Option String}
    (relocated : Relocated path root path' root') :
    relativePath path root = relativePath path' root' ∧
      root.bind finalPathComponent = root'.bind finalPathComponent := by
  obtain ⟨dir, dir', base, inside, named, rfl, rfl, place⟩ := relocated.places
  constructor
  · cases place with
    | absent => rfl
    | «at» =>
        have above : ∀ dir, (dir = none → StartsNamed base) →
            relativeWorkspacePath (.ofList (dir.getD [])) (.ofList (under dir base)) = none := by
          intro dir named
          unfold relativeWorkspacePath
          rw [String.toList_ofList, String.toList_ofList, UnixPath.stripPrefix_getD named inside]
          rfl
        exact (above dir fun absent => named (.inl absent)).trans
          (above dir' fun absent => named (.inr absent)).symm
    | below path namedPath =>
        have stripped : ∀ dir, (dir = none → StartsNamed path ∧ StartsNamed base) →
            UnixPath.stripPrefix (String.ofList (under dir path)).toList
              (String.ofList (under dir base)).toList =
            UnixPath.Components.textAfter ⟨false, segments path⟩ (bodyOf (segments base)) := by
          intro dir named
          rw [String.toList_ofList, String.toList_ofList]
          exact UnixPath.stripPrefix_under named inside
        show relativeWorkspacePath _ _ = relativeWorkspacePath _ _
        unfold relativeWorkspacePath
        rw [stripped dir fun absent => ⟨namedPath (.inl absent), named (.inl absent)⟩,
          stripped dir' fun absent => ⟨namedPath (.inr absent), named (.inr absent)⟩]
  · show finalPathComponent _ = finalPathComponent _
    unfold finalPathComponent
    rw [String.toList_ofList, String.toList_ofList, UnixPath.fileName_under named inside]

theorem finalPathComponent_relative {root name : String} (found : finalPathComponent root = some name) :
    isAbsolute name.toList = false := by
  obtain ⟨chars, kept, rfl⟩ := Option.map_eq_some_iff.mp found
  rw [String.toList_ofList]
  exact UnixPath.fileName_relative (Option.filter_eq_some_iff.mp kept).1

/-- The path below the root is absolute only when nothing is taken from it. -/
theorem relativePath_absolute {path root : Option String} :
    (∃ text, relativePath path root = some text ∧ isAbsolute text.toList = true) ↔
      root = some "" ∧ ∃ text, path = some text ∧ isAbsolute text.toList = true := by
  have shown : ∀ relative : List Char,
      isAbsolute (if relative = [] then "." else String.ofList relative).toList =
        isAbsolute relative := by
    intro relative
    by_cases empty : relative = []
    · subst empty
      rfl
    · rw [if_neg empty, String.toList_ofList]
  constructor
  · rintro ⟨text, reported, absolute⟩
    obtain ⟨root, rfl, below⟩ := Option.bind_eq_some_iff.mp reported
    obtain ⟨path, rfl, below⟩ := Option.bind_eq_some_iff.mp below
    obtain ⟨relative, stripped, rfl⟩ := Option.map_eq_some_iff.mp below
    rw [shown] at absolute
    by_cases empty : root = ""
    · subst empty
      obtain ⟨whole, taken, same⟩ := UnixPath.stripPrefix_nil path.toList
      obtain rfl : whole = relative := Option.some.inj (taken.symm.trans stripped)
      exact ⟨rfl, path, rfl, same ▸ absolute⟩
    · have nonempty : root.toList ≠ [] := fun none => empty (String.toList_eq_nil_iff.mp none)
      rw [UnixPath.stripPrefix_relative nonempty stripped] at absolute
      cases absolute
  · rintro ⟨rfl, path, rfl, absolute⟩
    obtain ⟨whole, taken, same⟩ := UnixPath.stripPrefix_nil path.toList
    refine ⟨if whole = [] then "." else String.ofList whole, ?_, by rw [shown, same, absolute]⟩
    show relativeWorkspacePath path "" = _
    unfold relativeWorkspacePath
    rw [show "".toList = [] from rfl, taken]
    rfl

/-! ## The relative mode -/

/-- The span of a frame shows nothing above the project root: no path of it is
absolute, and a frame whose paths are relocated reports the same. -/
structure HidesAbove (T : Transformer) (salt : UInt32) (a : Arrival) (input : AgentHookInput)
    (ctx : Option WorkspaceContext) : Prop where
  relative : ∀ outcome, T.productionTransformWithWorkspace salt a = .ok outcome →
    outcome.span.ReportsRelative
  same : ∀ outcome, T.productionTransformWithWorkspace salt a = .ok outcome →
    ∀ (salt' : UInt32) (a' : Arrival) (input' : AgentHookInput) (ctx' : Option WorkspaceContext),
      T.Reads a' input' ctx' →
      Relocated (input.effectivePath ctx) (input.effectiveRoot ctx) (input'.effectivePath ctx')
        (input'.effectiveRoot ctx') →
      ∀ outcome', T.productionTransformWithWorkspace salt' a' = .ok outcome' →
        ∀ key ∈ pathKeys, outcome.span.attrStr key = outcome'.span.attrStr key

/-- The reported paths of a frame. -/
theorem Transformer.Reads.reported {T : Transformer} (relative : T.pathMode = .relative)
    {a : Arrival} {input : AgentHookInput} {ctx : Option WorkspaceContext}
    (reads : T.Reads a input ctx) (salt : UInt32) :
    ∃ outcome, T.productionTransformWithWorkspace salt a = .ok outcome ∧
      outcome.span.attrStr workspacePath =
        relativePath (input.effectivePath ctx) (input.effectiveRoot ctx) ∧
      outcome.span.attrStr workspaceProjectRoot =
        (input.effectiveRoot ctx).bind finalPathComponent := by
  obtain ⟨p, prepared, path, root⟩ := reads.prepare relative
  refine ⟨_, by rw [productionTransformWithWorkspace, prepared]; rfl, ?_, ?_⟩
  · rw [T.attrStr_workspacePath salt p, path]
  · rw [T.attrStr_projectRoot salt p, root]

/-- **The relative mode hides what is above the root**, unless the root is empty and the
workspace path absolute. -/
theorem relative_hidesAbove {T : Transformer} (relative : T.pathMode = .relative) (salt : UInt32)
    {a : Arrival} {input : AgentHookInput} {ctx : Option WorkspaceContext}
    (reads : T.Reads a input ctx) :
    HidesAbove T salt a input ctx ↔
      ¬ (input.effectiveRoot ctx = some "" ∧
        ∃ path, input.effectivePath ctx = some path ∧ isAbsolute path.toList = true) := by
  obtain ⟨outcome, transformed, path, root⟩ := reads.reported relative salt
  constructor
  · rintro ⟨shown, -⟩ leak
    obtain ⟨text, reported, absolute⟩ := relativePath_absolute.mpr leak
    have hidden := shown outcome transformed workspacePath (by simp [pathKeys]) text
      (path.trans reported)
    rw [hidden] at absolute
    cases absolute
  · intro safe
    refine ⟨?_, ?_⟩
    · intro outcome' transformed' key listed text reported
      obtain rfl : outcome = outcome' := Except.ok.inj (transformed.symm.trans transformed')
      rcases List.mem_pair.mp listed with rfl | rfl
      · refine Bool.eq_false_iff.mpr fun absolute => safe ?_
        exact relativePath_absolute.mp ⟨text, path.symm.trans reported, absolute⟩
      · obtain ⟨name, -, found⟩ := Option.bind_eq_some_iff.mp (root.symm.trans reported)
        exact finalPathComponent_relative found
    · intro outcome₁ transformed₁ salt' a' input' ctx' reads' relocated outcome' transformed' key listed
      obtain rfl : outcome = outcome₁ := Except.ok.inj (transformed.symm.trans transformed₁)
      obtain ⟨outcome₂, transformed₂, path', root'⟩ := reads'.reported relative salt'
      obtain rfl : outcome₂ = outcome' := Except.ok.inj (transformed₂.symm.trans transformed')
      obtain ⟨samePath, sameRoot⟩ := relocated.reports
      rcases List.mem_pair.mp listed with rfl | rfl
      · rw [path, path', samePath]
      · rw [root, root', sameRoot]

/-! ## An empty root -/

/-- A payload with a workspace path and a project root. -/
def pathPayload (root : String) : List UInt8 :=
  asBytes ("\x7b\"conversation_id\":\"c\",\"project_root\":\"" ++ root ++
    "\",\"workspace_path\":\"/work/repo/src\"\x7d")

def pathInput (root : String) : AgentHookInput :=
  { conversationId := some "c", projectRoot := some root, workspacePath := some "/work/repo/src" }

def pathTransformer (root : String) : Transformer :=
  sampleTransformer (pathPayload root) (pathInput root) .relative

theorem pathInput_read (root : String) :
    (pathTransformer root).Reads (sampleArrival (pathPayload root) 1)
      (addressed 2 .interactive (pathInput root)) none := by
  refine ⟨⟨2, 1⟩, none, pathPayload root, pathInput root, rfl, ?_, rfl, rfl⟩
  exact if_pos rfl

theorem relative_hidesAbove_pathInput :
    HidesAbove (pathTransformer "/work/repo") 1 (sampleArrival (pathPayload "/work/repo") 1)
      (addressed 2 .interactive (pathInput "/work/repo")) none :=
  (relative_hidesAbove rfl 1 (pathInput_read "/work/repo")).mpr fun leak =>
    absurd leak.1 (by decide)

/-- An empty root does not hide the directories of the workspace. -/
theorem relative_leaks :
    ¬ ∀ (T : Transformer) (salt : UInt32) (a : Arrival) (input : AgentHookInput)
      (ctx : Option WorkspaceContext), T.pathMode = .relative → T.Reads a input ctx →
        HidesAbove T salt a input ctx := by
  intro claim
  obtain ⟨shown, -⟩ := claim _ 1 _ _ none rfl (pathInput_read "")
  obtain ⟨outcome, transformed, path, -⟩ := (pathInput_read "").reported rfl 1
  have whole : outcome.span.attrStr workspacePath = some "/work/repo/src" := path.trans (by decide)
  have hidden := shown outcome transformed workspacePath (by simp [pathKeys]) _ whole
  exact absurd hidden (by decide)

end AgentOtelBridge
