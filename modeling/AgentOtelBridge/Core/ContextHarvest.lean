import AgentOtelBridge.Core.GitHead
import AgentOtelBridge.Core.Input
import AgentOtelBridge.Lib.Budget

/-!
# The harvest of a workspace

The harvest ascends from a directory to the first project marker, and again to the first `.git`.  It
reads the clock between calls of the file system and gives up when the deadline has passed: then what
it has is not complete.

The file system is taken to stay as it is during a harvest.  `fullContext` is the harvest without a
clock, and each budgeted function gives what its plain counterpart says (`Budgeted.Gives`).  So a
harvest that is completed is the whole one (`harvest_completed`).
-/

namespace AgentOtelBridge.ContextHarvest

open Text Budgeted Git
open UnixPath (push isAbsolute parent fileName)

/-! ## The file system -/

/-- What the calls of the harvest find under a path. -/
structure FileSystem where
  isDir : List Char → Bool
  isFile : List Char → Bool
  pathExists : List Char → Bool
  /-- `fs::metadata`, its length. -/
  metadataLen : List Char → Option Nat
  /-- What can be opened and read to its end. -/
  contents : List Char → Option (List UInt8)
  canonicalize : List Char → Option (List Char)

structure HarvestLimits where
  maxAncestors : Nat
  maxFileBytes : Nat
  /-- Nanoseconds. -/
  budget : Nat

def HarvestLimits.default : HarvestLimits where
  maxAncestors := 15
  maxFileBytes := 64 * 1024
  budget := 20 * 1000000

structure Harvested where
  context : WorkspaceContext
  /-- The budget has not elapsed between two calls. -/
  completed : Bool

/-- Project markers with the types of their ecosystems. -/
def projectMarkers : List (String × String) :=
  [("Cargo.toml", "rust"), ("package.json", "node"), ("pyproject.toml", "python"),
    ("requirements.txt", "python"), ("setup.py", "python"), ("go.mod", "go"), ("pom.xml", "java"),
    ("build.gradle", "java"), ("CMakeLists.txt", "cpp"), (".gemini", "antigravity_workspace"),
    (".claude", "claude_workspace"), (".codex", "codex_workspace")]

/-! ## The names of projects -/

/-- The name on a line of `Cargo.toml`. -/
def cargoName (line : List Char) : Option String :=
  let line := trim (.ofList line)
  if startsWith line "name =" || startsWith line "name=" then
    match line.toList.splitOn '=' with
    | [_, value] =>
        let name := trimMatches ['\''] (trimMatches ['"'] (trim (.ofList value)))
        if name = "" then none else some name
    | _ => none
  else none

/-- The name on a line of `package.json`. -/
def packageName (line : List Char) : Option String :=
  let line := trim (.ofList line)
  if startsWith line "\"name\":" || startsWith line "\"name\" :" then
    match line.toList.splitOn ':' with
    | _ :: value :: _ =>
        let name := trimMatches ['"'] (trim (trimMatches [','] (trim (.ofList value))))
        if name = "" then none else some name
    | _ => none
  else none

/-- Where a marker is read for a name, and how. -/
def namedBy (marker : String) : Option (List Char → Option String) :=
  if marker = "Cargo.toml" then some cargoName
  else if marker = "package.json" then some packageName
  else none

/-! ## The harvest under its budget -/

section

variable (fs : FileSystem) (limits : HarvestLimits)

/-- `read_text_limited`. -/
def readTextLimited (path : List Char) : Budgeted (Option String) :=
  unlessExhausted none do
    match fs.metadataLen path with
    | none => pure none
    | some len =>
        if limits.maxFileBytes < len then pure none
        else unlessExhausted none do
          match fs.contents path with
          | none => pure none
          | some contents =>
              let bytes := contents.take (limits.maxFileBytes + 1)
              if limits.maxFileBytes < bytes.length then pure none
              else unlessExhausted none (pure (fromUtf8 bytes))

def extractProjectName (root : List Char) (marker : String) : Budgeted (Option String) :=
  match namedBy marker with
  | none => pure ((fileName root).map String.ofList)
  | some nameOn => do
      let content ← readTextLimited fs limits (push root marker.toList)
      pure ((content.bind fun content => (lines content.toList).findSome? nameOn).or
        ((fileName root).map String.ofList))

/-- How the inner loop of `find_project_root` ends. -/
inductive MarkerScan where
  | exhausted
  | found (marker ptype : String)
  | absent

def scanMarkers (curr : List Char) : List (String × String) → Budgeted MarkerScan
  | [] => pure .absent
  | (marker, ptype) :: markers =>
      unlessExhausted .exhausted do
        if fs.pathExists (push curr marker.toList) then pure (.found marker ptype)
        else scanMarkers curr markers

/-- The root of a project, its type and its name. -/
structure ProjectRoot where
  root : List Char
  ptype : String
  name : Option String
deriving DecidableEq, Repr

def findProjectRoot : Nat → List Char → Budgeted (Option ProjectRoot)
  | 0, _ => pure none
  | n + 1, curr =>
      unlessExhausted none do
        match ← scanMarkers fs curr projectMarkers with
        | .exhausted => pure none
        | .found marker ptype => do
            let name ← extractProjectName fs limits curr marker
            pure (some ⟨curr, ptype, name⟩)
        | .absent =>
            match parent curr with
            | some up => findProjectRoot n up
            | none => pure none

def commonGitDir (gitDir : List Char) (isWorktree : Bool) : Budgeted (List Char) :=
  if isWorktree then do
    let commondir ← readTextLimited fs limits (push gitDir "commondir".toList)
    pure ((commondir.map fun commondir => push gitDir (trim commondir).toList).getD gitDir)
  else pure gitDir

/-- The commit of a branch, from its loose ref or from `packed-refs`. -/
def branchCommit (commonGitDir : List Char) (branch : String) : Budgeted (Option String) := do
  match ← readTextLimited fs limits (Harvest.refPath commonGitDir branch) with
  | some sha => pure (if 7 ≤ (trim sha).utf8ByteSize then some (trim sha) else none)
  | none => do
      let packedRefs ← readTextLimited fs limits (Harvest.packedRefsPath commonGitDir)
      pure (packedRefs.bind fun packedRefs =>
        (lines packedRefs.toList).findSome? (packedCommit ("refs/heads/" ++ branch)))

/-- The branch and the commit of `HEAD`. -/
def readHead (gitDir commonGitDir : List Char) : Budgeted (Option String × Option String) := do
  match ← readTextLimited fs limits (Harvest.headPath gitDir) with
  | none => pure (none, none)
  | some headContent =>
      let headLine := trim headContent
      match headBranch headLine with
      | some branch => do
          let commit ← branchCommit fs limits commonGitDir branch
          pure (some branch, commit)
      | none =>
          pure (if 7 ≤ headLine.utf8ByteSize ∧ isHex headLine = true then
            (some "detached", some headLine) else (none, none))

/-- What `HEAD` and the configuration say. -/
def probeResult (isWorktree : Bool) (head : Option String × Option String)
    (config : Option String) : GitProbeResult where
  repository := config.bind fun content => scanOrigin false (lines content.toList)
  branch := head.1
  commit := head.2
  isWorktree := isWorktree

def readGitDir (gitDir : List Char) (isWorktree : Bool) : Budgeted GitProbeResult := do
  let common ← commonGitDir fs limits gitDir isWorktree
  let head ← readHead fs limits gitDir common
  let config ← readTextLimited fs limits (push common "config".toList)
  pure (probeResult isWorktree head config)

def probeGitMetadata : Nat → List Char → Budgeted (Option GitProbeResult)
  | 0, _ => pure none
  | n + 1, curr =>
      unlessExhausted none do
        let gitMarker := push curr ".git".toList
        if fs.isDir gitMarker then do
          let result ← readGitDir fs limits gitMarker false
          pure (some result)
        else if fs.isFile gitMarker then do
          let content ← readTextLimited fs limits gitMarker
          match (content.bind (Harvest.gitdirTarget curr)).filter fs.pathExists with
          | some resolved => do
              let result ← readGitDir fs limits resolved true
              pure (some result)
          | none => do
              let result ← readGitDir fs limits gitMarker true
              pure (some result)
        else
          match parent curr with
          | some up => probeGitMetadata n up
          | none => pure none

/-- The context of what was found. -/
def contextOf (dir : List Char) (root : Option ProjectRoot) (vcs : Option GitProbeResult) :
    WorkspaceContext where
  currentDir := .ofList ((fs.canonicalize dir).getD dir)
  projectName :=
    match root with
    | some root => root.name
    | none => (fileName dir).map String.ofList
  projectRoot := root.map fun root => .ofList root.root
  projectType := root.map (·.ptype)
  vcsSystem := if vcs.isSome then some "git" else some "none"
  vcsRepository := vcs.bind (·.repository)
  vcsBranch := vcs.bind (·.branch)
  vcsCommit := vcs.bind (·.commit)
  vcsWorktree := vcs.map (·.isWorktree)

def harvestContext (dir : List Char) : Budgeted WorkspaceContext := do
  let root ← findProjectRoot fs limits limits.maxAncestors dir
  let vcs ← probeGitMetadata fs limits limits.maxAncestors dir
  pure (contextOf fs dir root vcs)

/-- `harvest_from_dir_with_limits`.  The first reading of the clock sets the deadline. -/
def harvestFromDirWithLimits (clock : Nat → Nat) (dir : List Char) : Harvested :=
  let (context, meter) := harvestContext fs limits dir ⟨clock, clock 0 + limits.budget⟩ ⟨1, false⟩
  ⟨context, !meter.exhausted⟩

end

/-! ## The harvest without a clock -/

section

variable (fs : FileSystem) (limits : HarvestLimits)

/-- The disk that is read whole or not at all. -/
def plain : Harvest where
  disk := {
    isDir := fs.isDir
    isFile := fs.isFile
    pathExists := fs.pathExists
    bytes := fun path => (fs.metadataLen path).bind fun len =>
      if limits.maxFileBytes < len then none else fs.contents path
    available := fun _ => true }
  limits := ⟨limits.maxAncestors, limits.maxFileBytes⟩

def projectName (root : List Char) (marker : String) : Option String :=
  match namedBy marker with
  | none => (fileName root).map String.ofList
  | some nameOn =>
      (((plain fs limits).readTextLimited (push root marker.toList)).bind fun content =>
        (lines content.toList).findSome? nameOn).or ((fileName root).map String.ofList)

/-- The first marker of a directory. -/
def markerOf (curr : List Char) : Option (String × String) :=
  projectMarkers.find? fun marker => fs.pathExists (push curr marker.1.toList)

def projectRoot : Nat → List Char → Option ProjectRoot
  | 0, _ => none
  | n + 1, curr =>
      match markerOf fs curr with
      | some (marker, ptype) => some ⟨curr, ptype, projectName fs limits curr marker⟩
      | none => (parent curr).bind (projectRoot n)

/-- The context of a directory, whole. -/
def fullContext (dir : List Char) : WorkspaceContext :=
  contextOf fs dir (projectRoot fs limits limits.maxAncestors dir)
    ((plain fs limits).probeGitMetadata dir)

end

/-! ## What the budgeted harvest gives -/

variable {fs : FileSystem} {limits : HarvestLimits}

theorem gives_readTextLimited (path : List Char) :
    Gives (readTextLimited fs limits path) ((plain fs limits).readTextLimited path) := by
  refine gives_unlessExhausted ?_
  show Gives _ (((fs.metadataLen path).bind fun len =>
    if limits.maxFileBytes < len then none else fs.contents path).bind
      (Git.readTextLimited limits.maxFileBytes))
  cases fs.metadataLen path with
  | none => exact gives_pure none
  | some len =>
      by_cases large : limits.maxFileBytes < len
      · simp only [large, if_true, Option.bind_some, Option.bind_none]
        exact gives_pure none
      · simp only [large, if_false, Option.bind_some]
        refine gives_unlessExhausted ?_
        cases fs.contents path with
        | none => exact gives_pure none
        | some contents =>
            simp only [Option.bind_some, Git.readTextLimited]
            by_cases more : limits.maxFileBytes < contents.length
            · have cut : limits.maxFileBytes < (contents.take (limits.maxFileBytes + 1)).length := by
                rw [List.length_take]
                omega
              rw [if_pos more, if_pos cut]
              exact gives_pure none
            · have all : contents.take (limits.maxFileBytes + 1) = contents :=
                List.take_of_length_le (by omega)
              rw [all, if_neg more, if_neg more]
              exact gives_unlessExhausted (gives_pure _)

theorem gives_extractProjectName (root : List Char) (marker : String) :
    Gives (extractProjectName fs limits root marker) (projectName fs limits root marker) := by
  unfold extractProjectName projectName
  cases namedBy marker with
  | none => exact gives_pure _
  | some nameOn =>
      exact gives_bind (w := fun content : Option String =>
        (content.bind fun content => (lines content.toList).findSome? nameOn).or
          ((fileName root).map String.ofList)) (gives_readTextLimited _) fun _ => gives_pure _

def MarkerScan.of : Option (String × String) → MarkerScan
  | some (marker, ptype) => .found marker ptype
  | none => .absent

theorem gives_scanMarkers (curr : List Char) (markers : List (String × String)) :
    Gives (scanMarkers fs curr markers)
      (.of (markers.find? fun marker => fs.pathExists (push curr marker.1.toList))) := by
  induction markers with
  | nil => exact gives_pure _
  | cons first markers ih =>
      obtain ⟨marker, ptype⟩ := first
      refine gives_unlessExhausted ?_
      cases there : fs.pathExists (push curr marker.toList) with
      | true =>
          rw [List.find?_cons_of_pos (by simpa using there)]
          exact gives_pure _
      | false =>
          rw [List.find?_cons_of_neg (by simp [there])]
          exact ih

theorem gives_findProjectRoot (n : Nat) (curr : List Char) :
    Gives (findProjectRoot fs limits n curr) (projectRoot fs limits n curr) := by
  induction n generalizing curr with
  | zero => exact gives_pure none
  | succ n ih =>
      let found : MarkerScan → Option ProjectRoot
        | .exhausted => none
        | .found marker ptype => some ⟨curr, ptype, projectName fs limits curr marker⟩
        | .absent => (parent curr).bind (projectRoot fs limits n)
      have next : ∀ scan, Gives (α := Option ProjectRoot) (match scan with
          | .exhausted => pure none
          | .found marker ptype => do
              let name ← extractProjectName fs limits curr marker
              pure (some ⟨curr, ptype, name⟩)
          | .absent =>
              match parent curr with
              | some up => findProjectRoot fs limits n up
              | none => pure none) (found scan) := by
        intro scan
        cases scan with
        | exhausted => exact gives_pure none
        | found marker ptype =>
            exact gives_bind (w := fun name => some (ProjectRoot.mk curr ptype name))
              (gives_extractProjectName curr marker) fun _ => gives_pure _
        | absent =>
            show Gives _ ((parent curr).bind (projectRoot fs limits n))
            cases parent curr with
            | none => exact gives_pure none
            | some up => exact ih up
      have whole : projectRoot fs limits (n + 1) curr = found (.of (markerOf fs curr)) := by
        unfold projectRoot
        cases markerOf fs curr with
        | none => rfl
        | some marker => rfl
      rw [whole]
      exact gives_unlessExhausted (gives_bind (w := found) (gives_scanMarkers curr _) next)

theorem gives_commonGitDir (gitDir : List Char) (isWorktree : Bool) :
    Gives (commonGitDir fs limits gitDir isWorktree)
      ((plain fs limits).commonGitDir gitDir isWorktree) := by
  cases isWorktree with
  | false => exact gives_pure gitDir
  | true =>
      exact gives_bind (w := fun commondir : Option String =>
        (commondir.map fun commondir => push gitDir (trim commondir).toList).getD gitDir)
        (gives_readTextLimited _) fun _ => gives_pure _

theorem gives_branchCommit (common : List Char) (branch : String) :
    Gives (branchCommit fs limits common branch) ((plain fs limits).branchCommit common branch) := by
  let packed : Option String → Option String := fun packedRefs =>
    packedRefs.bind fun packedRefs =>
      (lines packedRefs.toList).findSome? (packedCommit ("refs/heads/" ++ branch))
  let commit : Option String → Option String
    | some sha => if 7 ≤ (trim sha).utf8ByteSize then some (trim sha) else none
    | none => packed ((plain fs limits).readTextLimited (Harvest.packedRefsPath common))
  refine gives_bind (w := commit) (gives_readTextLimited _) ?_
  intro loose
  cases loose with
  | some sha => exact gives_pure _
  | none => exact gives_bind (w := packed) (gives_readTextLimited _) fun _ => gives_pure _

/-- The branch and the commit that a text of `HEAD` gives. -/
def headOf (h : Harvest) (common : List Char) : Option String → Option String × Option String
  | none => (none, none)
  | some headContent =>
      match headBranch (trim headContent) with
      | some branch => (some branch, h.branchCommit common branch)
      | none =>
          if 7 ≤ (trim headContent).utf8ByteSize ∧ isHex (trim headContent) = true then
            (some "detached", some (trim headContent))
          else (none, none)

theorem gives_readHead (gitDir common : List Char) :
    Gives (readHead fs limits gitDir common)
      (headOf (plain fs limits) common
        ((plain fs limits).readTextLimited (Harvest.headPath gitDir))) := by
  refine gives_bind (w := headOf (plain fs limits) common) (gives_readTextLimited _) ?_
  intro content
  cases content with
  | none => exact gives_pure _
  | some headContent =>
      unfold headOf
      cases named : headBranch (trim headContent) with
      | none =>
          simp only [named]
          exact gives_pure _
      | some branch =>
          simp only [named]
          exact gives_bind (w := fun commit => (some branch, commit)) (gives_branchCommit common branch)
            fun _ => gives_pure _

theorem readGitDir_eq (h : Harvest) (gitDir : List Char) (isWorktree : Bool) :
    h.readGitDir gitDir isWorktree =
      probeResult isWorktree
        (headOf h (h.commonGitDir gitDir isWorktree) (h.readTextLimited (Harvest.headPath gitDir)))
        (h.readTextLimited (push (h.commonGitDir gitDir isWorktree) "config".toList)) := by
  unfold Harvest.readGitDir probeResult headOf
  cases h.readTextLimited (Harvest.headPath gitDir) with
  | none => rfl
  | some headContent =>
      cases named : headBranch (trim headContent) with
      | none => simp only [named]
      | some branch => simp only [named]

theorem gives_readGitDir (gitDir : List Char) (isWorktree : Bool) :
    Gives (readGitDir fs limits gitDir isWorktree)
      ((plain fs limits).readGitDir gitDir isWorktree) := by
  rw [readGitDir_eq]
  refine gives_bind (w := fun common => probeResult isWorktree
      (headOf (plain fs limits) common
        ((plain fs limits).readTextLimited (Harvest.headPath gitDir)))
      ((plain fs limits).readTextLimited (push common "config".toList)))
    (gives_commonGitDir gitDir isWorktree) fun common => ?_
  refine gives_bind (w := fun head => probeResult isWorktree head
      ((plain fs limits).readTextLimited (push common "config".toList)))
    (gives_readHead gitDir common) fun head => ?_
  exact gives_bind (w := probeResult isWorktree head) (gives_readTextLimited _) fun _ => gives_pure _

/-- The result for a `.git` file with some text. -/
def pointedResult (h : Harvest) (curr : List Char) (content : Option String) :
    Option GitProbeResult :=
  match (content.bind (Harvest.gitdirTarget curr)).filter h.disk.pathExists with
  | some resolved => some (h.readGitDir resolved true)
  | none => some (h.readGitDir (push curr ".git".toList) true)

theorem exists_pointedResult (h : Harvest) (curr : List Char) (content : Option String) :
    ∃ result, pointedResult h curr content = some result := by
  unfold pointedResult
  split
  next => exact ⟨_, rfl⟩
  next => exact ⟨_, rfl⟩

theorem probe_succ (n : Nat) (curr : List Char) :
    (plain fs limits).probe (n + 1) curr =
      if fs.isDir (push curr ".git".toList) then
        some ((plain fs limits).readGitDir (push curr ".git".toList) false)
      else if fs.isFile (push curr ".git".toList) then
        pointedResult (plain fs limits) curr
          ((plain fs limits).readTextLimited (push curr ".git".toList))
      else (parent curr).bind ((plain fs limits).probe n) := by
  have inTime : ¬(plain fs limits).disk.available curr = false := Bool.noConfusion
  rw [Harvest.probe, if_neg inTime]
  rfl

theorem gives_probeGitMetadata (n : Nat) (curr : List Char) :
    Gives (probeGitMetadata fs limits n curr) ((plain fs limits).probe n curr) := by
  induction n generalizing curr with
  | zero => exact gives_pure none
  | succ n ih =>
      have readAt : ∀ gitDir isWorktree, Gives (do
          let result ← readGitDir fs limits gitDir isWorktree
          pure (some result)) (some ((plain fs limits).readGitDir gitDir isWorktree)) := by
        intro gitDir isWorktree
        exact gives_bind (w := some) (gives_readGitDir gitDir isWorktree) fun _ => gives_pure _
      rw [probe_succ]
      refine gives_unlessExhausted ?_
      simp only
      cases fs.isDir (push curr ".git".toList) with
      | true => exact readAt _ false
      | false =>
          cases fs.isFile (push curr ".git".toList) with
          | true =>
              refine gives_bind (w := pointedResult (plain fs limits) curr)
                (gives_readTextLimited _) fun content => ?_
              show Gives (match (content.bind (Harvest.gitdirTarget curr)).filter fs.pathExists with
                | some resolved => _
                | none => _) (match (content.bind (Harvest.gitdirTarget curr)).filter fs.pathExists with
                | some resolved => _
                | none => _)
              cases (content.bind (Harvest.gitdirTarget curr)).filter fs.pathExists with
              | some resolved => exact readAt resolved true
              | none => exact readAt _ true
          | false =>
              cases parent curr with
              | none => exact gives_pure none
              | some up => exact ih up

theorem gives_harvestContext (dir : List Char) :
    Gives (harvestContext fs limits dir) (fullContext fs limits dir) := by
  refine gives_bind (w := fun root => contextOf fs dir root ((plain fs limits).probeGitMetadata dir))
    (gives_findProjectRoot _ dir) fun root => ?_
  exact gives_bind (w := contextOf fs dir root) (gives_probeGitMetadata _ dir) fun _ => gives_pure _

/-! ## Ancestors -/

/-- The first directories from one upwards. -/
def ancestors : Nat → List Char → List (List Char)
  | 0, _ => []
  | n + 1, curr => curr :: ((parent curr).map (ancestors n)).getD []

/-- The root of a project at a directory. -/
def rootAt (fs : FileSystem) (limits : HarvestLimits) (curr : List Char) : Option ProjectRoot :=
  (markerOf fs curr).map fun marker => ⟨curr, marker.2, projectName fs limits curr marker.1⟩

/-- The repository at a directory. -/
def repositoryAt (fs : FileSystem) (limits : HarvestLimits) (curr : List Char) :
    Option GitProbeResult :=
  if fs.isDir (push curr ".git".toList) then
    some ((plain fs limits).readGitDir (push curr ".git".toList) false)
  else if fs.isFile (push curr ".git".toList) then
    pointedResult (plain fs limits) curr ((plain fs limits).readTextLimited (push curr ".git".toList))
  else none

/-- A search that ascends while it finds nothing is a search of the ancestors. -/
theorem findSome?_ancestors {α : Type} {search : Nat → List Char → Option α}
    {here : List Char → Option α} (stops : ∀ curr, search 0 curr = none)
    (ascends : ∀ n curr, search (n + 1) curr = (here curr).or ((parent curr).bind (search n)))
    (n : Nat) (curr : List Char) : search n curr = (ancestors n curr).findSome? here := by
  induction n generalizing curr with
  | zero => exact stops curr
  | succ n ih =>
      rw [ascends, ancestors, List.findSome?_cons]
      cases here curr with
      | some found => rfl
      | none =>
          cases parent curr with
          | none => rfl
          | some up => exact ih up

theorem projectRoot_succ (n : Nat) (curr : List Char) :
    projectRoot fs limits (n + 1) curr =
      match markerOf fs curr with
      | some (marker, ptype) => some ⟨curr, ptype, projectName fs limits curr marker⟩
      | none => (parent curr).bind (projectRoot fs limits n) := rfl

theorem projectRoot_eq (n : Nat) (curr : List Char) :
    projectRoot fs limits n curr = (ancestors n curr).findSome? (rootAt fs limits) := by
  refine findSome?_ancestors (fun _ => rfl) ?_ n curr
  intro n curr
  rw [projectRoot_succ, rootAt]
  cases markerOf fs curr with
  | none => rfl
  | some marker => rfl

theorem probe_eq (n : Nat) (curr : List Char) :
    (plain fs limits).probe n curr = (ancestors n curr).findSome? (repositoryAt fs limits) := by
  refine findSome?_ancestors (fun _ => rfl) ?_ n curr
  intro n curr
  rw [probe_succ]
  unfold repositoryAt
  cases fs.isDir (push curr ".git".toList) with
  | true => rfl
  | false =>
      cases fs.isFile (push curr ".git".toList) with
      | true =>
          obtain ⟨result, pointed⟩ := exists_pointedResult (plain fs limits) curr
            ((plain fs limits).readTextLimited (push curr ".git".toList))
          simp only [Bool.false_eq_true, if_false, if_true, pointed]
          rfl
      | false => rfl

/-- There is a `.git` at a directory. -/
def hasGit (fs : FileSystem) (curr : List Char) : Bool :=
  fs.isDir (push curr ".git".toList) || fs.isFile (push curr ".git".toList)

theorem repositoryAt_isSome (curr : List Char) :
    (repositoryAt fs limits curr).isSome = hasGit fs curr := by
  unfold repositoryAt hasGit
  cases fs.isDir (push curr ".git".toList) with
  | true => rfl
  | false =>
      cases fs.isFile (push curr ".git".toList) with
      | true =>
          obtain ⟨result, pointed⟩ := exists_pointedResult (plain fs limits) curr
            ((plain fs limits).readTextLimited (push curr ".git".toList))
          simp only [Bool.false_eq_true, if_false, if_true, pointed]
          rfl
      | false => rfl

/-! ## Completed harvests -/

/-- The context is all there is to harvest: the root is the nearest ancestor with a marker, and the
repository is looked for at every ancestor. -/
structure Whole (fs : FileSystem) (limits : HarvestLimits) (dir : List Char)
    (context : WorkspaceContext) : Prop where
  full : context = fullContext fs limits dir
  root : ∀ text, context.projectRoot = some text →
    ∃ before root after, ancestors limits.maxAncestors dir = before ++ root :: after ∧
      text = .ofList root ∧ (∃ marker ptype, markerOf fs root = some (marker, ptype) ∧
        context.projectType = some ptype ∧ context.projectName = projectName fs limits root marker) ∧
      ∀ nearer ∈ before, markerOf fs nearer = none
  rootless : context.projectRoot = none →
    ∀ curr ∈ ancestors limits.maxAncestors dir, markerOf fs curr = none
  git : context.vcsSystem = some "git" ↔
    ∃ curr ∈ ancestors limits.maxAncestors dir, hasGit fs curr = true

theorem whole_fullContext (fs : FileSystem) (limits : HarvestLimits) (dir : List Char) :
    Whole fs limits dir (fullContext fs limits dir) where
  full := rfl
  root text found := by
    obtain ⟨root, located, rfl⟩ := Option.map_eq_some_iff.mp found
    have search := located
    rw [projectRoot_eq, List.findSome?_eq_some_iff] at search
    obtain ⟨before, curr, after, split_, here, nothing⟩ := search
    obtain ⟨⟨marker, ptype⟩, marked, rfl⟩ := Option.map_eq_some_iff.mp here
    refine ⟨before, curr, after, split_, rfl, ⟨marker, ptype, marked, ?_, ?_⟩, ?_⟩
    · simp [fullContext, contextOf, located]
    · simp [fullContext, contextOf, located]
    · intro nearer inside
      exact Option.map_eq_none_iff.mp (nothing nearer inside)
  rootless nowhere curr inside := by
    have search := Option.map_eq_none_iff.mp nowhere
    rw [projectRoot_eq, List.findSome?_eq_none_iff] at search
    exact Option.map_eq_none_iff.mp (search curr inside)
  git := by
    have found : (fullContext fs limits dir).vcsSystem = some "git" ↔
        ((plain fs limits).probe limits.maxAncestors dir).isSome = true := by
      show (if ((plain fs limits).probeGitMetadata dir).isSome then some "git" else some "none") =
        some "git" ↔ ((plain fs limits).probeGitMetadata dir).isSome = true
      cases (plain fs limits).probeGitMetadata dir with
      | none => exact iff_of_false (by decide) (by decide)
      | some result => exact iff_of_true rfl rfl
    rw [found, probe_eq, List.findSome?_isSome_iff]
    simp only [repositoryAt_isSome]

/-- The clock readings of a harvest. -/
def harvestReadings (fs : FileSystem) (limits : HarvestLimits) (clock : Nat → Nat)
    (dir : List Char) : Nat :=
  (harvestContext fs limits dir ⟨clock, clock 0 + limits.budget⟩ ⟨1, false⟩).2.readings

theorem completed_iff {clock : Nat → Nat} {dir : List Char} :
    (harvestFromDirWithLimits fs limits clock dir).completed = true ↔
      (harvestContext fs limits dir ⟨clock, clock 0 + limits.budget⟩ ⟨1, false⟩).2.exhausted =
        false :=
  iff_of_eq (Bool.not_eq_true' _)

theorem whole_of_completed {clock : Nat → Nat} {dir : List Char}
    (done : (harvestFromDirWithLimits fs limits clock dir).completed = true) :
    Whole fs limits dir (harvestFromDirWithLimits fs limits clock dir).context := by
  have value := ((gives_harvestContext dir).run ⟨clock, clock 0 + limits.budget⟩ 1).2
    (completed_iff.mp done)
  show Whole fs limits dir
    (harvestContext fs limits dir ⟨clock, clock 0 + limits.budget⟩ ⟨1, false⟩).1
  rw [value]
  exact whole_fullContext fs limits dir

end AgentOtelBridge.ContextHarvest
