import AgentOtelBridge.Lib.DepthFirst
import AgentOtelBridge.Lib.Text
import Mathlib.Data.List.ReduceOption

/-!
# The search for projects

`scan_for_projects` walks the directories below some roots and lists those that have a marker of
a project.  A directory is walked once, by its canonical path, from where it is first reached:
the walk is a depth-first one of limited depth (`scanForProjects_eq`).  What is reached with few
steps left is not walked again when it is reached with more, so a project within the limit of
one root may be missed if a directory above it is first reached from another
(`scan_project_missed`).

The files do not change during a walk.  A path is what the file system takes, of any type.
-/

namespace AgentOtelBridge.Scanner

/-! ## The file system -/

/-- `fs::DirEntry`, with the `into_string` of its name. -/
structure DirEntry (Path : Type*) where
  path : Path
  fileName : Option String

/-- What the walk observes of the files.  An error of `canonicalize`, of `read_dir` or of an
entry is `none`. -/
structure FileSystem (Path : Type*) where
  join : Path → String → Path
  isDir : Path → Bool
  isFile : Path → Bool
  exists_ : Path → Bool
  canonicalize : Path → Option Path
  readDir : Path → Option (List (Option (DirEntry Path)))
  /-- A canonical path has no links left to resolve. -/
  canonicalize_canonical : ∀ path canonical, canonicalize path = some canonical →
    canonicalize canonical = some canonical

variable {Path : Type*}

/-- The `canonicalize` of both loops, with its fallback. -/
def FileSystem.canonicalPath (fs : FileSystem Path) (path : Path) : Path :=
  (fs.canonicalize path).getD path

/-- The same files, with directories listed in another order. -/
def FileSystem.listedBy (fs : FileSystem Path)
    (readDir : Path → Option (List (Option (DirEntry Path)))) : FileSystem Path :=
  { fs with readDir }

/-! ## Markers -/

def prunedDirNames : List String :=
  [".git", "node_modules", "target", "vendor", ".cargo", ".rustup", ".vscode", ".idea", "appdata",
    "application data", "windows", "program files", "program files (x86)", "$recycle.bin",
    "system volume information", "local settings", ".gradle", ".m2", "dist", "build", ".next",
    ".turbo", ".cache", ".nuget"]

def isPrunedDirName (name : String) : Bool := prunedDirNames.elem (Text.asciiLower name)

/-- The `workspace_markers` of `CLIENT_ADAPTERS`. -/
def workspaceMarkers : List (List String) :=
  [[".gemini", ".agents"], [".claude"], [".codex"], [".grok"], [".pi"]]

def isProjectRoot (fs : FileSystem Path) (path : Path) : Bool :=
  if fs.exists_ (fs.join path ".git") || fs.isFile (fs.join path "Cargo.toml")
      || fs.isFile (fs.join path "package.json") || fs.isFile (fs.join path "pyproject.toml")
      || fs.isFile (fs.join path "go.mod") || fs.isFile (fs.join path "pom.xml")
      || fs.isFile (fs.join path "build.gradle") then true
  else workspaceMarkers.flatten.any fun marker => fs.exists_ (fs.join path marker)

/-! ## The walk -/

/-- What a scan counts and collects: `directories_scanned` of its `ScanStats`, and the two
collections. -/
@[ext]
structure Scan (Path : Type*) where
  directoriesScanned : Nat
  discovered : List Path
  visited : List Path

section

variable [DecidableEq Path]

/-- The `if visited.insert(canonical)` of both loops, around a call of `walk_dir`. -/
def Scan.visit (walk : Path → Scan Path → Scan Path) (scan : Scan Path) (canonical : Path) :
    Scan Path :=
  if scan.visited.elem canonical then scan
  else walk canonical { scan with visited := scan.visited ++ [canonical] }

/-- The beginning of `walk_dir`. -/
def Scan.enter (fs : FileSystem Path) (current : Path) (scan : Scan Path) : Scan Path :=
  let scan := { scan with directoriesScanned := scan.directoriesScanned + 1 }
  if isProjectRoot fs current && !scan.discovered.elem current then
    { scan with discovered := scan.discovered ++ [current] }
  else scan

/-- The body of the loop of `walk_dir`. -/
def Scan.visitEntry (fs : FileSystem Path) (walk : Path → Scan Path → Scan Path)
    (scan : Scan Path) (entry : DirEntry Path) : Scan Path :=
  if !fs.isDir entry.path then scan
  else
    match entry.fileName with
    | none => scan
    | some name =>
        if isPrunedDirName name then scan else scan.visit walk (fs.canonicalPath entry.path)

/-- The body of the loop of `scan_for_projects`. -/
def Scan.visitRoot (fs : FileSystem Path) (walk : Path → Scan Path → Scan Path)
    (scan : Scan Path) (root : Path) : Scan Path :=
  if !fs.isDir root then scan else scan.visit walk (fs.canonicalPath root)

def walkDir (fs : FileSystem Path) (current : Path) (currentDepth maxDepth : Nat)
    (scan : Scan Path) : Scan Path :=
  let scan := scan.enter fs current
  if currentDepth ≥ maxDepth then scan
  else
    match fs.readDir current with
    | none => scan
    | some entries =>
        entries.reduceOption.foldl (Scan.visitEntry fs fun canonical scan =>
          walkDir fs canonical (currentDepth + 1) maxDepth scan) scan
termination_by maxDepth - currentDepth

/-- `scan_for_projects`, with `directories_scanned` of the statistics before and after. -/
def scanForProjects (fs : FileSystem Path) (roots : List Path) (maxDepth : Nat)
    (directoriesScanned : Nat) : List Path × Nat :=
  let scan : Scan Path := roots.foldl (Scan.visitRoot fs fun canonical scan =>
    walkDir fs canonical 0 maxDepth scan) ⟨directoriesScanned, [], []⟩
  (scan.discovered, scan.directoriesScanned)

/-! ## The directories below a directory -/

/-- An entry that the walk follows: a directory with a name in UTF-8 that is not pruned. -/
def FileSystem.followed (fs : FileSystem Path) (entry : DirEntry Path) : Bool :=
  fs.isDir entry.path && entry.fileName.any fun name => !isPrunedDirName name

/-- The canonical paths of what the walk follows in a directory. -/
def subdirectories (fs : FileSystem Path) (directory : Path) : List Path :=
  (((fs.readDir directory).getD []).reduceOption.filter fs.followed).map fun entry =>
    fs.canonicalPath entry.path

/-- The canonical paths of the roots that are directories. -/
def startingPoints (fs : FileSystem Path) (roots : List Path) : List Path :=
  (roots.filter fs.isDir).map fs.canonicalPath

/-! ## The walk as a walk of canonical paths -/

/-- What a scan has collected when the given directories have been walked. -/
def Scan.settled (fs : FileSystem Path) (before : Nat) (visited : List Path) : Scan Path :=
  ⟨before + visited.length, visited.filter (isProjectRoot fs), visited⟩

variable {fs : FileSystem Path} {before : Nat}

omit [DecidableEq Path] in
@[simp]
theorem Scan.settled_visited (visited : List Path) :
    (Scan.settled fs before visited).visited = visited := rfl

/-- A walk of a directory that has just been marked as visited. -/
def Settles (fs : FileSystem Path) (before : Nat) (walk : Path → Scan Path → Scan Path)
    (search : Path → List Path → List Path) : Prop :=
  ∀ canonical visited, canonical ∉ visited →
    walk canonical { Scan.settled fs before visited with visited := visited ++ [canonical] } =
      Scan.settled fs before (search canonical (visited ++ [canonical]))

theorem visit_settled {walk : Path → Scan Path → Scan Path}
    {search : Path → List Path → List Path} (settles : Settles fs before walk search)
    (visited : List Path) (canonical : Path) :
    (Scan.settled fs before visited).visit walk canonical =
      Scan.settled fs before (DepthFirst.enter search visited canonical) := by
  rw [Scan.visit, DepthFirst.enter, Scan.settled_visited]
  by_cases there : canonical ∈ visited
  · rw [if_pos (List.elem_eq_true_of_mem there), if_pos there]
  · rw [if_neg (fun found => there (List.mem_of_elem_eq_true found)), if_neg there]
    exact settles canonical visited there

theorem visitEntry_eq (walk : Path → Scan Path → Scan Path) (scan : Scan Path)
    (entry : DirEntry Path) :
    scan.visitEntry fs walk entry =
      if fs.followed entry then scan.visit walk (fs.canonicalPath entry.path) else scan := by
  rw [Scan.visitEntry, FileSystem.followed]
  cases fs.isDir entry.path with
  | false => rfl
  | true =>
      cases entry.fileName with
      | none => rfl
      | some name =>
          simp only [Bool.not_true, Bool.true_and, Option.any_some]
          cases isPrunedDirName name <;> rfl

theorem foldl_visitEntry {walk : Path → Scan Path → Scan Path}
    {search : Path → List Path → List Path} (settles : Settles fs before walk search)
    (entries : List (DirEntry Path)) (visited : List Path) :
    entries.foldl (Scan.visitEntry fs walk) (Scan.settled fs before visited) =
      Scan.settled fs before
        (((entries.filter fs.followed).map fun entry => fs.canonicalPath entry.path).foldl
          (DepthFirst.enter search) visited) := by
  induction entries generalizing visited with
  | nil => rfl
  | cons entry entries ih =>
      rw [List.foldl_cons, visitEntry_eq]
      cases follow : fs.followed entry with
      | false => rw [List.filter_cons_of_neg (by simp [follow]), if_neg Bool.false_ne_true, ih]
      | true =>
          rw [List.filter_cons_of_pos follow, if_pos rfl, visit_settled settles, ih,
            List.map_cons, List.foldl_cons]

theorem foldl_visitRoot {walk : Path → Scan Path → Scan Path}
    {search : Path → List Path → List Path} (settles : Settles fs before walk search)
    (roots visited : List Path) :
    roots.foldl (Scan.visitRoot fs walk) (Scan.settled fs before visited) =
      Scan.settled fs before
        ((startingPoints fs roots).foldl (DepthFirst.enter search) visited) := by
  induction roots generalizing visited with
  | nil => rfl
  | cons root roots ih =>
      rw [List.foldl_cons, Scan.visitRoot, startingPoints]
      cases directory : fs.isDir root with
      | false =>
          rw [List.filter_cons_of_neg (by simp [directory]), Bool.not_false, if_pos rfl, ih]
          rfl
      | true =>
          rw [List.filter_cons_of_pos directory, Bool.not_true, if_neg Bool.false_ne_true,
            visit_settled settles, ih, List.map_cons, List.foldl_cons]
          rfl

/-- The beginning of `walk_dir` counts and lists the directory that has just been marked. -/
theorem enter_settled {canonical : Path} {visited : List Path} (new : canonical ∉ visited) :
    Scan.enter fs canonical
        { Scan.settled fs before visited with visited := visited ++ [canonical] } =
      Scan.settled fs before (visited ++ [canonical]) := by
  have unlisted : (visited.filter (isProjectRoot fs)).elem canonical = false := by
    rw [List.elem_eq_mem, decide_eq_false_iff_not]
    exact fun listed => new (List.mem_of_mem_filter listed)
  rw [Scan.enter]
  simp only [Scan.settled, unlisted, Bool.not_false, Bool.and_true, List.filter_append,
    List.length_append, List.length_singleton, Nat.add_assoc]
  cases project : isProjectRoot fs canonical with
  | false => simp [project]
  | true => simp [project]

theorem walkDir_settles (fs : FileSystem Path) (before maxDepth : Nat) :
    ∀ steps depth, depth + steps = maxDepth →
      Settles fs before (fun canonical scan => walkDir fs canonical depth maxDepth scan)
        (DepthFirst.walk (subdirectories fs) steps) := by
  intro steps
  induction steps with
  | zero =>
      intro depth total canonical visited new
      show walkDir _ _ _ _ _ = _
      rw [walkDir, enter_settled new, if_pos (by omega), DepthFirst.walk]
  | succ steps ih =>
      intro depth total canonical visited new
      have settles := ih (depth + 1) (by omega)
      show walkDir _ _ _ _ _ = _
      rw [walkDir, enter_settled new, if_neg (by omega), DepthFirst.walk, subdirectories]
      cases fs.readDir canonical with
      | none => rfl
      | some entries => exact foldl_visitEntry settles _ _

/-- A scan is a depth-first walk of canonical paths. -/
theorem scanForProjects_eq (fs : FileSystem Path) (roots : List Path) (maxDepth before : Nat) :
    scanForProjects fs roots maxDepth before =
      let visited := DepthFirst.scan (subdirectories fs) (startingPoints fs roots) maxDepth
      (visited.filter (isProjectRoot fs), before + visited.length) := by
  have run := foldl_visitRoot (walkDir_settles fs before maxDepth maxDepth 0 (Nat.zero_add _))
    roots []
  rw [scanForProjects]
  exact congrArg (fun scan : Scan Path => (scan.discovered, scan.directoriesScanned)) run

end

/-! ## What is within the limit -/

/-- A directory is at most some steps below a root. -/
def Within (fs : FileSystem Path) (roots : List Path) (maxDepth : Nat) (directory : Path) : Prop :=
  ∃ root path, root ∈ startingPoints fs roots ∧
    DepthFirst.Route (subdirectories fs) (root :: path) ∧
    (root :: path).getLast? = some directory ∧ path.length ≤ maxDepth

/-- The projects at most some steps below a root are all found. -/
def Complete (fs : FileSystem Path) (roots : List Path) (maxDepth : Nat) (found : List Path) :
    Prop :=
  ∀ project, isProjectRoot fs project = true → Within fs roots maxDepth project →
    project ∈ found

/-- Each project within the limit has a route on which no directory can be reached, by any route
from a root, with too few steps left for the rest. -/
def Unhindered (fs : FileSystem Path) (roots : List Path) (maxDepth : Nat) : Prop :=
  ∀ project, isProjectRoot fs project = true → Within fs roots maxDepth project →
    ∃ root path, root ∈ startingPoints fs roots ∧
      DepthFirst.Route (subdirectories fs) (root :: path) ∧
      (root :: path).getLast? = some project ∧
      DepthFirst.Roomy (subdirectories fs) (startingPoints fs roots) maxDepth (root :: path)

/-- Without links, from roots of one level, nothing hinders. -/
theorem unhindered_of_levels {fs : FileSystem Path} {roots : List Path} {level : Path → Nat}
    {top : Nat} (down : ∀ directory, ∀ other ∈ subdirectories fs directory,
      level other = level directory + 1)
    (rooted : ∀ root ∈ startingPoints fs roots, level root = top) (maxDepth : Nat) :
    Unhindered fs roots maxDepth := by
  rintro project - ⟨root, path, isRoot, route, last, short⟩
  exact ⟨root, path, isRoot, route, last,
    DepthFirst.roomy_of_levels down rooted isRoot route short⟩

/-! ## Canonical forms -/

theorem canonicalPath_canonicalPath (fs : FileSystem Path) (path : Path) :
    fs.canonicalPath (fs.canonicalPath path) = fs.canonicalPath path := by
  cases resolved : fs.canonicalize path with
  | none =>
      have kept : fs.canonicalPath path = path := by
        rw [FileSystem.canonicalPath, resolved]
        rfl
      rw [kept, kept]
  | some canonical =>
      have moved : fs.canonicalPath path = canonical := by
        rw [FileSystem.canonicalPath, resolved]
        rfl
      rw [moved, FileSystem.canonicalPath, fs.canonicalize_canonical path canonical resolved]
      rfl

/-- All that a route from a canonical path reaches is canonical. -/
theorem canonicalPath_of_mem_route {fs : FileSystem Path} {root : Path} {path : List Path}
    (rooted : fs.canonicalPath root = root)
    (route : DepthFirst.Route (subdirectories fs) (root :: path)) :
    ∀ directory ∈ root :: path, fs.canonicalPath directory = directory := by
  induction path generalizing root with
  | nil =>
      intro directory member
      exact List.mem_singleton.mp member ▸ rooted
  | cons follower path ih =>
      obtain ⟨follows, route⟩ := List.isChain_cons_cons.mp route
      obtain ⟨entry, _, rfl⟩ := List.mem_map.mp follows
      intro directory member
      rcases List.mem_cons.mp member with rfl | member
      · exact rooted
      · exact ih (canonicalPath_canonicalPath fs entry.path) route directory member

theorem canonicalPath_of_within {fs : FileSystem Path} {roots : List Path} {maxDepth : Nat}
    {directory : Path} (within : Within fs roots maxDepth directory) :
    fs.canonicalPath directory = directory := by
  obtain ⟨root, path, isRoot, route, last, _⟩ := within
  obtain ⟨source, _, rfl⟩ := List.mem_map.mp isRoot
  exact canonicalPath_of_mem_route (canonicalPath_canonicalPath fs source) route directory
    (List.mem_of_getLast? last)

/-! ## Other orders -/

section

variable {fs : FileSystem Path} {readDir : Path → Option (List (Option (DirEntry Path)))}
  {roots roots' : List Path}

theorem perm_getD {α : Type*} {entries entries' : Option (List α)}
    (listed : Option.Rel List.Perm entries entries') :
    (entries.getD []).Perm (entries'.getD []) := by
  cases listed with
  | none => exact .refl _
  | some permuted => exact permuted

/-- The order in which a directory is listed does not matter to what is below it. -/
theorem mem_subdirectories_listedBy
    (listed : ∀ directory, Option.Rel List.Perm (fs.readDir directory) (readDir directory))
    (directory other : Path) :
    other ∈ subdirectories (fs.listedBy readDir) directory ↔
      other ∈ subdirectories fs directory :=
  ((((perm_getD (listed directory)).filterMap id).filter fs.followed).map _).mem_iff.symm

theorem mem_startingPoints_perm (order : roots.Perm roots') (root : Path) :
    root ∈ startingPoints fs roots' ↔ root ∈ startingPoints fs roots :=
  ((order.filter fs.isDir).map fs.canonicalPath).mem_iff.symm

theorem within_listedBy
    (listed : ∀ directory, Option.Rel List.Perm (fs.readDir directory) (readDir directory))
    (order : roots.Perm roots') (maxDepth : Nat) (directory : Path) :
    Within (fs.listedBy readDir) roots' maxDepth directory ↔ Within fs roots maxDepth directory := by
  have rooted : ∀ root, root ∈ startingPoints (fs.listedBy readDir) roots' ↔
      root ∈ startingPoints fs roots := mem_startingPoints_perm order
  simp only [Within, rooted, DepthFirst.route_congr (mem_subdirectories_listedBy listed)]

end

/-! ## What is found -/

section

variable [DecidableEq Path] {fs : FileSystem Path} {roots : List Path} {maxDepth before : Nat}

/-- A scan walks each directory once, and only within its limit. -/
theorem scanForProjects_walks (fs : FileSystem Path) (roots : List Path)
    (maxDepth before : Nat) :
    ∃ walked : List Path, walked.Nodup ∧ (∀ directory ∈ walked, Within fs roots maxDepth directory) ∧
      scanForProjects fs roots maxDepth before =
        (walked.filter (isProjectRoot fs), before + walked.length) := by
  refine ⟨_, DepthFirst.scan_nodup, fun directory visited => ?_,
    scanForProjects_eq fs roots maxDepth before⟩
  obtain ⟨steps, short, ⟨root, path, isRoot, route, _, last, rfl⟩, _⟩ :=
    DepthFirst.scan_closed visited
  exact ⟨root, path, isRoot, route, last, short⟩

/-- What a scan finds are projects within its limit, none of them twice. -/
theorem scanForProjects_distinct (fs : FileSystem Path) (roots : List Path)
    (maxDepth before : Nat) :
    ((scanForProjects fs roots maxDepth before).1.map fs.canonicalPath).Nodup := by
  obtain ⟨walked, distinct, within, run⟩ := scanForProjects_walks fs roots maxDepth before
  have canonical : ∀ directory ∈ walked.filter (isProjectRoot fs),
      fs.canonicalPath directory = directory := fun directory found =>
    canonicalPath_of_within (within directory (List.mem_of_mem_filter found))
  rw [run, List.map_congr_left canonical, List.map_id']
  exact distinct.filter _

theorem scanForProjects_finds (unhindered : Unhindered fs roots maxDepth) :
    Complete fs roots maxDepth (scanForProjects fs roots maxDepth before).1 := by
  intro project isProject within
  obtain ⟨root, path, isRoot, route, last, roomy⟩ := unhindered project isProject within
  rw [scanForProjects_eq]
  exact List.mem_filter.mpr ⟨DepthFirst.mem_scan_of_roomy isRoot route roomy project
    (List.mem_of_getLast? last), isProject⟩

/-- In whatever order roots and directories are listed, a scan walks each directory once, lists no
project twice, and lists each project that nothing hinders. -/
theorem scan_for_projects {readDir : Path → Option (List (Option (DirEntry Path)))}
    {roots' : List Path}
    (listed : ∀ directory, Option.Rel List.Perm (fs.readDir directory) (readDir directory))
    (order : roots.Perm roots') (maxDepth before : Nat) :
    let run := scanForProjects (fs.listedBy readDir) roots' maxDepth before
    (∃ walked : List Path, walked.Nodup ∧
      (∀ directory ∈ walked, Within fs roots maxDepth directory) ∧
      run.2 = before + walked.length) ∧
    (run.1.map fs.canonicalPath).Nodup ∧
    (Unhindered fs roots maxDepth → Complete fs roots maxDepth run.1) := by
  have within := within_listedBy listed order maxDepth
  refine ⟨?_, scanForProjects_distinct (fs.listedBy readDir) roots' maxDepth before, ?_⟩
  · obtain ⟨walked, distinct, near, run⟩ :=
      scanForProjects_walks (fs.listedBy readDir) roots' maxDepth before
    exact ⟨walked, distinct, fun directory visited => (within directory).mp (near directory visited),
      congrArg Prod.snd run⟩
  · intro unhindered project isProject near
    have unhindered' : Unhindered (fs.listedBy readDir) roots' maxDepth := by
      intro project isProject near
      obtain ⟨root, path, isRoot, route, last, roomy⟩ :=
        unhindered project isProject ((within project).mp near)
      exact ⟨root, path, (mem_startingPoints_perm order root).mpr isRoot,
        (DepthFirst.route_congr (mem_subdirectories_listedBy listed) _).mpr route, last,
        (DepthFirst.roomy_congr (mem_subdirectories_listedBy listed)
          (mem_startingPoints_perm order) _).mpr roomy⟩
    exact scanForProjects_finds unhindered' project isProject ((within project).mpr near)

/-- A file system of the given directories, by their names below `/`, without links. -/
def treeOf (directories : List (List String)) : FileSystem (List String) where
  join path name := path ++ [name]
  isDir path := directories.elem path
  isFile _ := false
  exists_ path := directories.elem path
  canonicalize path := some path
  readDir path := some ((directories.filter fun directory => directory.getLast?.any fun name =>
    directory == path ++ [name]).map fun directory => some ⟨directory, directory.getLast?⟩)
  canonicalize_canonical _ _ _ := rfl

theorem treeOf_down (directories : List (List String)) (directory : List String) :
    ∀ other ∈ subdirectories (treeOf directories) directory,
      other.length = directory.length + 1 := by
  intro other below
  obtain ⟨entry, followed, rfl⟩ := List.mem_map.mp below
  have read := List.reduceOption_mem_iff.mp (List.mem_of_mem_filter followed)
  obtain ⟨child, member, same⟩ := List.mem_map.mp read
  obtain rfl := Option.some.inj same
  obtain ⟨name, _, named⟩ := (Option.any_eq_true ..).mp (List.mem_filter.mp member).2
  show child.length = directory.length + 1
  rw [eq_of_beq named, List.length_append, List.length_singleton]

/-- The project `/a/b`, and a directory `/c`. -/
def oneProject : FileSystem (List String) :=
  treeOf [[], ["a"], ["c"], ["a", "b"], ["a", "b", ".git"]]

theorem scan_from_one_root :
    Complete oneProject [[]] 2
      (scanForProjects (oneProject.listedBy fun directory =>
        (oneProject.readDir directory).map List.reverse) [[]] 2 0).1 := by
  have rooted : ∀ root ∈ startingPoints oneProject [[]], root.length = 0 := by decide
  have unhindered : Unhindered oneProject [[]] 2 := unhindered_of_levels (treeOf_down _) rooted 2
  exact (scan_for_projects (fun _ => .some (List.reverse_perm _).symm) (.refl _) 2 0).2.2 unhindered

/-- The project `/a/b` is one step below `/a`, but from `/`, the first root, `/a` is reached with
no step left. -/
theorem scan_project_missed :
    isProjectRoot oneProject ["a", "b"] = true ∧ Within oneProject [[], ["a"]] 1 ["a", "b"] ∧
      (scanForProjects oneProject [[], ["a"]] 1 0).1 = [] ∧
      (scanForProjects oneProject [["a"], []] 1 0).1 = [["a", "b"]] := by
  have route : DepthFirst.Route (subdirectories oneProject) [["a"], ["a", "b"]] :=
    List.isChain_pair.mpr (by decide)
  simp only [scanForProjects_eq]
  exact ⟨by decide, ⟨["a"], [["a", "b"]], by decide, route, rfl, le_refl 1⟩, by decide, by decide⟩

end

end AgentOtelBridge.Scanner
