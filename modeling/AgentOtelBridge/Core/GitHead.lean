import AgentOtelBridge.Core.GitRemote
import AgentOtelBridge.Lib.UnixPath

/-!
# The commit of a Git directory

The harvest ascends to the first `.git`, and reads the branch and the commit from `HEAD`.
The commit of a branch is in its loose ref, or in `packed-refs` where that ref cannot be
read.  A detached `HEAD` is tested for hexadecimal digits and for its length, a packed ref
for the digits and a loose ref for the length (`Harvest.namesCommit_iff`).
-/

namespace AgentOtelBridge.Git

open Text
open UnixPath (push isAbsolute parent components)

/-! ## The file system -/

/-- What the harvest finds under a path, and whether its budget lasts there. -/
structure Disk where
  isDir : List Char → Bool
  isFile : List Char → Bool
  pathExists : List Char → Bool
  bytes : List Char → Option (List UInt8)
  available : List Char → Bool

structure HarvestLimits where
  maxAncestors : Nat
  maxFileBytes : Nat

/-- A harvest of a disk under its limits. -/
structure Harvest where
  disk : Disk
  limits : HarvestLimits

structure GitProbeResult where
  repository : Option String := none
  branch : Option String := none
  commit : Option String := none
  isWorktree : Bool := false
deriving DecidableEq, Repr

def isAsciiHexdigit (c : Char) : Bool :=
  ('0' ≤ c && c ≤ '9') || ('a' ≤ c && c ≤ 'f') || ('A' ≤ c && c ≤ 'F')

def isHex (s : String) : Bool := s.toList.all isAsciiHexdigit

/-- The first two words of a line of `packed-refs`, if the second is the reference that is
wanted and the first has only digits. -/
def packedCommit (wanted : String) (line : List Char) : Option String :=
  match splitWhitespace (.ofList line) with
  | sha :: reference :: _ => if reference = wanted ∧ isHex sha = true then some sha else none
  | _ => none

/-- The branch that the line of `HEAD` names. -/
def headBranch (headLine : String) : Option String :=
  (stripPrefix "ref: refs/heads/" headLine).map trim

namespace Harvest

variable (h : Harvest)

/-- `read_text_limited`. -/
def readTextLimited (path : List Char) : Option String :=
  if h.disk.available path then (h.disk.bytes path).bind (Git.readTextLimited h.limits.maxFileBytes)
  else none

def commonGitDir (gitDir : List Char) (isWorktree : Bool) : List Char :=
  if isWorktree then
    ((h.readTextLimited (push gitDir "commondir".toList)).map fun commondir =>
      push gitDir (trim commondir).toList).getD gitDir
  else gitDir

def headPath (gitDir : List Char) : List Char := push gitDir "HEAD".toList

def refPath (commonGitDir : List Char) (branch : String) : List Char :=
  push (push (push commonGitDir "refs".toList) "heads".toList) branch.toList

def packedRefsPath (commonGitDir : List Char) : List Char := push commonGitDir "packed-refs".toList

/-- The commit of a branch. -/
def branchCommit (commonGitDir : List Char) (branch : String) : Option String :=
  match h.readTextLimited (refPath commonGitDir branch) with
  | some sha =>
      let sha := trim sha
      if 7 ≤ sha.utf8ByteSize then some sha else none
  | none =>
      (h.readTextLimited (packedRefsPath commonGitDir)).bind fun packedRefs =>
        (lines packedRefs.toList).findSome? (packedCommit ("refs/heads/" ++ branch))

/-- `read_git_dir`. -/
def readGitDir (gitDir : List Char) (isWorktree : Bool) : GitProbeResult :=
  let commonGitDir := h.commonGitDir gitDir isWorktree
  let (branch, commit) :=
    match h.readTextLimited (headPath gitDir) with
    | some headContent =>
        let headLine := trim headContent
        match headBranch headLine with
        | some branch => (some branch, h.branchCommit commonGitDir branch)
        | none =>
            if 7 ≤ headLine.utf8ByteSize ∧ isHex headLine = true then
              (some "detached", some headLine)
            else (none, none)
    | none => (none, none)
  { repository := (h.readTextLimited (push commonGitDir "config".toList)).bind fun content =>
      scanOrigin false (lines content.toList)
    branch := branch
    commit := commit
    isWorktree := isWorktree }

/-- The directory that a `.git` file points to. -/
def gitdirTarget (curr : List Char) (content : String) : Option (List Char) :=
  (stripPrefix "gitdir:" (trim content)).map fun target =>
    let targetPath := (trim target).toList
    if isAbsolute targetPath then targetPath else push curr targetPath

/-- `probe_git_metadata`: the first `.git` at a directory or above it. -/
def probe : Nat → List Char → Option GitProbeResult
  | 0, _ => none
  | n + 1, curr =>
      if h.disk.available curr = false then none
      else
        let gitMarker := push curr ".git".toList
        if h.disk.isDir gitMarker then some (h.readGitDir gitMarker false)
        else if h.disk.isFile gitMarker then
          match ((h.readTextLimited gitMarker).bind (gitdirTarget curr)).filter h.disk.pathExists with
          | some resolved => some (h.readGitDir resolved true)
          | none => some (h.readGitDir gitMarker true)
        else (parent curr).bind (probe n)

def probeGitMetadata (startDir : List Char) : Option GitProbeResult :=
  h.probe h.limits.maxAncestors startDir

end Harvest

/-! ## Commits -/

/-- The text of an object id, perhaps abbreviated. -/
def IsObjectId (s : String) : Prop := isHex s = true ∧ 7 ≤ s.utf8ByteSize

/-- The file of the branch is one of the directory of the branches. -/
def IsBranchFile (branch : String) : Prop :=
  isAbsolute branch.toList = false ∧ .parentDir ∉ components branch.toList

/-- The line gives an id for the reference. -/
def GivesId (wanted id : String) (line : List Char) : Prop :=
  isHex id = true ∧ ∃ rest, splitWhitespace (.ofList line) = id :: wanted :: rest

/-- The first line that gives an id for the reference gives this one. -/
def PackedId (packedRefs wanted id : String) : Prop :=
  ∃ before line after, lines packedRefs.toList = before ++ line :: after ∧ GivesId wanted id line ∧
    ∀ other ∈ before, ∀ id', ¬ GivesId wanted id' other

namespace Harvest

variable (h : Harvest)

/-- `HEAD` can be read, and names a branch. -/
def HeadNames (gitDir : List Char) (branch : String) : Prop :=
  ∃ headContent, h.readTextLimited (headPath gitDir) = some headContent ∧
    headBranch (trim headContent) = some branch

/-- The commit of a Git directory is an object id, and the one of the branch that `HEAD`
names. -/
def NamesCommit (gitDir : List Char) (isWorktree : Bool) : Prop :=
  ∀ commit, (h.readGitDir gitDir isWorktree).commit = some commit →
    IsObjectId commit ∧ ∀ branch, h.HeadNames gitDir branch →
      let commonGitDir := h.commonGitDir gitDir isWorktree
      match h.readTextLimited (refPath commonGitDir branch) with
      | some text => IsBranchFile branch ∧ trim text = commit
      | none => ∃ packedRefs, h.readTextLimited (packedRefsPath commonGitDir) = some packedRefs ∧
          PackedId packedRefs ("refs/heads/" ++ branch) commit

/-- A loose ref that is long enough is the file of a branch and has only digits; a packed
ref is long enough. -/
def RefsProper (gitDir : List Char) (isWorktree : Bool) : Prop :=
  ∀ branch, h.HeadNames gitDir branch →
    let commonGitDir := h.commonGitDir gitDir isWorktree
    match h.readTextLimited (refPath commonGitDir branch) with
    | some text => 7 ≤ (trim text).utf8ByteSize → IsBranchFile branch ∧ isHex (trim text) = true
    | none => ∀ packedRefs, h.readTextLimited (packedRefsPath commonGitDir) = some packedRefs →
        ∀ id, PackedId packedRefs ("refs/heads/" ++ branch) id → 7 ≤ id.utf8ByteSize

end Harvest

/-! ## The sources of a commit -/

theorem packedCommit_eq_some {wanted id : String} {line : List Char} :
    packedCommit wanted line = some id ↔ GivesId wanted id line := by
  unfold packedCommit GivesId
  split
  next sha reference rest words =>
    rw [words]
    constructor
    · intro found
      split at found
      next given =>
        obtain rfl := Option.some.inj found
        exact ⟨given.2, rest, by rw [given.1]⟩
      next => cases found
    · rintro ⟨digits, rest', same⟩
      simp only [List.cons.injEq] at same
      obtain ⟨rfl, rfl, -⟩ := same
      rw [if_pos ⟨rfl, digits⟩]
  next other =>
    constructor
    · intro found
      cases found
    · rintro ⟨-, rest, words⟩
      exact absurd words (other id wanted rest)

theorem findSome?_packedCommit {packedRefs wanted id : String} :
    (lines packedRefs.toList).findSome? (packedCommit wanted) = some id ↔
      PackedId packedRefs wanted id := by
  have none_ : ∀ line, packedCommit wanted line = none ↔ ∀ id', ¬ GivesId wanted id' line := by
    intro line
    rw [Option.eq_none_iff_forall_ne_some]
    exact forall_congr' fun id' => not_congr packedCommit_eq_some
  simp only [PackedId, List.findSome?_eq_some_iff, packedCommit_eq_some, none_]

namespace Harvest

variable {h : Harvest} {gitDir : List Char} {isWorktree : Bool} {branch : String}

/-- The commit of a Git directory whose `HEAD` names a branch. -/
theorem commit_of_headNames (names : h.HeadNames gitDir branch) :
    (h.readGitDir gitDir isWorktree).commit =
      h.branchCommit (h.commonGitDir gitDir isWorktree) branch := by
  obtain ⟨content, read, named⟩ := names
  unfold readGitDir
  simp only [read, named]

/-- A commit that is not one of a branch is the text of a detached `HEAD`. -/
theorem isObjectId_detached {commit : String} (unnamed : ∀ branch, ¬ h.HeadNames gitDir branch)
    (found : (h.readGitDir gitDir isWorktree).commit = some commit) : IsObjectId commit := by
  unfold readGitDir at found
  simp only at found
  cases read : h.readTextLimited (headPath gitDir) with
  | none =>
      rw [read] at found
      cases found
  | some content =>
      rw [read] at found
      cases named : headBranch (trim content) with
      | some branch => exact absurd ⟨content, read, named⟩ (unnamed branch)
      | none =>
          simp only [named] at found
          split at found
          next digits =>
            obtain rfl := Option.some.inj found
            exact ⟨digits.2, digits.1⟩
          next => cases found

theorem HeadNames.unique {other : String} (names : h.HeadNames gitDir branch)
    (names' : h.HeadNames gitDir other) : branch = other := by
  obtain ⟨content, read, named⟩ := names
  obtain ⟨content', read', named'⟩ := names'
  obtain rfl := Option.some.inj (read.symm.trans read')
  exact Option.some.inj (named.symm.trans named')

/-- What is probed is read from some Git directory. -/
theorem probe_eq_some {n : Nat} {curr : List Char} {result : GitProbeResult}
    (found : h.probe n curr = some result) :
    ∃ gitDir isWorktree, result = h.readGitDir gitDir isWorktree := by
  induction n generalizing curr with
  | zero => cases found
  | succ n ih =>
      unfold probe at found
      split at found
      next => cases found
      next =>
        simp only at found
        split at found
        next => exact ⟨_, _, (Option.some.inj found).symm⟩
        next =>
          split at found
          next =>
            split at found
            next resolved _ => exact ⟨_, _, (Option.some.inj found).symm⟩
            next => exact ⟨_, _, (Option.some.inj found).symm⟩
          next =>
            obtain ⟨up, -, found⟩ := Option.bind_eq_some_iff.mp found
            exact ih found

/-! ## The commit of a branch -/

/-- **A harvested commit is a commit** exactly if the loose ref or the packed ref that it is
read from passes the test which the reader makes of the other one, and the loose ref is in the
directory of the branches. -/
theorem namesCommit_iff (h : Harvest) (gitDir : List Char) (isWorktree : Bool) :
    h.NamesCommit gitDir isWorktree ↔ h.RefsProper gitDir isWorktree := by
  constructor
  · intro commits branch names
    have commit : (h.readGitDir gitDir isWorktree).commit =
      h.branchCommit (h.commonGitDir gitDir isWorktree) branch := commit_of_headNames names
    unfold branchCommit at commit
    unfold NamesCommit at commits
    rw [commit] at commits
    cases loose : h.readTextLimited (refPath (h.commonGitDir gitDir isWorktree) branch) with
    | some text =>
        simp only [loose] at commits ⊢
        intro long
        obtain ⟨id, given⟩ := commits (trim text) (if_pos long)
        have given := given branch names
        simp only [loose] at given
        exact ⟨given.1, id.1⟩
    | none =>
        simp only [loose] at commits ⊢
        intro packedRefs read id packed
        have found : (h.readTextLimited (packedRefsPath (h.commonGitDir gitDir isWorktree))).bind
            (fun packedRefs =>
              (lines packedRefs.toList).findSome? (packedCommit ("refs/heads/" ++ branch))) = some id := by
          rw [read]
          exact findSome?_packedCommit.mpr packed
        exact (commits id found).1.2
  · intro proper commit found
    by_cases named : ∃ branch, h.HeadNames gitDir branch
    · obtain ⟨branch, names⟩ := named
      have proper := proper branch names
      rw [commit_of_headNames names] at found
      unfold branchCommit at found
      cases loose : h.readTextLimited (refPath (h.commonGitDir gitDir isWorktree) branch) with
      | some text =>
          simp only [loose] at found proper
          split at found
          next long =>
            obtain rfl := Option.some.inj found
            refine ⟨⟨(proper long).2, long⟩, fun other names' => ?_⟩
            obtain rfl := names.unique names'
            simp only [loose]
            exact ⟨(proper long).1, trivial⟩
          next => cases found
      | none =>
          simp only [loose] at found proper
          obtain ⟨packedRefs, read, first⟩ := Option.bind_eq_some_iff.mp found
          have packed := findSome?_packedCommit.mp first
          have digits : isHex commit = true := by
            obtain ⟨_, _, _, _, given, _⟩ := packed
            exact given.1
          refine ⟨⟨digits, proper packedRefs read commit packed⟩, fun other names' => ?_⟩
          obtain rfl := names.unique names'
          simp only [loose]
          exact ⟨packedRefs, read, packed⟩
    · exact ⟨isObjectId_detached (not_exists.mp named) found,
        fun branch names => absurd ⟨branch, names⟩ named⟩

end Harvest

/-! A branch that is a symbolic reference to another one. -/

def symbolicDisk : Disk where
  isDir path := path = "/srv/.git".toList
  isFile _ := false
  pathExists _ := false
  bytes path :=
    if path = "/srv/.git/HEAD".toList then some (asBytes "ref: refs/heads/main\n")
    else if path = "/srv/.git/refs/heads/main".toList then some (asBytes "ref: refs/heads/dev\n")
    else none
  available _ := true

def symbolicHarvest : Harvest := ⟨symbolicDisk, ⟨15, 64 * 1024⟩⟩

/-- The text of the reference is harvested as the commit. -/
theorem not_namesCommit_symbolic : ¬ ∀ (h : Harvest) (gitDir : List Char) (isWorktree : Bool),
    h.NamesCommit gitDir isWorktree := by
  intro all
  have commits := all symbolicHarvest "/srv/.git".toList false
  have found : (symbolicHarvest.readGitDir "/srv/.git".toList false).commit =
      some "ref: refs/heads/dev" := by decide +kernel
  exact absurd (commits _ found).1.1 (by decide)

end AgentOtelBridge.Git
