import AgentOtelBridge.Lib.FaultySettles
import AgentOtelBridge.Lib.FiniteMap
import AgentOtelBridge.Lib.Text
import AgentOtelBridge.Lib.UnixPath

/-!
# Versions of the local runtime

`activate_version` copies the binaries and the manifest of a staged version into
`bin/` and `active.json`, and what was there into `previous/`.  `rollback_candidate`
copies the other way.

The world has the three kinds of directories with their files, and `active.json`.
A version id names a directory in `versions/`.  A directory exists or not, and what
is in it is a regular file.  A file that is written is cut to nothing first and then
grows by one byte at a time, so that a copy that fails leaves any part of it behind.
A check such as `is_dir` that fails answers no.
-/

namespace AgentOtelBridge.Local

open Faulty FiniteMap Text

abbrev Bytes := List UInt8

/-- A directory: its entries in the order they are read. -/
abbrev Dir := Map String Bytes

inductive DirName where
  | version (id : String)
  | bin
  | previous
deriving DecidableEq, Repr

inductive FilePath where
  | inDir (dir : DirName) (name : String)
  | activeManifest
deriving DecidableEq, Repr

structure Runtime where
  dirs : DirName → Option Dir
  active : Option Bytes
  clock : Nat

namespace Runtime

def file (w : Runtime) : FilePath → Option Bytes
  | .inDir dir name => (w.dirs dir).bind fun entries => entries.lookup name
  | .activeManifest => w.active

def setDir (w : Runtime) (dir : DirName) (entries : Option Dir) : Runtime :=
  { w with dirs := Function.update w.dirs dir entries }

def createDir (w : Runtime) (dir : DirName) : Runtime :=
  w.setDir dir (some ((w.dirs dir).getD ∅))

def put (w : Runtime) (path : FilePath) (bytes : Bytes) : Runtime :=
  match path with
  | .inDir dir name => w.setDir dir ((w.dirs dir).map fun entries => entries.insert name bytes)
  | .activeManifest => { w with active := some bytes }

def append (w : Runtime) (path : FilePath) (byte : UInt8) : Runtime :=
  w.put path ((w.file path).getD [] ++ [byte])

def remove (w : Runtime) (dir : DirName) (name : String) : Runtime :=
  w.setDir dir ((w.dirs dir).map fun entries => entries.erase name)

def rename (w : Runtime) (dir : DirName) (name name' : String) : Runtime :=
  match w.file (.inDir dir name) with
  | some bytes => (w.remove dir name).put (.inDir dir name') bytes
  | none => w

end Runtime

/-! ## File operations -/

/-- A check that answers no when it fails. -/
def test (f : Runtime → Bool) : Prog Runtime Bool := do
  match ← attempt (read fun w => .ok (f w)) with
  | .ok answer => pure answer
  | .error _ => pure false

def createDirAll (dir : DirName) : Prog Runtime Unit := write fun w => w.createDir dir

def readDir (dir : DirName) : Prog Runtime (List String) :=
  read fun w =>
    match w.dirs dir with
    | some entries => .ok entries.keys
    | none => .error "No such file or directory"

def removeDirAll (dir : DirName) : Prog Runtime Unit := do
  let names ← readDir dir
  names.forM fun name => write fun w => w.remove dir name
  write fun w => w.setDir dir none

def readFile (path : FilePath) : Prog Runtime Bytes :=
  read fun w =>
    match w.file path with
    | some bytes => .ok bytes
    | none => .error "No such file or directory"

def readToString (path : FilePath) : Prog Runtime String :=
  read fun w =>
    match w.file path with
    | none => .error "No such file or directory"
    | some bytes =>
      match fromUtf8 bytes with
      | some content => .ok content
      | none => .error "stream did not contain valid UTF-8"

/-- `fs::write`. -/
def writeFile (path : FilePath) (bytes : Bytes) : Prog Runtime Unit := do
  write fun w => w.put path []
  bytes.forM fun byte => write fun w => w.append path byte

/-- `fs::copy`. -/
def copyFile (src dst : FilePath) : Prog Runtime Unit := do
  let bytes ← readFile src
  writeFile dst bytes

/-- A file name `with_extension("old.…")`. -/
def oldName (name : String) (timestamp : Nat) : String :=
  .ofList ((UnixPath.fileStem name.toList).getD []) ++ ".old." ++ toString timestamp

/-- The copy under another name when a direct overwrite fails. -/
def renameAndReplace (src : FilePath) (dir : DirName) (name : String) : Prog Runtime Unit := do
  let timestamp ← get fun w => w.clock
  let oldDst := oldName name timestamp
  write fun w => w.rename dir name oldDst
  copyFile src (.inDir dir name)
  let _ ← attempt (write fun w => w.remove dir oldDst)
  pure ()

def safeCopyOrReplace (src : FilePath) (dir : DirName) (name : String) : Prog Runtime Unit := do
  createDirAll dir
  if ← test fun w => (w.file (.inDir dir name)).isSome then
    match ← attempt (copyFile src (.inDir dir name)) with
    | .ok _ => pure ()
    | .error _ => renameAndReplace src dir name
  else copyFile src (.inDir dir name)

/-! ## Versions -/

def hookName (windows : Bool) : String := if windows then "agent-hook.exe" else "agent-hook"

def bridgeName (windows : Bool) : String :=
  if windows then "agent-otel-bridge.exe" else "agent-otel-bridge"

def manifestName : String := "manifest.json"

/-- The loop of the backup over the entries of `bin/`. -/
def backUpFile (name : String) : Prog Runtime Unit := do
  if ← test fun w => (w.file (.inDir .bin name)).isSome then
    let _ ← attempt (safeCopyOrReplace (.inDir .bin name) .previous name)
    pure ()
  else pure ()

def backUpBinaries : Prog Runtime Unit := do
  match ← attempt (readDir .bin) with
  | .ok names => names.forM backUpFile
  | .error _ => pure ()

def backUpManifest : Prog Runtime Unit := do
  if ← test fun w => w.active.isSome then
    let _ ← attempt (safeCopyOrReplace .activeManifest .previous manifestName)
    pure ()
  else pure ()

def backUp : Prog Runtime Unit := do
  let _ ← attempt (removeDirAll .previous)
  createDirAll .previous
  backUpBinaries
  backUpManifest

/-- "Preserve previous version for rollback". -/
def preservePrevious : Prog Runtime Unit := do
  if ← test fun w => (w.dirs .bin).isSome then backUp else pure ()

/-- The copies of `activate_version` and of `rollback_candidate` into `bin/`. -/
def installFrom (windows : Bool) (source : DirName) : Prog Runtime Unit := do
  safeCopyOrReplace (.inDir source (hookName windows)) .bin (hookName windows)
  safeCopyOrReplace (.inDir source (bridgeName windows)) .bin (bridgeName windows)

def activateVersion (windows : Bool) (versionId : String) : Prog Runtime Unit := do
  let versionDir ← test fun w => (w.dirs (.version versionId)).isSome
  ensure (versionDir = true) ("Version '" ++ versionId ++ "' does not exist in versions directory")
  preservePrevious
  createDirAll .bin
  installFrom windows (.version versionId)
  let manifestContent ← readToString (.inDir (.version versionId) manifestName)
  writeFile .activeManifest (asBytes manifestContent)

/-- What a rollback leaves to others: whether a text is a `LocalVersionManifest`, and
how the update of the hooks ends. -/
structure RollbackEnv where
  isManifest : String → Bool
  runInstall : Except String Unit

def rollbackCandidate (env : RollbackEnv) (windows updateHooks : Bool) : Prog Runtime Unit := do
  let found ← test fun w => (w.file (.inDir .previous manifestName)).isSome
  ensure (found = true) "No previous installation found for rollback."
  let manifestContent ← readToString (.inDir .previous manifestName)
  ensure (env.isManifest manifestContent = true) "invalid manifest"
  createDirAll .bin
  installFrom windows .previous
  writeFile .activeManifest (asBytes manifestContent)
  if updateHooks then read fun _ => env.runInstall else pure ()

end AgentOtelBridge.Local
