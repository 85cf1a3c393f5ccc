import AgentOtelBridge.Lib.Faulty
import Mathlib.Logic.Function.Basic

/-!
# HOME hook transactions

`apply` writes the hooks of the selected harnesses into the configuration files of a
HOME, and `rollback` restores what was there.  A journal is saved before the first
file is touched and after each step of a restoration.

The world has the target files, each with its bytes and its permission bits, and
the journals that are saved.  A write of a file or of a journal is atomic, as a
staged file that is renamed.  What the process holds in memory is part of the
world, because it outlives an error: `journal` is the journal being worked on, and
`attempted` and `applied` count the files of an apply.  `log` is a ghost, the
updates of target files by the process.

The checks of the environment (the executable, the owner and the kind of the files
on a path, the lock of the HOME) are reads that may fail.  How the hooks of a client
look in its configuration is the parameter `render`.
-/

namespace AgentOtelBridge.HomeApply

open Faulty

/-- The components of an absolute path. -/
abbrev Path := List String

def display (path : Path) : String := "/" ++ "/".intercalate path

def stateRelative : Path := [".local", "state", "agent-otel-bridge", "hooks"]

def targets : List Path :=
  [[".claude", "settings.json"],
   [".codex", "hooks.json"],
   [".gemini", "config", "hooks.json"],
   [".gemini", "settings.json"],
   [".grok", "hooks", "agent-otel.json"],
   [".pi", "agent", "extensions", "agent-otel-bridge.ts"]]

structure HomeHookOptions where
  home : Path
  clients : List String
  binary : Path
  socket : Option Path
deriving DecidableEq, Repr

inductive RestoreProgress where
  | pending
  | restoring
  | restored
deriving DecidableEq, Repr

structure RecordedFile where
  path : Path
  before : Option (List UInt8)
  after : List UInt8
  mode : Option Nat
  restoreProgress : RestoreProgress
deriving DecidableEq, Repr

inductive Status where
  | prepared
  | applied
  | compensated
  | partial_
  | rollingBack
  | rollbackPartial
  | rolledBack
  | other (status : String)
deriving DecidableEq, Repr

structure Journal where
  version : Nat
  home : Path
  binary : Path
  socket : Option Path
  clients : List String
  status : Status
  rollbackAllowBefore : Bool
  files : List RecordedFile
deriving DecidableEq, Repr

/-- A file: its bytes and its permission bits. -/
structure File where
  bytes : List UInt8
  mode : Nat
deriving DecidableEq, Repr

/-- An update of a target file by the process. -/
structure Update where
  path : Path
  was : Option File
  now : Option File
deriving DecidableEq, Repr

structure World where
  disk : Path → Option File
  journals : Path → Option Journal
  clock : Nat
  pid : Nat
  agentOtelSocket : Option Path
  journal : Journal
  attempted : Nat
  applied : Nat
  log : List Update

def World.put (w : World) (path : Path) (file : Option File) : World :=
  { w with
    disk := Function.update w.disk path file
    log := w.log ++ [⟨path, w.disk path, file⟩] }

def World.setJournal (w : World) (f : Journal → Journal) : World :=
  { w with journal := f w.journal }

def Journal.setProgress (j : Journal) (index : Nat) (progress : RestoreProgress) : Journal :=
  { j with files := j.files.modify index fun file => { file with restoreProgress := progress } }

/-! ## Files -/

/-- A check of the environment. -/
def checkEnvironment : Prog World Unit := read fun _ => .ok ()

/-- `inspect_path` of a target: its file is not writable by other accounts. -/
def inspect (disk : Path → Option File) (path : Path) : Except String Unit :=
  match disk path with
  | some file =>
    if file.mode &&& 0o022 ≠ 0 then
      .error "HOME configuration paths must be owned and not writable by other accounts"
    else .ok ()
  | none => .ok ()

/-- The bytes a file is expected to have. -/
def RecordedFile.expectedBytes (file : RecordedFile) (before : Bool) : Option (List UInt8) :=
  if before then file.before else some file.after

def RecordedFile.expectedMode (file : RecordedFile) (before : Bool) : Option Nat :=
  if before then file.mode else some (file.mode.getD 0o600)

/-- A file is in the recorded state: both its bytes and its mode. -/
def RecordedFile.matchesState (file : RecordedFile) (current : Option File) (before : Bool) :
    Bool :=
  current.map File.bytes == file.expectedBytes before &&
    current.map File.mode == file.expectedMode before

/-- `matches_recorded_state`. -/
def matchesRecordedState (file : RecordedFile) (before : Bool) : Prog World Bool :=
  read fun w =>
    match inspect w.disk file.path with
    | .ok () => .ok (file.matchesState (w.disk file.path) before)
    | .error error => .error error

/-- `atomic_write` of a target. -/
def atomicWrite (path : Path) (bytes : List UInt8) (mode : Nat) : Prog World Unit :=
  write fun w => w.put path (some ⟨bytes, mode⟩)

/-- `remove_file` of a target that was found in the same step. -/
def removeFile (path : Path) : Prog World Unit := write fun w => w.put path none

/-- `sync_parent`: what is there is made durable. -/
def syncParent : Prog World Unit := write id

/-- `save_journal`. -/
def saveJournal (path : Path) : Prog World Unit :=
  write fun w => { w with journals := Function.update w.journals path (some w.journal) }

def setStatus (status : Status) : Prog World Unit :=
  modify fun w => w.setJournal fun j => { j with status := status }

/-! ## Restoration -/

/-- A file that may be restored, by its progress. -/
def RestoreProgress.valid (allowBefore : Bool) (before after : Bool) : RestoreProgress → Bool
  | .restored => before
  | .restoring => before || after
  | .pending => after || (allowBefore && before)

/-- The preflight of one file. -/
def preflight (allowBefore : Bool) (file : RecordedFile) : Prog World Unit := do
  let before ← matchesRecordedState file true
  let after ← matchesRecordedState file false
  ensure (file.restoreProgress.valid allowBefore before after)
    "Configuration changed after apply (bytes or permissions); rollback refused"

/-- The update that restores a file: it is replaced or removed. -/
def replaceOrRemove (file : RecordedFile) : Prog World Unit :=
  match file.before with
  | some before => atomicWrite file.path before (file.mode.getD 0o600)
  | none => removeFile file.path

/-- The end of the restoration of a file: it is updated, unless it was recovered before. -/
def restoreState (file : RecordedFile) (recoveredBefore : Bool) : Prog World Unit := do
  -- Recheck after journaling intent so a mode tightening is never undone.
  let before ← matchesRecordedState file true
  if (recoveredBefore && before) = false then
    let after ← matchesRecordedState file false
    ensure after "Configuration changed during rollback; remaining targets preserved"
    replaceOrRemove file

/-- The restoration of one file. -/
def restoreFile (path : Path) (allowBefore : Bool) (index : Nat) : Prog World Unit := do
  match ← get fun w => w.journal.files[index]? with
  | none => throw "index out of bounds"
  | some file =>
    if file.restoreProgress ≠ .restored then
      let before ← matchesRecordedState file true
      let after ← matchesRecordedState file false
      ensure (after || ((allowBefore || file.restoreProgress == .restoring) && before))
        "Configuration changed during rollback; remaining targets preserved"
      let recoveredBefore := before && (allowBefore || file.restoreProgress == .restoring)
      modify fun w => w.setJournal fun j => j.setProgress index .restoring
      saveJournal path
      restoreState file recoveredBefore
      syncParent
      modify fun w => w.setJournal fun j => j.setProgress index .restored
      saveJournal path

/-- `restore_files`: a preflight of all files, and then the files, the last first. -/
def restoreFiles (path : Path) (count : Nat) (allowBefore : Bool) : Prog World Unit := do
  let files ← get fun w => w.journal.files
  (files.take count).forM (preflight allowBefore)
  modify fun w => w.setJournal fun j =>
    { j with rollbackAllowBefore := allowBefore, status := .rollingBack }
  saveJournal path
  (List.range count).reverse.forM (restoreFile path allowBefore)

/-! ## Rollback -/

/-- The journal is where it says, and its targets are in scope. -/
def Journal.inScope (j : Journal) (path : Path) : Bool :=
  j.version == 1 && path.getLast? == some "journal.json" &&
    path.dropLast.dropLast == j.home ++ stateRelative &&
    j.files.all fun file => targets.any fun target => file.path == j.home ++ target

def Status.eligible : Status → Bool
  | .applied | .prepared | .partial_ | .rollingBack | .rollbackPartial => true
  | .compensated | .rolledBack | .other _ => false

/-- The files may be in their state before the apply. -/
def Journal.allowBefore (j : Journal) : Bool :=
  j.rollbackAllowBefore || j.status == .prepared || j.status == .partial_

/-- The journal that is saved at a path. -/
def readJournal (path : Path) : Prog World Journal :=
  read fun w =>
    match w.journals path with
    | some j => .ok j
    | none => .error "Private rollback journal unavailable"

/-- The restoration of `rollback`, and what is recorded when it fails. -/
def restoreAll (path : Path) (j : Journal) : Prog World Unit := do
  match ← attempt (restoreFiles path j.files.length j.allowBefore) with
  | .ok () =>
    setStatus .rolledBack
    saveJournal path
  | .error error =>
    if (← get fun w => w.journal.status) = .rollingBack then
      setStatus .rollbackPartial
      match ← attempt (saveJournal path) with
      | .ok () => throw error
      | .error _ =>
        throw (error ++ "; rollback progress journal unavailable at " ++ display path)
    else throw error

def rollback (path : Path) : Prog World Unit := do
  checkEnvironment
  let j ← readJournal path
  modify fun w => w.setJournal fun _ => j
  ensure (j.inScope path) "Rollback journal ownership or target scope is invalid"
  -- `profile_lock`
  checkEnvironment
  let again ← readJournal path
  ensure (again = j) "Rollback journal changed; operation refused"
  if j.status ≠ .rolledBack then
    ensure j.status.eligible "Hook transaction is not eligible for rollback"
    restoreAll path j

/-! ## Plan -/

structure HomeHookChange where
  path : Path
  before : Option (List UInt8)
  after : List UInt8
deriving DecidableEq, Repr

/-- What a client's configuration is to be: the client, its configuration, the hook
executable and the socket. -/
abbrev Render := String → Option (List UInt8) → Path → Option Path → Except String (List UInt8)

/-- The configuration file of a client. -/
def clientTarget (client : String) : Option Path :=
  match client with
  | "claude" => some [".claude", "settings.json"]
  | "codex" => some [".codex", "hooks.json"]
  | "agy" | "antigravity" => some [".gemini", "config", "hooks.json"]
  | "gemini-cli" => some [".gemini", "settings.json"]
  | "grok" => some [".grok", "hooks", "agent-otel.json"]
  | "pi" => some [".pi", "agent", "extensions", "agent-otel-bridge.ts"]
  | _ => none

/-- One client of `plan_home_hooks`. -/
def planClient (render : Render) (home binary : Path) (socket : Option Path)
    (changes : List HomeHookChange) (client : String) : Prog World (List HomeHookChange) :=
  match clientTarget client with
  | none => throw ("Unsupported native hook reader: " ++ client)
  | some relative =>
    let path := home ++ relative
    if changes.any (fun change => change.path == path) then pure changes
    else do
      let before ← read fun w => .ok ((w.disk path).map File.bytes)
      match render client before binary socket with
      | .ok after => pure (changes ++ [⟨path, before, after⟩])
      | .error error => throw error

def planHomeHooks (render : Render) (home : Path) (clients : List String) (binary : Path)
    (socket : Option Path) : Prog World (List HomeHookChange) :=
  clients.foldlM (planClient render home binary socket) []

/-- A client's configuration file is inspected. -/
def inspectClient (home : Path) (client : String) : Prog World Unit :=
  match clientTarget client with
  | none => throw "Unsupported native hook reader"
  | some relative => read fun w => inspect w.disk (home ++ relative)

def prepare (render : Render) (options : HomeHookOptions) :
    Prog World (List HomeHookChange × Option Path) := do
  -- `check_home`, and the checks of the executable and the socket.
  checkEnvironment
  let socket ← get fun w => options.socket.or w.agentOtelSocket
  options.clients.forM (inspectClient options.home)
  let changes ← planHomeHooks render options.home options.clients options.binary socket
  pure (changes, socket)

/-! ## Apply -/

/-- What is recorded of a change: also the mode of its file, when it can be read. -/
def record (files : List RecordedFile) (change : HomeHookChange) :
    Prog World (List RecordedFile) := do
  let mode ← attempt (read fun w => .ok ((w.disk change.path).map File.mode))
  pure (files ++
    [⟨change.path, change.before, change.after, mode.toOption.join, .pending⟩])

/-- One file of the loop of `apply_inner`. -/
def applyFile (failAfter : Option Nat) (file : RecordedFile) : Prog World Unit := do
  let applied ← get fun w => w.applied
  ensure (failAfter ≠ some applied) "Injected transaction write failure"
  let before ← matchesRecordedState file true
  ensure before "Configuration changed after planning; apply refused"
  modify fun w => { w with attempted := w.attempted + 1 }
  atomicWrite file.path file.after (file.mode.getD 0o600)
  modify fun w => { w with applied := w.applied + 1 }

/-- The files are written and the journal says so. -/
def applyFiles (path : Path) (failAfter : Option Nat) : Prog World Unit := do
  let files ← get fun w => w.journal.files
  files.forM (applyFile failAfter)
  setStatus .applied
  saveJournal path

/-- What is done when an apply fails: the files that were attempted are restored. -/
def compensate (path : Path) (error : String) : Prog World Unit := do
  let attempted ← get fun w => w.attempted
  match ← attempt (restoreFiles path attempted true) with
  | .ok () =>
    setStatus .compensated
    match ← attempt (saveJournal path) with
    | .ok () =>
      throw (error ++ "; compensation completed; journal saved at " ++ display path)
    | .error _ =>
      throw (error ++ "; compensation completed; journal unavailable at " ++ display path)
  | .error _ =>
    setStatus .partial_
    match ← attempt (saveJournal path) with
    | .ok () =>
      throw (error ++ "; compensation incomplete; journal saved at " ++ display path)
    | .error _ =>
      throw (error ++ "; compensation incomplete; journal unavailable at " ++ display path)

/-- The transaction of a journal that is prepared in memory. -/
def transact (path : Path) (failAfter : Option Nat) : Prog World Unit := do
  saveJournal path
  match ← attempt (applyFiles path failAfter) with
  | .ok () => pure ()
  | .error error => compensate path error

def transactionPath (home : Path) (now pid : Nat) : Path :=
  home ++ stateRelative ++ ["tx-" ++ Nat.repr now ++ "-" ++ Nat.repr pid, "journal.json"]

/-- The clock, which is later each time. -/
def now : Prog World Nat := do
  let now ← get World.clock
  modify fun w => { w with clock := w.clock + 1 }
  pure now

def applyInner (render : Render) (options : HomeHookOptions) (failAfter : Option Nat) :
    Prog World (Option Path) := do
  let _ ← prepare render options
  -- `profile_lock`
  checkEnvironment
  let (changes, socket) ← prepare render options
  let files ← (changes.filter fun change => change.before ≠ some change.after).foldlM record []
  if files = [] then pure none
  else do
    let now ← now
    let pid ← get World.pid
    let path := transactionPath options.home now pid
    -- `private_dirs`
    checkEnvironment
    modify fun w => { w with
      journal := {
        version := 1
        home := options.home
        binary := options.binary
        socket := socket
        clients := options.clients
        status := .prepared
        rollbackAllowBefore := false
        files := files }
      attempted := 0
      applied := 0 }
    transact path failAfter
    pure (some path)

end AgentOtelBridge.HomeApply
