import AgentOtelBridge.Lib.Reachable
import Mathlib.Logic.Function.Basic

/-!
# The listener on a Unix socket

Daemon processes that start on one socket path share the path, a lease file beside
it and the kernel's table of locks and sockets.  A process takes an advisory lock
on the lease file, binds the socket, and serves; a socket left over by a process
that died is removed first, when a connection to it is refused.

`Act` is one system call of one process, with the state of the process before and
after it.  A lock has one holder, and is released when the holder's file is closed;
a connection is refused when no live listener owns the socket; a new socket has an
inode no live listener has.  What a process holds is a function of where it stands,
so nothing is held by a process that is gone.

A check that fails and any other error is `die`: what the process holds is closed
then.  A crash is the same.  The two closes may come in any order, the order of the
source's drops among them.
-/

namespace AgentOtelBridge.Ipc.Listener

/-- The device and the inode of a file. -/
structure FileId where
  device : Nat
  inode : Nat
deriving DecidableEq, Repr

structure SocketIdentity where
  file : FileId
  owner : Nat
deriving DecidableEq, Repr

/-- What a path leads to. -/
structure Entry where
  file : FileId
  owner : Nat
  /-- A socket, and not a symbolic link. -/
  isSocket : Bool
deriving DecidableEq, Repr

def Entry.identity (e : Entry) : SocketIdentity := ⟨e.file, e.owner⟩

/-- `owned_identity` of what is at a path. -/
def ownedIdentity (path : Option Entry) (owner : Nat) : Except String SocketIdentity :=
  match path with
  | none => .error "not found"
  | some e =>
    if e.isSocket = false then .error "existing Unix endpoint is not an ordinary socket"
    else if e.owner ≠ owner then .error "existing Unix socket belongs to another user"
    else .ok e.identity

theorem ownedIdentity_ok {path : Option Entry} {owner : Nat} {identity : SocketIdentity}
    (h : ownedIdentity path owner = .ok identity) :
    ∃ e, path = some e ∧ e.identity = identity ∧ e.owner = owner := by
  unfold ownedIdentity at h
  split at h
  · cases h
  rename_i e
  split at h
  · cases h
  split at h
  · cases h
  rename_i howner
  cases h
  exact ⟨e, rfl, rfl, not_not.mp howner⟩

/-- The lease file.  It is private when it is a regular file without hardlinks that
only its owner may read and write. -/
structure LeaseFile where
  file : FileId
  owner : Nat
  isPrivate : Bool
deriving DecidableEq, Repr

/-- `lease_identity`: the lease file, when its metadata is valid. -/
def leaseIdentity (leaseFile : Option LeaseFile) (owner : Nat) : Option FileId :=
  match leaseFile with
  | some f => if f.isPrivate ∧ f.owner = owner then some f.file else none
  | none => none

theorem leaseIdentity_some {leaseFile : Option LeaseFile} {owner : Nat} {file : FileId}
    (h : leaseIdentity leaseFile owner = some file) :
    leaseFile.map LeaseFile.file = some file := by
  unfold leaseIdentity at h
  split at h
  · split at h
    · exact h
    · cases h
  · cases h

/-- Where a process stands. -/
inductive Pc where
  | idle
  /-- `bind`: about to look at what is at the path. -/
  | checking
  /-- `lease`: about to create the file. -/
  | creating
  /-- It was there: about to identify it. -/
  | existing
  | expecting (expected : FileId)
  /-- About to compare the opened file with the path. -/
  | opened (expected : Option FileId) (file : FileId)
  | locking (file : FileId)
  /-- Locked: about to compare once more. -/
  | locked (file : FileId)
  /-- `bind` with the lease. -/
  | binding (file : FileId)
  /-- The address was in use. -/
  | inUse (file : FileId)
  | probing (file : FileId) (stale : SocketIdentity)
  /-- The connection was refused: about to compare. -/
  | refused (file : FileId) (stale : SocketIdentity)
  | unlinking (file : FileId)
  | rebinding (file : FileId)
  /-- The socket is bound: about to identify it. -/
  | bound (file : FileId) (socket : FileId)
  | serving (file : FileId) (socket : FileId) (identity : SocketIdentity)
  /-- `SocketGuard::drop`: about to compare. -/
  | cleaning (file : FileId) (socket : FileId) (identity : SocketIdentity)
  | removing (file : FileId) (socket : FileId)
  /-- The lease is about to be closed, and then the listener. -/
  | releasing (file : FileId) (socket : FileId)
  | closing (socket : FileId)
  /-- An error or a crash: what is left is closed. -/
  | dying (file : Option FileId) (socket : Option FileId)
deriving DecidableEq, Repr

namespace Pc

/-- The lease file a process has found. -/
def leaseFile : Pc → Option FileId
  | .idle | .checking | .creating | .existing | .closing _ => none
  | .expecting file | .opened _ file | .locking file | .locked file | .binding file | .inUse file
  | .probing file _ | .refused file _ | .unlinking file | .rebinding file | .bound file _
  | .serving file _ _ | .cleaning file _ _ | .removing file _ | .releasing file _ => some file
  | .dying file _ => file

/-- The file a process has locked: its lease. -/
def lease : Pc → Option FileId
  | .idle | .checking | .creating | .existing | .expecting _ | .opened .. | .locking _
  | .closing _ => none
  | .locked file | .binding file | .inUse file | .probing file _ | .refused file _
  | .unlinking file | .rebinding file | .bound file _ | .serving file _ _ | .cleaning file _ _
  | .removing file _ | .releasing file _ => some file
  | .dying file _ => file

/-- The socket a process listens on. -/
def listener : Pc → Option FileId
  | .idle | .checking | .creating | .existing | .expecting _ | .opened .. | .locking _ | .locked _
  | .binding _ | .inUse _ | .probing .. | .refused .. | .unlinking _ | .rebinding _ => none
  | .bound _ socket | .serving _ socket _ | .cleaning _ socket _ | .removing _ socket
  | .releasing _ socket | .closing socket => some socket
  | .dying _ socket => socket

end Pc

/-- The files and the processes. -/
structure System where
  path : Option Entry
  leaseFile : Option LeaseFile
  procs : Nat → Pc

namespace System

/-- A live listener owns a socket. -/
def Live (s : System) (socket : FileId) : Prop := ∃ p, (s.procs p).listener = some socket

/-- One system call of a process of a user: what is at the path, the lease file, and
where the process stands then. -/
inductive Act (uid : Nat) (s : System) :
    Pc → Option Entry → Option LeaseFile → Pc → Prop where
  | start : Act uid s .idle s.path s.leaseFile .checking
  | vacant (h : s.path = none) : Act uid s .checking s.path s.leaseFile .creating
  | occupied {identity : SocketIdentity} (h : ownedIdentity s.path uid = .ok identity) :
      Act uid s .checking s.path s.leaseFile .creating
  | create (file : FileId) (h : s.leaseFile = none) :
      Act uid s .creating s.path (some ⟨file, uid, true⟩) (.opened none file)
  | found (h : s.leaseFile ≠ none) : Act uid s .creating s.path s.leaseFile .existing
  | identify {file : FileId} (h : leaseIdentity s.leaseFile uid = some file) :
      Act uid s .existing s.path s.leaseFile (.expecting file)
  | openFile {expected : FileId} {f : LeaseFile} (h : s.leaseFile = some f) :
      Act uid s (.expecting expected) s.path s.leaseFile (.opened (some expected) f.file)
  | validate {expected : Option FileId} {file : FileId}
      (he : expected = none ∨ expected = some file)
      (h : leaseIdentity s.leaseFile uid = some file) :
      Act uid s (.opened expected file) s.path s.leaseFile (.locking file)
  /-- `try_lock`: nobody has locked the file. -/
  | tryLock {file : FileId} (h : ∀ p, (s.procs p).lease ≠ some file) :
      Act uid s (.locking file) s.path s.leaseFile (.locked file)
  | recheck {file : FileId} (h : leaseIdentity s.leaseFile uid = some file) :
      Act uid s (.locked file) s.path s.leaseFile (.binding file)
  | bind {file : FileId} (socket : FileId) (h : s.path = none) (hfresh : ¬ s.Live socket) :
      Act uid s (.binding file) (some ⟨socket, uid, true⟩) s.leaseFile (.bound file socket)
  | addrInUse {file : FileId} (h : s.path ≠ none) :
      Act uid s (.binding file) s.path s.leaseFile (.inUse file)
  | stale {file : FileId} {identity : SocketIdentity}
      (h : ownedIdentity s.path uid = .ok identity) :
      Act uid s (.inUse file) s.path s.leaseFile (.probing file identity)
  /-- `connect`: no live listener owns the socket. -/
  | refuse {file : FileId} {stale : SocketIdentity} {e : Entry} (h : s.path = some e)
      (hdead : ¬ s.Live e.file) :
      Act uid s (.probing file stale) s.path s.leaseFile (.refused file stale)
  | unchanged {file : FileId} {stale : SocketIdentity}
      (h : ownedIdentity s.path stale.owner = .ok stale) :
      Act uid s (.refused file stale) s.path s.leaseFile (.unlinking file)
  | unlink {file : FileId} (h : s.path ≠ none) :
      Act uid s (.unlinking file) none s.leaseFile (.rebinding file)
  | rebind {file : FileId} (socket : FileId) (h : s.path = none) (hfresh : ¬ s.Live socket) :
      Act uid s (.rebinding file) (some ⟨socket, uid, true⟩) s.leaseFile (.bound file socket)
  | serve {file socket : FileId} {identity : SocketIdentity}
      (h : ownedIdentity s.path uid = .ok identity) :
      Act uid s (.bound file socket) s.path s.leaseFile (.serving file socket identity)
  /-- The accept loop is left, by a shutdown or an error. -/
  | stop {file socket : FileId} {identity : SocketIdentity} :
      Act uid s (.serving file socket identity) s.path s.leaseFile
        (.cleaning file socket identity)
  | own {file socket : FileId} {identity : SocketIdentity}
      (h : ownedIdentity s.path identity.owner = .ok identity) :
      Act uid s (.cleaning file socket identity) s.path s.leaseFile (.removing file socket)
  /-- The comparison fails: the path is left as it is. -/
  | keep {file socket : FileId} {identity : SocketIdentity} :
      Act uid s (.cleaning file socket identity) s.path s.leaseFile (.releasing file socket)
  | remove {file socket : FileId} (h : s.path ≠ none) :
      Act uid s (.removing file socket) none s.leaseFile (.releasing file socket)
  /-- The error of `remove_file` is ignored. -/
  | removeError {file socket : FileId} :
      Act uid s (.removing file socket) s.path s.leaseFile (.releasing file socket)
  | release {file socket : FileId} :
      Act uid s (.releasing file socket) s.path s.leaseFile (.closing socket)
  | close {socket : FileId} : Act uid s (.closing socket) s.path s.leaseFile .idle
  | die (pc : Pc) : Act uid s pc s.path s.leaseFile (.dying pc.lease pc.listener)
  | dropLease {file : FileId} {socket : Option FileId} :
      Act uid s (.dying (some file) socket) s.path s.leaseFile (.dying none socket)
  | dropListener {file : Option FileId} {socket : FileId} :
      Act uid s (.dying file (some socket)) s.path s.leaseFile (.dying file none)
  | gone : Act uid s (.dying none none) s.path s.leaseFile .idle

/-- A process makes a system call.  `uid` is the user of each process. -/
inductive Step (uid : Nat → Nat) (p : Nat) (s : System) : System → Prop where
  | act {path : Option Entry} {leaseFile : Option LeaseFile} {pc : Pc}
      (h : Act (uid p) s (s.procs p) path leaseFile pc) :
      Step uid p s ⟨path, leaseFile, Function.update s.procs p pc⟩

/-- No process has started; the files may be anything. -/
def Init (s : System) : Prop := ∀ p, s.procs p = .idle

/-- A step of some process. -/
def Next (uid : Nat → Nat) (s s' : System) : Prop := ∃ p, Step uid p s s'

end System

end AgentOtelBridge.Ipc.Listener
