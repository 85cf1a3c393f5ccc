import AgentOtelBridge.Lib.FiniteMap
import Mathlib.Algebra.GroupWithZero.Nat
import Mathlib.Data.Finset.Basic
import Mathlib.Data.List.MinMax
import Mathlib.Logic.Function.Basic

/-!
# The context cache

Lookups read the cache and schedule a refresh; two workers harvest the contexts.
The state behind the mutex is `CacheState`, and each section of the source that
holds the mutex is one function on it.  `Cache` adds what is outside: the
counters, the channel, and where every caller of `schedule` and every worker
stands.  A step of `Cache` is one section, one channel operation or one update
of a counter.

A harvested context is a parameter, with its size in bytes.  Times are
nanoseconds.
-/

namespace AgentOtelBridge.ContextCache

open FiniteMap

def contextCacheMaxEntries : Nat := 128
def contextCacheMaxBytes : Nat := 4 * 1024 * 1024
def contextSnapshotMaxBytes : Nat := 64 * 1024
def contextRefreshQueueCapacity : Nat := 32
def contextRefreshWorkers : Nat := 2
def contextFreshTtl : Nat := 1000000000
def contextStaleTtl : Nat := 5 * 1000000000
def contextNegativeTtl : Nat := 1000000000
def contextWorkerStuckAfter : Nat := 250 * 1000000

inductive ContextState where
  | fresh
  | stale
  | missing
deriving DecidableEq, Repr

inductive RefreshDisposition where
  | notNeeded
  | queued
  | alreadyPending
  | queueFull
  | circuitOpen
  | invalidWorkspace
deriving DecidableEq, Repr

structure RefreshJob where
  key : String
  path : String
deriving DecidableEq, Repr

structure CacheEntry (γ : Type*) where
  snapshot : Option γ
  capturedAt : Nat
  bytes : Nat
  lastUsed : Nat

structure CacheState (γ : Type*) where
  entries : Map String (CacheEntry γ)
  aliases : Map String String
  pending : Finset String
  workerStarted : Fin contextRefreshWorkers → Option Nat
  bytes : Nat
  useCounter : Nat

structure Counters where
  queued : Nat
  queueFull : Nat
  circuitOpen : Nat
  completed : Nat
  failed : Nat
  rejectedSnapshotSize : Nat
  queuedKeys : Int
deriving DecidableEq, Repr

variable {γ : Type*}

/-! ## The sections that hold the mutex -/

namespace CacheState

def empty : CacheState γ := ⟨∅, ∅, ∅, fun _ => none, 0, 0⟩

/-- `wrapping_add(1)` of the use counter. -/
def nextUse (s : CacheState γ) : Nat := (s.useCounter + 1) % 2 ^ 64

/-- The section of `lookup`: the snapshot of the key and its age. -/
def read (s : CacheState γ) (key : String) (now : Nat) :
    Option (Option γ × Nat) × CacheState γ :=
  let s := { s with useCounter := s.nextUse }
  let identity := (s.aliases.lookup key).getD key
  match s.entries.lookup identity with
  | some entry =>
      (some (entry.snapshot, now - entry.capturedAt),
        { s with entries := s.entries.insert identity { entry with lastUsed := s.useCounter } })
  | none => (none, s)

/-- How `schedule` leaves its first section. -/
inductive Admission where
  | circuitOpen
  | alreadyPending
  | inserted
deriving DecidableEq, Repr

/-- The workers that have been at one job for too long. -/
def stuckWorkers (s : CacheState γ) (now : Nat) : Nat :=
  (List.finRange contextRefreshWorkers).countP fun i =>
    (s.workerStarted i).any fun start => contextWorkerStuckAfter < now - start

/-- The first section of `schedule`. -/
def admitJob (s : CacheState γ) (key : String) (now : Nat) : Admission × CacheState γ :=
  if s.stuckWorkers now = contextRefreshWorkers then (.circuitOpen, s)
  else if key ∈ s.pending then (.alreadyPending, s)
  else (.inserted, { s with pending := insert key s.pending })

/-- The section of `schedule` after a failed send. -/
def remove (s : CacheState γ) (key : String) : CacheState γ :=
  { s with pending := s.pending.erase key }

/-- The first section of a worker that has a job. -/
def announce (s : CacheState γ) (i : Fin contextRefreshWorkers) (now : Nat) : CacheState γ :=
  { s with workerStarted := Function.update s.workerStarted i (some now) }

def overLimits (s : CacheState γ) : Bool :=
  contextCacheMaxEntries < s.entries.entries.length || contextCacheMaxBytes < s.bytes

/-- The key of the entry that was used the longest ago. -/
def oldest (s : CacheState γ) (ord : IterOrder String) : Option String :=
  ((ord.iter s.entries).argmin fun e => e.2.lastUsed).map (·.1)

/-- One pass of the loop of `evict_to_limits`. -/
def evictOne (s : CacheState γ) (ord : IterOrder String) (oldest : String) : CacheState γ :=
  let s := match s.entries.lookup oldest with
    | some entry => { s with entries := s.entries.erase oldest, bytes := s.bytes - entry.bytes }
    | none => s
  let removed := (ord.iter s.aliases).filter fun e => e.2 = oldest
  let removedAliasBytes := (removed.map fun e => e.1.utf8ByteSize + e.2.utf8ByteSize).sum
  { s with
    aliases := ⟨s.aliases.entries.filter fun e => e.2 ≠ oldest,
      s.aliases.nodupKeys.sublist List.filter_sublist⟩
    bytes := s.bytes - removedAliasBytes }

/-- The loop of `evict_to_limits`.  Each pass removes an entry, so as many passes
as there are entries are enough. -/
def evictLoop (ord : IterOrder String) : Nat → CacheState γ → CacheState γ
  | 0, s => s
  | n + 1, s =>
      if s.overLimits then
        match s.oldest ord with
        | some key => evictLoop ord n (s.evictOne ord key)
        | none => s
      else s

def evictToLimits (s : CacheState γ) (ord : IterOrder String) : CacheState γ :=
  evictLoop ord s.entries.entries.length s

/-- `insert_snapshot`. -/
def insertSnapshot (s : CacheState γ) (ord : IterOrder String) (lookupKey : String)
    (snapshot : Option γ) (capturedAt snapshotBytes : Nat) : CacheState γ :=
  let s := { s with useCounter := s.nextUse }
  let identity := lookupKey
  let aliasBytes := lookupKey.utf8ByteSize + identity.utf8ByteSize
  let entryBytes := identity.utf8ByteSize + snapshotBytes
  let s := match s.aliases.lookup lookupKey with
    | some oldIdentity =>
        { s with
          aliases := s.aliases.erase lookupKey
          bytes := s.bytes - (lookupKey.utf8ByteSize + oldIdentity.utf8ByteSize) }
    | none => s
  let s := if lookupKey ≠ identity then
      { s with aliases := s.aliases.insert lookupKey identity, bytes := s.bytes + aliasBytes }
    else s
  let s := match s.entries.lookup identity with
    | some old => { s with entries := s.entries.erase identity, bytes := s.bytes - old.bytes }
    | none => s
  let s := { s with
    bytes := s.bytes + entryBytes
    entries := s.entries.insert identity ⟨snapshot, capturedAt, entryBytes, s.useCounter⟩ }
  s.evictToLimits ord

/-- How a job ends. -/
inductive Ending where
  | completed
  | failed
  | tooLarge
deriving DecidableEq, Repr

/-- The last section of a worker, with the result of its harvest. -/
def settle (size : γ → Nat) (s : CacheState γ) (ord : IterOrder String)
    (i : Fin contextRefreshWorkers) (key : String) (result : Option γ) (capturedAt : Nat) :
    Ending × CacheState γ :=
  let s := { s with
    workerStarted := Function.update s.workerStarted i none
    pending := s.pending.erase key }
  match result with
  | some snapshot =>
      if contextSnapshotMaxBytes < size snapshot then (.tooLarge, s)
      else (.completed, s.insertSnapshot ord key (some snapshot) capturedAt (size snapshot))
  | none => (.failed, s.insertSnapshot ord key none capturedAt 0)

end CacheState

structure ContextLookup (γ : Type*) where
  context : Option γ
  state : ContextState
  age : Option Nat
  refresh : RefreshDisposition

/-- The `match` of `lookup` on what it read: the answer, and whether the answer
waits for the disposition of `schedule`. -/
def answer (cached : Option (Option γ × Nat)) : ContextLookup γ × Bool :=
  match cached with
  | some (some context, age) =>
      if age ≤ contextFreshTtl then (⟨some context, .fresh, some age, .notNeeded⟩, false)
      else if age ≤ contextStaleTtl then (⟨some context, .stale, some age, .notNeeded⟩, true)
      else (⟨none, .missing, none, .notNeeded⟩, true)
  | some (none, age) =>
      if age ≤ contextNegativeTtl then (⟨none, .missing, none, .notNeeded⟩, false)
      else (⟨none, .missing, none, .notNeeded⟩, true)
  | none => (⟨none, .missing, none, .notNeeded⟩, true)

/-! ## Callers, workers and the channel -/

/-- Where a caller of `schedule` stands: before its first section, before its
send, before the two counters of a send, and, when the send failed, before the
section that takes the key back and before its counter. -/
inductive Caller where
  | scheduling (job : RefreshJob) (now : Nat)
  | sending (job : RefreshJob)
  | sent
  | counting
  | refused (key : String)
  | removed
deriving DecidableEq, Repr

/-- Where a worker stands: at the channel, with a job, with a job it announced,
and with a job the gauge no longer counts. -/
inductive WorkerAt where
  | waiting
  | received (job : RefreshJob)
  | announced (job : RefreshJob)
  | harvesting (job : RefreshJob)
deriving DecidableEq, Repr

structure Cache (γ : Type*) where
  state : CacheState γ
  counters : Counters
  queue : List RefreshJob
  callers : List Caller
  workers : Fin contextRefreshWorkers → WorkerAt

namespace Cache

def new : Cache γ := ⟨.empty, ⟨0, 0, 0, 0, 0, 0, 0⟩, [], [], fun _ => .waiting⟩

def setWorker (s : Cache γ) (i : Fin contextRefreshWorkers) (w : WorkerAt) : Cache γ :=
  { s with workers := Function.update s.workers i w }

/-- `lookup` up to `schedule`. -/
def lookup (s : Cache γ) (job : RefreshJob) (now : Nat) : Cache γ :=
  let (cached, state) := s.state.read job.key now
  let s := { s with state := state }
  if (answer cached).2 then { s with callers := .scheduling job now :: s.callers } else s

/-- The first section of a caller, the others being `before` and `after`. -/
def admitJob (s : Cache γ) (before after : List Caller) (job : RefreshJob) (now : Nat) : Cache γ :=
  let (admission, state) := s.state.admitJob job.key now
  let s := { s with state := state }
  match admission with
  | .circuitOpen =>
      { s with
        counters := { s.counters with circuitOpen := s.counters.circuitOpen + 1 }
        callers := before ++ after }
  | .alreadyPending => { s with callers := before ++ after }
  | .inserted => { s with callers := before ++ .sending job :: after }

/-- `try_send`. -/
def trySend (s : Cache γ) (before after : List Caller) (job : RefreshJob) : Cache γ :=
  if s.queue.length < contextRefreshQueueCapacity then
    { s with queue := s.queue ++ [job], callers := before ++ .sent :: after }
  else { s with callers := before ++ .refused job.key :: after }

/-- The last section of worker `i`, with the counter it updates in it. -/
def settle (size : γ → Nat) (s : Cache γ) (ord : IterOrder String)
    (i : Fin contextRefreshWorkers) (job : RefreshJob) (result : Option γ) (capturedAt : Nat) :
    Cache γ :=
  let (ending, state) := s.state.settle size ord i job.key result capturedAt
  let counters := match ending with
    | .completed => { s.counters with completed := s.counters.completed + 1 }
    | .failed => { s.counters with failed := s.counters.failed + 1 }
    | .tooLarge =>
        { s.counters with rejectedSnapshotSize := s.counters.rejectedSnapshotSize + 1 }
  ({ s with state := state, counters := counters }).setWorker i .waiting

/-- One step of a caller or of a worker. -/
inductive Step (size : γ → Nat) (s : Cache γ) : Cache γ → Prop where
  | lookup (job : RefreshJob) (now : Nat) : Step size s (s.lookup job now)
  | admitJob {before after : List Caller} {job : RefreshJob} {now : Nat}
      (h : s.callers = before ++ .scheduling job now :: after) :
      Step size s (s.admitJob before after job now)
  | trySend {before after : List Caller} {job : RefreshJob}
      (h : s.callers = before ++ .sending job :: after) :
      Step size s (s.trySend before after job)
  | countQueued {before after : List Caller} (h : s.callers = before ++ .sent :: after) :
      Step size s { s with
        counters := { s.counters with queued := s.counters.queued + 1 }
        callers := before ++ .counting :: after }
  | countKey {before after : List Caller} (h : s.callers = before ++ .counting :: after) :
      Step size s { s with
        counters := { s.counters with queuedKeys := s.counters.queuedKeys + 1 }
        callers := before ++ after }
  | remove {before after : List Caller} {key : String}
      (h : s.callers = before ++ .refused key :: after) :
      Step size s { s with
        state := s.state.remove key
        callers := before ++ .removed :: after }
  | countFull {before after : List Caller} (h : s.callers = before ++ .removed :: after) :
      Step size s { s with
        counters := { s.counters with queueFull := s.counters.queueFull + 1 }
        callers := before ++ after }
  | recv {i : Fin contextRefreshWorkers} {job : RefreshJob} {rest : List RefreshJob}
      (hw : s.workers i = .waiting) (hq : s.queue = job :: rest) :
      Step size s ({ s with queue := rest }.setWorker i (.received job))
  | announce {i : Fin contextRefreshWorkers} {job : RefreshJob} (now : Nat)
      (hw : s.workers i = .received job) :
      Step size s ({ s with state := s.state.announce i now }.setWorker i (.announced job))
  | uncountKey {i : Fin contextRefreshWorkers} {job : RefreshJob}
      (hw : s.workers i = .announced job) :
      Step size s ({ s with
        counters := { s.counters with queuedKeys := s.counters.queuedKeys - 1 } }.setWorker i
          (.harvesting job))
  | settle {i : Fin contextRefreshWorkers} {job : RefreshJob} (ord : IterOrder String)
      (result : Option γ) (capturedAt : Nat) (hw : s.workers i = .harvesting job) :
      Step size s (s.settle size ord i job result capturedAt)

end Cache

/-! ## Frames -/

namespace CacheState

/-- The part of the state that the refresh protocol uses. -/
def protocol (s : CacheState γ) : Finset String × (Fin contextRefreshWorkers → Option Nat) :=
  (s.pending, s.workerStarted)

theorem read_protocol (s : CacheState γ) (key : String) (now : Nat) :
    (s.read key now).2.protocol = s.protocol := by
  unfold read
  simp only
  cases s.entries.lookup ((s.aliases.lookup key).getD key) <;> rfl

theorem evictOne_protocol (s : CacheState γ) (ord : IterOrder String) (key : String) :
    (s.evictOne ord key).protocol = s.protocol := by
  unfold evictOne
  simp only [protocol]
  cases s.entries.lookup key <;> rfl

theorem evictLoop_protocol (ord : IterOrder String) : ∀ (n : Nat) (s : CacheState γ),
    (evictLoop ord n s).protocol = s.protocol
  | 0, _ => rfl
  | n + 1, s => by
      unfold evictLoop
      split
      · split
        · exact (evictLoop_protocol ord n _).trans (s.evictOne_protocol ord _)
        · rfl
      · rfl

theorem insertSnapshot_protocol (s : CacheState γ) (ord : IterOrder String) (key : String)
    (snapshot : Option γ) (capturedAt bytes : Nat) :
    (s.insertSnapshot ord key snapshot capturedAt bytes).protocol = s.protocol := by
  unfold insertSnapshot evictToLimits
  rw [evictLoop_protocol]
  simp only [ne_eq, not_true_eq_false, if_false, protocol]
  cases s.aliases.lookup key <;> cases s.entries.lookup key <;> simp only [*]

/-- A job ends in one way for the protocol: its worker is free and its key is not
pending. -/
theorem settle_protocol (size : γ → Nat) (s : CacheState γ) (ord : IterOrder String)
    (i : Fin contextRefreshWorkers) (key : String) (result : Option γ) (capturedAt : Nat) :
    (s.settle size ord i key result capturedAt).2.protocol =
      (s.pending.erase key, Function.update s.workerStarted i none) := by
  unfold settle
  cases result with
  | none => exact insertSnapshot_protocol _ ord key none capturedAt 0
  | some snapshot =>
      simp only
      split
      · rfl
      · exact insertSnapshot_protocol _ ord key (some snapshot) capturedAt (size snapshot)

/-! ## The loop of the eviction -/

theorem evictOne_length {s : CacheState γ} {ord : IterOrder String} {key : String}
    (h : s.oldest ord = some key) :
    (s.evictOne ord key).entries.entries.length + 1 = s.entries.entries.length := by
  obtain ⟨e, he, rfl⟩ := Option.map_eq_some_iff.mp h
  have hmem : e ∈ s.entries.entries :=
    (ord.iter_perm s.entries).mem_iff.mp (List.argmin_mem he)
  have hl : s.entries.lookup e.1 = some e.2 := mem_entries_iff.mp hmem
  have hlen := (erase_perm hl).length_eq
  unfold evictOne
  simp only [hl]
  exact hlen.symm

/-- The loop ends where the source's ends: within the limits, or without entries. -/
theorem evictLoop_done (ord : IterOrder String) : ∀ (n : Nat) (s : CacheState γ),
    s.entries.entries.length ≤ n →
      (evictLoop ord n s).overLimits = false ∨ (evictLoop ord n s).entries.entries = []
  | 0, s, h => .inr (List.eq_nil_of_length_eq_zero (Nat.le_zero.mp h))
  | n + 1, s, h => by
      unfold evictLoop
      split
      · cases ho : s.oldest ord with
        | some key =>
            have hlen := evictOne_length ho
            exact evictLoop_done ord n _ (by omega)
        | none =>
            right
            have hnil : ord.iter s.entries = [] :=
              List.argmin_eq_none.mp (Option.map_eq_none_iff.mp ho)
            exact List.perm_nil.mp (hnil ▸ (ord.iter_perm s.entries).symm)
      · rename_i hover
        exact .inl (Bool.not_eq_true _ ▸ hover)

end CacheState

end AgentOtelBridge.ContextCache
