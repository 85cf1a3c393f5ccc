import AgentOtelBridge.Core.ContextHarvest
import AgentOtelBridge.Daemon.ContextFreshness

/-!
# Cached contexts are whole

A worker harvests the directory of its job and keeps the context only if the harvest is completed.
So what a lookup answers is the whole context of the event's own directory, as the directory was at
most five seconds before.

A world says how the file system is at each time.  It may change from one harvest to the next, but
not while a harvest is on.
-/

namespace AgentOtelBridge.ContextCache

open ContextHarvest Transition UnixPath

/-- What a worker makes of the path of its job. -/
def refreshResult (fs : FileSystem) (limits : HarvestLimits) (clock : Nat → Nat) (path : String) :
    Option WorkspaceContext :=
  if fs.isDir path.toList then
    let harvest := harvestFromDirWithLimits fs limits clock path.toList
    if harvest.completed then some harvest.context else none
  else none

theorem refreshResult_whole {fs : FileSystem} {limits : HarvestLimits} {clock : Nat → Nat}
    {path : String} {context : WorkspaceContext}
    (result : refreshResult fs limits clock path = some context) :
    fs.isDir path.toList = true ∧ Whole fs limits path.toList context := by
  unfold refreshResult at result
  split at result
  next isDir =>
    simp only at result
    split at result
    next completed =>
      obtain rfl := Option.some.inj result
      exact ⟨isDir, whole_of_completed completed⟩
    next => cases result
  next => cases result

namespace Traced

variable {s s' : Traced WorkspaceContext}

/-- A harvest that ended is one of the world at the time it was captured. -/
def OfWorld (world : Nat → FileSystem) (harvest : Harvest WorkspaceContext) : Prop :=
  ∃ clock, harvest.result = refreshResult (world harvest.capturedAt) .default clock harvest.dir

/-- A step of a traced run whose worker harvests the world. -/
def WorldStep (size : WorkspaceContext → Nat) (world : Nat → FileSystem)
    (s s' : Traced WorkspaceContext) : Prop :=
  Step size s s' ∧ ∀ harvest ∈ s'.log, harvest ∈ s.log ∨ OfWorld world harvest

/-- The context is whole for the directory as it was at some time. -/
def WholeWithin (world : Nat → FileSystem) (dir : List Char) (context : WorkspaceContext)
    (now ttl : Nat) : Prop :=
  ∃ t, now ≤ t + ttl ∧ (world t).isDir dir = true ∧ Whole (world t) .default dir context

theorem lookup_entry (inv : s.Inv) {input : AgentHookInput} {now : Nat} {context : WorkspaceContext}
    (answered : (s.lookup input now).1.context = some context) :
    ∃ raw age, ownPath input = some raw ∧ isAbsolute raw.toList = true ∧
      (∃ harvest ∈ s.log, harvest.dir = .ofList (render (lexical raw.toList)) ∧
        harvest.result = some context ∧ now ≤ harvest.capturedAt + age) ∧
      age ≤ contextStaleTtl ∧ ((s.lookup input now).1.state = .fresh → age ≤ contextFreshTtl) := by
  unfold Traced.lookup at answered ⊢
  cases selected : selectWorkspace input with
  | none =>
      rw [selected] at answered
      cases answered
  | some job =>
      rw [selected] at answered
      obtain ⟨raw, own, absolute, key, path⟩ := selectWorkspace_some selected
      obtain ⟨age, cached, stale, fresh⟩ := (answer_spec _).1 context answered
      obtain ⟨harvest, logged, dir, result, since⟩ :=
        (inv.explained.read job.key now).2 _ age cached
      rw [key, path] at dir
      exact ⟨raw, age, own, absolute, ⟨harvest, logged, dir, result, by omega⟩, stale, fresh⟩

/-- The use counter tells a lookup from another step. -/
theorem use_lookup_ne (c : Cache WorkspaceContext) (job : RefreshJob) (now : Nat) :
    (c.lookup job now).state.useCounter ≠ c.state.useCounter := by
  have used : (c.lookup job now).state.useCounter = (c.state.useCounter + 1) % 2 ^ 64 := by
    unfold Cache.lookup CacheState.read
    simp only
    cases c.state.entries.lookup ((c.state.aliases.lookup job.key).getD job.key) <;>
      simp only <;> split <;> rfl
  rw [used]
  omega

/-- A step of the cache that no lookup makes, with no worker that harvests. -/
theorem worldStep_quiet {size : WorkspaceContext → Nat} {world : Nat → FileSystem}
    {cache : Cache WorkspaceContext} (step : Cache.Step size s.cache cache)
    (used : cache.state.useCounter = s.cache.state.useCounter)
    (idle : ∀ i job, s.cache.workers i ≠ .harvesting job) :
    WorldStep size world s { s with cache := cache } := by
  refine ⟨.move step ?_ ?_, fun _ => .inl⟩
  · rintro job now rfl
    exact use_lookup_ne s.cache job now used
  · intro i job ord result capturedAt harvesting
    exact absurd harvesting (idle i job)

/-- A file system with one directory, which is empty. -/
def srvDisk : FileSystem where
  isDir path := path = "/srv".toList
  isFile _ := false
  pathExists _ := false
  metadataLen _ := none
  contents _ := none
  canonicalize _ := none

def srvJob : RefreshJob := ⟨"/srv", "/srv"⟩

def firstWorker : Fin contextRefreshWorkers := Cache.firstWorker

/-- The cache when its caller has sent the job. -/
def srvSent : Cache WorkspaceContext :=
  ((Cache.new.lookup srvJob 0).admitJob [] [] srvJob 0).trySend [] [] srvJob

/-- The cache when a worker has the job. -/
def srvReceived : Cache WorkspaceContext :=
  { srvSent with queue := [] }.setWorker firstWorker (.received srvJob)

def srvAnnounced : Cache WorkspaceContext :=
  { srvReceived with state := srvReceived.state.announce firstWorker 0 }.setWorker firstWorker
    (.announced srvJob)

/-- The cache when the worker harvests. -/
def srvHarvesting : Cache WorkspaceContext :=
  { srvAnnounced with counters :=
      { srvAnnounced.counters with queuedKeys := srvAnnounced.counters.queuedKeys - 1 } }.setWorker
    firstWorker (.harvesting srvJob)

/-- A worker that is not yet at its harvest. -/
theorem setWorker_idle (c : Cache WorkspaceContext) {w : WorkerAt}
    (others : ∀ i job, c.workers i ≠ .harvesting job) (here : ∀ job, w ≠ .harvesting job)
    (i : Fin contextRefreshWorkers) (job : RefreshJob) :
    (c.setWorker firstWorker w).workers i ≠ .harvesting job := by
  show Function.update c.workers firstWorker w i ≠ _
  rw [Function.update_apply]
  split
  next => exact here job
  next => exact others i job

theorem reachable_srvHarvesting :
    Reachable (· = new) (WorldStep (fun _ => 0) fun _ => srvDisk) ⟨srvHarvesting, [], 0⟩ := by
  have waiting : ∀ i job, srvSent.workers i ≠ .harvesting job := by rintro i job ⟨⟩
  have received := setWorker_idle { srvSent with queue := [] } (w := .received srvJob) waiting
    (by rintro job ⟨⟩)
  have announced := setWorker_idle
    { srvReceived with state := srvReceived.state.announce firstWorker 0 } (w := .announced srvJob)
    received (by rintro job ⟨⟩)
  have selected : selectWorkspace srvInput = some srvJob := by decide +kernel
  have looked : ((new : Traced WorkspaceContext).lookup srvInput 0).2 =
      ⟨Cache.new.lookup srvJob 0, [], 0⟩ := by
    rw [Traced.lookup, selected]
    rfl
  have h₀ : Reachable (· = new) (WorldStep (fun _ => 0) fun _ => srvDisk) new := .of_init rfl
  have first : WorldStep (fun _ => 0) (fun _ => srvDisk) new
      ⟨Cache.new.lookup srvJob 0, [], 0⟩ := by
    refine ⟨looked ▸ Step.lookup srvInput (Nat.zero_le 0), ?_⟩
    intro harvest inside
    cases inside
  have h₁ := h₀.tail first
  have h₂ := h₁.tail (worldStep_quiet (@Cache.Step.admitJob _ _ _ [] [] srvJob 0 rfl) rfl
    (by rintro i job ⟨⟩))
  have h₃ := h₂.tail (worldStep_quiet (@Cache.Step.trySend _ _ _ [] [] srvJob rfl) rfl
    (by rintro i job ⟨⟩))
  have h₄ := h₃.tail (worldStep_quiet (@Cache.Step.recv _ _ srvSent firstWorker srvJob [] rfl rfl) rfl
    waiting)
  have h₅ := h₄.tail (worldStep_quiet
    (@Cache.Step.announce _ _ srvReceived firstWorker srvJob 0 rfl) rfl received)
  exact h₅.tail (worldStep_quiet (@Cache.Step.uncountKey _ _ srvAnnounced firstWorker srvJob rfl) rfl
    announced)

/-- The harvest of the directory, by a clock that stands still. -/
def srvContext : WorkspaceContext := (harvestFromDirWithLimits srvDisk .default (fun _ => 0)
  "/srv".toList).context

/-- The run when the harvest has ended. -/
def srvSettled : Traced WorkspaceContext :=
  Traced.settle (fun _ => 0) ⟨srvHarvesting, [], 0⟩ .id firstWorker srvJob (some srvContext) 5

end Traced

end AgentOtelBridge.ContextCache
