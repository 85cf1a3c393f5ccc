import AgentOtelBridge.Daemon.ContextRefresh
import Mathlib.Algebra.Order.BigOperators.Group.Finset

/-!
# The gauge of the refresh queue

A caller counts a job after its send, and a worker takes a job off the gauge after it
received it.  So the gauge is the number of jobs in the channel and of those a worker
still counts, less the senders that have not counted (`Accounted`).  It is an unsigned
word: where a worker is ahead of the sender of the only job, it wraps.
-/

namespace AgentOtelBridge.ContextCache

variable {γ : Type*} {size : γ → Nat}

/-- The caller has sent its job and not counted it. -/
def Caller.uncounted : Caller → Bool
  | .sent | .counting => true
  | _ => false

/-- One if the worker has received a job that it has not taken off the gauge. -/
def WorkerAt.counted : WorkerAt → Nat
  | .received _ | .announced _ => 1
  | .waiting | .harvesting _ => 0

namespace Cache

/-- The callers between their send and their count. -/
def uncounted (s : Cache γ) : Nat := s.callers.countP Caller.uncounted

/-- The workers between their receive and their count. -/
def counted (s : Cache γ) : Nat := ∑ i, (s.workers i).counted

/-- `queued_keys`, an unsigned word of 64 bits, which `stats` reports. -/
def queuedKeys (s : Cache γ) : Nat := (s.counters.queuedKeys % 2 ^ 64).toNat

structure GaugeSound (s : Cache γ) : Prop where
  /-- The word has not wrapped. -/
  nonneg : 0 ≤ s.counters.queuedKeys
  bounded : s.queuedKeys ≤
    contextRefreshQueueCapacity + contextRefreshWorkers + s.callers.length
  quiet : s.uncounted = 0 → s.counted = 0 → s.queuedKeys = s.queue.length

/-- The step of a worker that takes its job off the gauge. -/
def Uncounts (s s' : Cache γ) : Prop :=
  ∃ i job, s.workers i = .announced job ∧
    s' = { s with
      counters := { s.counters with queuedKeys := s.counters.queuedKeys - 1 } }.setWorker i
        (.harvesting job)

/-- There are more jobs in the channel and at workers that count theirs than senders that
have not counted. -/
def Ahead (s : Cache γ) : Prop := s.uncounted < s.queue.length + s.counted

/-- What the gauge is. -/
structure Accounted (s : Cache γ) : Prop where
  total : s.counters.queuedKeys + s.uncounted = s.queue.length + s.counted
  capacity : s.queue.length ≤ contextRefreshQueueCapacity

/-! ## Steps -/

theorem setWorker_self (s : Cache γ) (i : Fin contextRefreshWorkers) (w : WorkerAt) :
    (s.setWorker i w).workers i = w := Function.update_self ..

theorem counted_setWorker (s : Cache γ) (i : Fin contextRefreshWorkers) (w : WorkerAt) :
    (s.setWorker i w).counted + (s.workers i).counted = s.counted + w.counted :=
  sum_update WorkerAt.counted s.workers i w

theorem counted_le (s : Cache γ) : s.counted ≤ contextRefreshWorkers := by
  have each : ∀ i ∈ (Finset.univ : Finset (Fin contextRefreshWorkers)), (s.workers i).counted ≤ 1 := by
    intro i _
    unfold WorkerAt.counted
    split <;> decide
  unfold counted
  simpa using Finset.sum_le_card_nsmul _ _ 1 each

theorem uncounted_append (s : Cache γ) {before after : List Caller} {c : Caller}
    (there : s.callers = before ++ c :: after) :
    s.uncounted = before.countP Caller.uncounted +
      (after.countP Caller.uncounted + if c.uncounted then 1 else 0) := by
  rw [uncounted, there, List.countP_append, List.countP_cons]

/-- Taking a job off the gauge. -/
theorem Uncounts.shift {s s' : Cache γ} (step : s.Uncounts s') :
    s'.uncounted = s.uncounted ∧ s'.queue = s.queue ∧ s'.counted + 1 = s.counted ∧
      s'.counters.queuedKeys = s.counters.queuedKeys - 1 := by
  obtain ⟨i, job, at_, rfl⟩ := step
  have moved := counted_setWorker { s with
    counters := { s.counters with queuedKeys := s.counters.queuedKeys - 1 } } i (.harvesting job)
  simp only [at_] at moved
  exact ⟨rfl, rfl, moved, rfl⟩

/-- The first section of a caller leaves the gauge and what it counts. -/
theorem admitJob_gauge (s : Cache γ) {before after : List Caller} {job : RefreshJob} {now : Nat}
    (there : s.callers = before ++ .scheduling job now :: after) :
    (s.admitJob before after job now).uncounted = s.uncounted ∧
      (s.admitJob before after job now).counters.queuedKeys = s.counters.queuedKeys := by
  rw [uncounted_append s there]
  unfold admitJob
  simp only
  split <;> exact ⟨by simp [uncounted, Caller.uncounted], rfl⟩

/-- A step that does not take a job off the gauge keeps the account, and does not lower what
is in it. -/
theorem Step.shift {s s' : Cache γ} (step : Step size s s') :
    s.Uncounts s' ∨
      s'.counters.queuedKeys + s'.uncounted + (s.queue.length + s.counted) =
        s.counters.queuedKeys + s.uncounted + (s'.queue.length + s'.counted) ∧
      s.counters.queuedKeys ≤ s'.counters.queuedKeys ∧
      (s.queue.length ≤ contextRefreshQueueCapacity → s'.queue.length ≤ contextRefreshQueueCapacity) := by
  cases step with
  | lookup job now =>
      obtain ⟨-, queue, workers, callers⟩ := s.lookup_cases job now
      have counters : (s.lookup job now).counters = s.counters := by
        unfold Cache.lookup
        simp only
        split <;> rfl
      have same : (s.lookup job now).uncounted = s.uncounted := by
        rcases callers with callers | callers <;> simp [uncounted, callers, Caller.uncounted]
      refine .inr ⟨?_, ?_, ?_⟩
      · rw [counters, same, queue, counted, counted, workers]
      · rw [counters]
      · rw [queue]
        exact id
  | @admitJob before after job now there =>
      obtain ⟨queue, workers, -⟩ := s.admit_cases before after job now
      obtain ⟨uncounted_, counters⟩ := s.admitJob_gauge there
      refine .inr ⟨?_, ?_, ?_⟩
      · rw [counters, uncounted_, queue, counted, counted, workers]
      · rw [counters]
      · rw [queue]
        exact id
  | @trySend before after job there =>
      have old := s.uncounted_append there
      right
      unfold Cache.trySend
      split
      next room =>
        simp only [uncounted, counted, List.countP_append, List.countP_cons, List.length_append,
          List.length_singleton, Caller.uncounted] at old ⊢
        simp only [Bool.false_eq_true, if_false, if_true] at old ⊢
        omega
      next =>
        simp only [uncounted, counted, List.countP_append, List.countP_cons, Caller.uncounted] at old ⊢
        simp only [Bool.false_eq_true, if_false] at old ⊢
        omega
  | countQueued there =>
      have old := s.uncounted_append there
      right
      simp only [uncounted, counted, List.countP_append, List.countP_cons, Caller.uncounted] at old ⊢
      omega
  | countKey there =>
      have old := s.uncounted_append there
      right
      simp only [uncounted, counted, List.countP_append, Caller.uncounted] at old ⊢
      simp only [if_true] at old
      omega
  | remove there | countFull there =>
      have old := s.uncounted_append there
      right
      simp only [uncounted, counted, List.countP_append, List.countP_cons, Caller.uncounted] at old ⊢
      simp only [Bool.false_eq_true, if_false] at old ⊢
      omega
  | @recv i job rest waiting queue =>
      have moved := counted_setWorker { s with queue := rest } i (.received job)
      simp only [waiting] at moved
      have moved' : ({ s with queue := rest }.setWorker i (.received job)).counted = s.counted + 1 := moved
      refine .inr ⟨?_, le_refl _, ?_⟩
      · rw [moved', queue]
        simp only [uncounted, setWorker, List.length_cons]
        omega
      · intro bounded
        rw [queue, List.length_cons] at bounded
        exact Nat.le_of_succ_le bounded
  | @announce i job now received =>
      have moved := counted_setWorker { s with state := s.state.announce i now } i (.announced job)
      simp only [received] at moved
      have moved' : ({ s with state := s.state.announce i now }.setWorker i (.announced job)).counted =
          s.counted := Nat.succ.inj moved
      refine .inr ⟨?_, le_refl _, id⟩
      rw [moved']
      rfl
  | uncountKey announced => exact .inl ⟨_, _, announced, rfl⟩
  | @settle i job ord result capturedAt harvesting =>
      obtain ⟨-, queue, callers, workers⟩ := settle_facts size s ord i job result capturedAt
      have moved := sum_update WorkerAt.counted s.workers i .waiting
      rw [harvesting] at moved
      have moved' : (s.settle size ord i job result capturedAt).counted = s.counted := by
        rw [counted, workers]
        exact moved
      have counters : (s.settle size ord i job result capturedAt).counters.queuedKeys =
          s.counters.queuedKeys := by
        unfold Cache.settle
        simp only
        split <;> rfl
      refine .inr ⟨?_, ?_, ?_⟩
      · rw [counters, moved', queue, uncounted, uncounted, callers]
      · rw [counters]
      · rw [queue]
        exact id

/-- Every step keeps the account. -/
theorem Step.accounted {s s' : Cache γ} (step : Step size s s') (h : s.Accounted) : s'.Accounted := by
  obtain ⟨total, capacity⟩ := h
  rcases step.shift with uncounts | ⟨shifted, -, kept⟩
  · obtain ⟨uncounted_, queue, counted_, counters⟩ := uncounts.shift
    constructor
    · rw [uncounted_, queue, counters]
      omega
    · rw [queue]
      exact capacity
  · constructor
    · omega
    · exact kept capacity

theorem new_accounted : (new : Cache γ).Accounted where
  total := by simp [new, uncounted, counted, WorkerAt.counted]
  capacity := Nat.zero_le _

/-! ## The gauge -/

/-- The gauge is sound exactly while it has not wrapped. -/
theorem Accounted.gaugeSound_iff {s : Cache γ} (h : s.Accounted) :
    s.GaugeSound ↔ 0 ≤ s.counters.queuedKeys := by
  refine ⟨GaugeSound.nonneg, fun nonneg => ?_⟩
  obtain ⟨total, capacity⟩ := h
  have workers := s.counted_le
  have small : s.counters.queuedKeys < 2 ^ 64 := by
    unfold contextRefreshQueueCapacity at capacity
    unfold contextRefreshWorkers at workers
    omega
  have same : (s.queuedKeys : Int) = s.counters.queuedKeys := by
    rw [queuedKeys, Int.emod_eq_of_lt nonneg small, Int.toNat_of_nonneg nonneg]
  refine ⟨nonneg, by omega, fun uncounted_ counted_ => by omega⟩

/-- From a state that has not wrapped, a step wraps exactly if it takes a job off the gauge
where too few are there. -/
theorem Step.nonneg_iff {s s' : Cache γ} (step : Step size s s') (h : s.Accounted)
    (nonneg : 0 ≤ s.counters.queuedKeys) :
    0 ≤ s'.counters.queuedKeys ↔ (s.Uncounts s' → s.Ahead) := by
  unfold Ahead
  have total := h.total
  rcases step.shift with uncounts | ⟨-, mono, -⟩
  · have counters := uncounts.shift.2.2.2
    constructor
    · intro kept _
      omega
    · intro ahead
      have more := ahead uncounts
      omega
  · constructor
    · intro _ uncounts
      have counters := uncounts.shift.2.2.2
      omega
    · intro _
      omega

/-- **The gauge is sound along a run** exactly if no worker of the run takes a job off it
where the senders that have not counted are as many as the jobs that are there. -/
theorem run_gaugeSound_iff {states : List (Cache γ)}
    (run : List.IsChain (Step size) (new :: states)) :
    (∀ s ∈ new :: states, s.GaugeSound) ↔
      ∀ step ∈ (new :: states).zip states, step.1.Uncounts step.2 → step.1.Ahead := by
  -- The induction is on the run, from any state that has not wrapped.
  suffices general : ∀ (states : List (Cache γ)) (first : Cache γ), first.Accounted →
      0 ≤ first.counters.queuedKeys → List.IsChain (Step size) (first :: states) →
      ((∀ s ∈ first :: states, s.GaugeSound) ↔
        ∀ step ∈ (first :: states).zip states, step.1.Uncounts step.2 → step.1.Ahead) from
    general states new new_accounted le_rfl run
  intro states
  induction states with
  | nil =>
      intro first accounted nonneg _
      simpa using accounted.gaugeSound_iff.mpr nonneg
  | cons second states ih =>
      intro first accounted nonneg run
      obtain ⟨step, rest⟩ := List.isChain_cons_cons.mp run
      have accounted' := Step.accounted step accounted
      have wraps := Step.nonneg_iff step accounted nonneg
      constructor
      · intro sound
        obtain ⟨-, sound⟩ := List.forall_mem_cons.mp sound
        have nonneg' := (sound second (.head _)).nonneg
        exact List.forall_mem_cons.mpr
          ⟨wraps.mp nonneg', (ih second accounted' nonneg' rest).mp sound⟩
      · intro aheads
        obtain ⟨ahead, aheads⟩ := List.forall_mem_cons.mp aheads
        have nonneg' := wraps.mpr ahead
        exact List.forall_mem_cons.mpr
          ⟨accounted.gaugeSound_iff.mpr nonneg, (ih second accounted' nonneg' rest).mpr aheads⟩

/-! A refresh of the root directory, where the worker is ahead of its sender. -/

def rootJob : RefreshJob := ⟨"/", "/"⟩

def rootSent : Cache Unit := rootSending.trySend [] [] rootJob

def rootReceived : Cache Unit := { rootSent with queue := [] }.setWorker firstWorker (.received rootJob)

def rootAnnounced : Cache Unit :=
  { rootReceived with state := rootReceived.state.announce firstWorker 0 }.setWorker firstWorker
    (.announced rootJob)

def rootUncounted : Cache Unit :=
  { rootAnnounced with
    counters := { rootAnnounced.counters with queuedKeys := rootAnnounced.counters.queuedKeys - 1 }
    }.setWorker firstWorker (.harvesting rootJob)

def rootRun : List (Cache Unit) :=
  [(new : Cache Unit).lookup rootJob 0, rootSending, rootSent, rootReceived, rootAnnounced, rootUncounted]

theorem rootRun_steps : List.IsChain (Step fun _ => 0) ((new : Cache Unit) :: rootRun) := by
  refine .cons_cons (.lookup rootJob 0) <| .cons_cons
    (.admitJob (show _ = [] ++ _ :: [] from rfl)) <| .cons_cons
    (.trySend (show _ = [] ++ _ :: [] from rfl)) <| .cons_cons (.recv rfl rfl) <|
    .cons_cons (.announce 0 ?_) <| .cons_cons (.uncountKey ?_) <| .singleton _ <;>
  exact setWorker_self _ _ _

theorem run_gaugeSound_iff_rootRun :
    (∀ s ∈ new :: rootRun, s.GaugeSound) ↔
      ∀ step ∈ (new :: rootRun).zip rootRun, step.1.Uncounts step.2 → step.1.Ahead :=
  run_gaugeSound_iff rootRun_steps

/-- The worker takes the job off the gauge before its sender counts it: what is reported is
`2 ^ 64 - 1`. -/
theorem not_gaugeSound_rootRun : ¬ ∀ states : List (Cache Unit),
    List.IsChain (Step fun _ => 0) (new :: states) → ∀ s ∈ new :: states, s.GaugeSound := by
  intro all
  have sound := all rootRun rootRun_steps rootUncounted (by simp [rootRun])
  exact absurd sound.nonneg (by decide)

end Cache

end AgentOtelBridge.ContextCache
