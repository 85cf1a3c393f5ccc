import AgentOtelBridge.Daemon.ContextCache
import AgentOtelBridge.Lib.Reachable
import Mathlib.Algebra.BigOperators.Fin

/-!
# The refresh protocol of the context cache

A key is pending while somebody answers for it: a caller that is about to send
its job or has just been refused, the channel, or a worker.  `tally` counts those
who answer for a key, and the invariant says that the count is one for a pending
key and zero for any other.  What the protocol promises is read off the count.

No key stays pending for good.  Whatever the state, the callers and workers that
are in it can all run to their ends (`drain`), and then nothing is pending.
-/

namespace AgentOtelBridge.ContextCache

open Transition

variable {γ : Type*}

/-- The key a caller answers for. -/
def Caller.key? : Caller → Option String
  | .sending job => some job.key
  | .refused key => some key
  | _ => none

/-- The job a worker holds. -/
def WorkerAt.job? : WorkerAt → Option RefreshJob
  | .waiting => none
  | .received job => some job
  | .announced job => some job
  | .harvesting job => some job

/-- The worker holds a job it announced. -/
def WorkerAt.hasAnnounced : WorkerAt → Bool
  | .announced _ => true
  | .harvesting _ => true
  | _ => false

/-- One if the worker holds a job of the key. -/
def WorkerAt.share (k : String) (w : WorkerAt) : Nat :=
  if w.job?.map RefreshJob.key = some k then 1 else 0

/-- Changing one value changes a sum by that value. -/
theorem sum_update {n : Nat} {P : Type*} (g : P → Nat) (w : Fin n → P) (i : Fin n) (v : P) :
    (∑ j, g (Function.update w i v j)) + g (w i) = (∑ j, g (w j)) + g v := by
  have hrest : ∑ j ∈ Finset.univ.erase i, g (Function.update w i v j) =
      ∑ j ∈ Finset.univ.erase i, g (w j) :=
    Finset.sum_congr rfl fun j hj => by rw [Function.update_of_ne (Finset.ne_of_mem_erase hj)]
  have hnew := Finset.add_sum_erase Finset.univ (fun j => g (Function.update w i v j))
    (Finset.mem_univ i)
  have hold := Finset.add_sum_erase Finset.univ (fun j => g (w j)) (Finset.mem_univ i)
  simp only [Function.update_self] at hnew
  omega

namespace Cache

/-- The jobs of a key that are in the channel or at a worker. -/
def inFlight (s : Cache γ) (k : String) : Nat :=
  s.queue.countP (fun job => job.key = k) + ∑ i, (s.workers i).share k

/-- How many answer for a key. -/
def tally (s : Cache γ) (k : String) : Nat :=
  s.callers.countP (fun c => c.key? = some k) + s.inFlight k

structure Inv (s : Cache γ) : Prop where
  tally : ∀ k, s.tally k = if k ∈ s.state.pending then 1 else 0
  started : ∀ i, (s.state.workerStarted i).isSome = (s.workers i).hasAnnounced

/-! ## What the steps do -/

theorem lookup_cases (s : Cache γ) (job : RefreshJob) (now : Nat) :
    (s.lookup job now).state.protocol = s.state.protocol ∧
      (s.lookup job now).queue = s.queue ∧ (s.lookup job now).workers = s.workers ∧
      ((s.lookup job now).callers = s.callers ∨
        (s.lookup job now).callers = .scheduling job now :: s.callers) := by
  have hp := s.state.read_protocol job.key now
  unfold lookup
  simp only
  split
  · exact ⟨hp, rfl, rfl, .inr rfl⟩
  · exact ⟨hp, rfl, rfl, .inl rfl⟩

theorem admit_cases (s : Cache γ) (before after : List Caller) (job : RefreshJob) (now : Nat) :
    (s.admitJob before after job now).queue = s.queue ∧
      (s.admitJob before after job now).workers = s.workers ∧
      ((s.admitJob before after job now).state = s.state ∧
          (s.admitJob before after job now).callers = before ++ after ∨
        job.key ∉ s.state.pending ∧
          (s.admitJob before after job now).state.protocol =
            (insert job.key s.state.pending, s.state.workerStarted) ∧
          (s.admitJob before after job now).callers = before ++ .sending job :: after) := by
  unfold admitJob CacheState.admitJob
  by_cases hstuck : s.state.stuckWorkers now = contextRefreshWorkers
  · simp only [if_pos hstuck]
    exact ⟨trivial, trivial, .inl ⟨trivial, trivial⟩⟩
  · by_cases hmem : job.key ∈ s.state.pending
    · simp only [if_neg hstuck, if_pos hmem]
      exact ⟨trivial, trivial, .inl ⟨trivial, trivial⟩⟩
    · simp only [if_neg hstuck, if_neg hmem]
      exact ⟨trivial, trivial, .inr ⟨hmem, rfl, trivial⟩⟩

theorem settle_facts (size : γ → Nat) (s : Cache γ) (ord : FiniteMap.IterOrder String)
    (i : Fin contextRefreshWorkers) (job : RefreshJob) (result : Option γ) (capturedAt : Nat) :
    (s.settle size ord i job result capturedAt).state.protocol =
        (s.state.pending.erase job.key, Function.update s.state.workerStarted i none) ∧
      (s.settle size ord i job result capturedAt).queue = s.queue ∧
      (s.settle size ord i job result capturedAt).callers = s.callers ∧
      (s.settle size ord i job result capturedAt).workers =
        Function.update s.workers i .waiting :=
  ⟨s.state.settle_protocol size ord i job.key result capturedAt, rfl, rfl, rfl⟩

theorem started_update {s : Cache γ} (h : s.Inv) (i : Fin contextRefreshWorkers) (v : Option Nat)
    (w : WorkerAt) (hv : v.isSome = w.hasAnnounced) (j : Fin contextRefreshWorkers) :
    (Function.update s.state.workerStarted i v j).isSome =
      (Function.update s.workers i w j).hasAnnounced := by
  by_cases hj : j = i
  · subst hj
    simpa using hv
  · rw [Function.update_of_ne hj, Function.update_of_ne hj]
    exact h.started j

/-- A worker that moves on outside the mutex keeps the announcement it has. -/
theorem started_keep {s : Cache γ} (h : s.Inv) {i : Fin contextRefreshWorkers} {w : WorkerAt}
    (hw : (s.workers i).hasAnnounced = w.hasAnnounced) (j : Fin contextRefreshWorkers) :
    (s.state.workerStarted j).isSome = (Function.update s.workers i w j).hasAnnounced := by
  have hj := started_update h i (s.state.workerStarted i) w ((h.started i).trans hw) j
  rwa [Function.update_eq_self] at hj

/-- A worker that moves on with its job answers for the same key. -/
theorem inFlight_setWorker {s : Cache γ} {i : Fin contextRefreshWorkers} {w : WorkerAt}
    (h : w.job? = (s.workers i).job?) (k : String) :
    (s.setWorker i w).inFlight k = s.inFlight k := by
  have hshare : w.share k = (s.workers i).share k := by rw [WorkerAt.share, h, WorkerAt.share]
  have hsum := sum_update (WorkerAt.share k) s.workers i w
  simp only [inFlight, setWorker]
  omega

/-- Every step keeps the invariant. -/
theorem Step.inv {size : γ → Nat} {s s' : Cache γ} (h : s.Inv) (hs : Step size s s') :
    s'.Inv := by
  cases hs with
  | lookup job now =>
      obtain ⟨hp, hq, hw, hc⟩ := s.lookup_cases job now
      have hpending : (s.lookup job now).state.pending = s.state.pending := congrArg Prod.fst hp
      have hstarted : (s.lookup job now).state.workerStarted = s.state.workerStarted :=
        congrArg Prod.snd hp
      refine ⟨fun k => ?_, fun i => by rw [hstarted, hw]; exact h.started i⟩
      rw [hpending, ← h.tally k, Cache.tally, Cache.tally, inFlight, inFlight, hq, hw]
      rcases hc with hc | hc <;> rw [hc]
      rw [List.countP_cons_of_neg (by simp [Caller.key?])]
  | @admitJob before after job now hc =>
      obtain ⟨hq, hw, ⟨hstate, hcallers⟩ | ⟨hnot, hp, hcallers⟩⟩ := s.admit_cases before after job now
      · refine ⟨fun k => ?_, fun i => by rw [hstate, hw]; exact h.started i⟩
        have ht := h.tally k
        rw [hstate, ← ht, Cache.tally, Cache.tally, inFlight, inFlight, hq, hw, hcallers, hc]
        simp [Caller.key?]
      · have hpending := congrArg Prod.fst hp
        have hstarted := congrArg Prod.snd hp
        refine ⟨fun k => ?_, fun i => ?_⟩
        · have ht := h.tally k
          rw [show (s.admitJob before after job now).state.pending =
            insert job.key s.state.pending from hpending]
          rw [Cache.tally, inFlight, hc] at ht
          rw [Cache.tally, inFlight, hq, hw, hcallers]
          simp only [List.countP_append, List.countP_cons, Caller.key?, Option.some.injEq,
            decide_eq_true_eq, Finset.mem_insert, reduceCtorEq, decide_false, Bool.false_eq_true,
            if_false] at ht ⊢
          by_cases hk : job.key = k
          · subst hk
            rw [if_neg hnot] at ht
            rw [if_pos rfl, if_pos (.inl rfl)]
            omega
          · rw [if_neg hk]
            simp only [Ne.symm hk, false_or]
            omega
        · rw [show (s.admitJob before after job now).state.workerStarted = s.state.workerStarted
            from hstarted, hw]
          exact h.started i
  | @trySend before after job hc =>
      refine ⟨fun k => ?_, ?_⟩
      · have ht := h.tally k
        rw [Cache.tally, inFlight, hc] at ht
        unfold Cache.trySend
        split <;>
        · simp only [Cache.tally, inFlight, List.countP_append, List.countP_cons, List.countP_nil,
            Caller.key?, Option.some.injEq, reduceCtorEq, decide_false, Bool.false_eq_true,
            if_false] at ht ⊢
          omega
      · unfold Cache.trySend
        split <;> exact h.started
  | countQueued hc =>
      refine ⟨fun k => ?_, h.started⟩
      rw [← h.tally k]
      simp [Cache.tally, inFlight, hc, Caller.key?]
  | countKey hc =>
      refine ⟨fun k => ?_, h.started⟩
      rw [← h.tally k]
      simp [Cache.tally, inFlight, hc, Caller.key?]
  | @remove before after key hc =>
      refine ⟨fun k => ?_, h.started⟩
      have ht := h.tally k
      rw [Cache.tally, inFlight, hc] at ht
      show Cache.tally _ k = if k ∈ s.state.pending.erase key then 1 else 0
      simp only [Cache.tally, inFlight, List.countP_append, List.countP_cons, Caller.key?,
        Option.some.injEq, decide_eq_true_eq, reduceCtorEq, decide_false, Bool.false_eq_true,
        if_false, Finset.mem_erase] at ht ⊢
      by_cases hk : key = k
      · subst hk
        rw [if_pos rfl] at ht
        simp only [ne_eq, not_true_eq_false, false_and, if_false]
        split at ht <;> omega
      · rw [if_neg hk] at ht
        simp only [ne_eq, Ne.symm hk, not_false_eq_true, true_and]
        omega
  | countFull hc =>
      refine ⟨fun k => ?_, h.started⟩
      rw [← h.tally k]
      simp [Cache.tally, inFlight, hc, Caller.key?]
  | @recv i job rest hw hq =>
      refine ⟨fun k => ?_, fun j => ?_⟩
      · have ht := h.tally k
        have hsum := sum_update (WorkerAt.share k) s.workers i (.received job)
        rw [hw] at hsum
        rw [Cache.tally, inFlight, hq] at ht
        show Cache.tally _ k = if k ∈ s.state.pending then 1 else 0
        rw [← ht]
        simp only [Cache.tally, inFlight, setWorker, List.countP_cons, decide_eq_true_eq]
        simp only [WorkerAt.share, WorkerAt.job?, Option.map_none, Option.map_some,
          Option.some.injEq, reduceCtorEq, if_false] at hsum ⊢
        omega
      · exact started_keep h (w := .received job) (by rw [hw]; rfl) j
  | @announce i job now hw =>
      refine ⟨fun k => ?_, fun j => started_update h i (some now) (.announced job) rfl j⟩
      have hf := inFlight_setWorker (s := { s with state := s.state.announce i now })
        (i := i) (w := .announced job) (by simp only [hw]; rfl) k
      rw [Cache.tally, hf]
      exact h.tally k
  | @uncountKey i job hw =>
      refine ⟨fun k => ?_, fun j => ?_⟩
      · have hf := inFlight_setWorker (s := { s with
          counters := { s.counters with queuedKeys := s.counters.queuedKeys - 1 } })
          (i := i) (w := .harvesting job) (by simp only [hw]; rfl) k
        rw [Cache.tally, hf]
        exact h.tally k
      · exact started_keep h (w := .harvesting job) (by rw [hw]; rfl) j
  | @settle i job ord result capturedAt hw =>
      obtain ⟨hp, hq, hc, hws⟩ := settle_facts size s ord i job result capturedAt
      have hpending := congrArg Prod.fst hp
      have hstarted := congrArg Prod.snd hp
      refine ⟨fun k => ?_, fun j => ?_⟩
      · have ht := h.tally k
        have hsum := sum_update (WorkerAt.share k) s.workers i .waiting
        rw [hw] at hsum
        rw [show (s.settle size ord i job result capturedAt).state.pending =
          s.state.pending.erase job.key from hpending]
        rw [Cache.tally, inFlight] at ht
        rw [Cache.tally, inFlight, hq, hc, hws]
        simp only [WorkerAt.share, WorkerAt.job?, Option.map_none, Option.map_some,
          Option.some.injEq, reduceCtorEq, if_false, Finset.mem_erase] at hsum ht ⊢
        by_cases hk : job.key = k
        · subst hk
          rw [if_pos rfl] at hsum
          simp only [ne_eq, not_true_eq_false, false_and, if_false]
          split at ht <;> omega
        · rw [if_neg hk] at hsum
          simp only [ne_eq, Ne.symm hk, not_false_eq_true, true_and]
          omega
      · rw [show (s.settle size ord i job result capturedAt).state.workerStarted =
          Function.update s.state.workerStarted i none from hstarted, hws]
        exact started_update h i none .waiting rfl j

theorem new_inv : (new : Cache γ).Inv :=
  ⟨fun k => by simp [new, tally, inFlight, CacheState.empty, WorkerAt.share, WorkerAt.job?],
    fun _ => rfl⟩

/-! ## Nothing stays pending for good -/

/-- More than the steps a caller still takes, and those of the job it sends. -/
def callerWeight : Caller → Nat
  | .scheduling _ _ => 9
  | .sending _ => 8
  | .sent => 2
  | .counting => 1
  | .refused _ => 3
  | .removed => 1

/-- The steps a worker still takes with its job. -/
def workerWeight : WorkerAt → Nat
  | .waiting => 0
  | .received _ => 3
  | .announced _ => 2
  | .harvesting _ => 1

def weight (s : Cache γ) : Nat :=
  (s.callers.map callerWeight).sum + 4 * s.queue.length + ∑ i, workerWeight (s.workers i)

/-- Moving one worker on. -/
theorem weight_setWorker (s : Cache γ) {i : Fin contextRefreshWorkers} {w : WorkerAt}
    (h : workerWeight w < workerWeight (s.workers i)) : (s.setWorker i w).weight < s.weight := by
  have hsum := sum_update workerWeight s.workers i w
  simp only [weight, setWorker]
  omega

theorem caller_progress (size : γ → Nat) {s : Cache γ} {c : Caller} {rest : List Caller}
    (hc : s.callers = c :: rest) : ∃ s', Step size s s' ∧ s'.weight < s.weight := by
  have hsum : (s.callers.map callerWeight).sum =
      callerWeight c + (rest.map callerWeight).sum := by
    rw [hc, List.map_cons, List.sum_cons]
  cases c with
  | scheduling job now =>
      refine ⟨_, .admitJob (show s.callers = [] ++ _ from hc), ?_⟩
      obtain ⟨hq, hw, ⟨_, hcallers⟩ | ⟨_, _, hcallers⟩⟩ := s.admit_cases [] rest job now <;>
      · simp only [weight, hq, hw, hcallers, hsum, callerWeight, List.nil_append, List.map_cons,
          List.sum_cons]
        omega
  | sending job =>
      refine ⟨_, .trySend (show s.callers = [] ++ _ from hc), ?_⟩
      unfold Cache.trySend
      split <;>
      · simp only [weight, hsum, callerWeight, List.nil_append, List.map_cons, List.sum_cons,
          List.length_append, List.length_singleton]
        omega
  | sent =>
      refine ⟨_, .countQueued (show s.callers = [] ++ _ from hc), ?_⟩
      simp only [weight, hsum, callerWeight, List.nil_append, List.map_cons, List.sum_cons]
      omega
  | counting =>
      refine ⟨_, .countKey (show s.callers = [] ++ _ from hc), ?_⟩
      simp only [weight, hsum, callerWeight, List.nil_append]
      omega
  | refused key =>
      refine ⟨_, .remove (show s.callers = [] ++ _ from hc), ?_⟩
      simp only [weight, hsum, callerWeight, List.nil_append, List.map_cons, List.sum_cons]
      omega
  | removed =>
      refine ⟨_, .countFull (show s.callers = [] ++ _ from hc), ?_⟩
      simp only [weight, hsum, callerWeight, List.nil_append]
      omega

theorem worker_progress (size : γ → Nat) {s : Cache γ} {i : Fin contextRefreshWorkers}
    (hi : s.workers i ≠ .waiting) : ∃ s', Step size s s' ∧ s'.weight < s.weight := by
  cases hw : s.workers i with
  | waiting => exact absurd hw hi
  | received job =>
      exact ⟨_, .announce 0 hw, weight_setWorker { s with state := s.state.announce i 0 }
        (i := i) (w := .announced job) (by simp [hw, workerWeight])⟩
  | announced job =>
      exact ⟨_, .uncountKey hw, weight_setWorker { s with
        counters := { s.counters with queuedKeys := s.counters.queuedKeys - 1 } }
        (i := i) (w := .harvesting job) (by simp [hw, workerWeight])⟩
  | harvesting job =>
      refine ⟨_, .settle .id none 0 hw, ?_⟩
      obtain ⟨_, hq, hc, hws⟩ := settle_facts size s .id i job none 0
      have hsum : _ + 1 = _ + 0 := hw ▸ sum_update workerWeight s.workers i .waiting
      simp only [weight, hq, hc, hws]
      omega

def firstWorker : Fin contextRefreshWorkers := ⟨0, by decide⟩

/-- As long as anything is left to do, somebody can do it. -/
theorem progress (size : γ → Nat) (s : Cache γ) :
    (s.callers = [] ∧ s.queue = [] ∧ ∀ i, s.workers i = .waiting) ∨
      ∃ s', Step size s s' ∧ s'.weight < s.weight := by
  cases hc : s.callers with
  | cons c rest => exact .inr (caller_progress size hc)
  | nil =>
      by_cases hidle : ∀ i, s.workers i = .waiting
      · cases hq : s.queue with
        | nil => exact .inl ⟨rfl, rfl, hidle⟩
        | cons job rest =>
            refine .inr ⟨_, .recv (i := firstWorker) (hidle firstWorker) hq, ?_⟩
            have hsum : _ + 0 = _ + 3 :=
              hidle firstWorker ▸ sum_update workerWeight s.workers firstWorker (.received job)
            simp only [weight, setWorker, hq, List.length_cons]
            omega
      · obtain ⟨i, hi⟩ := not_forall.mp hidle
        exact .inr (worker_progress size hi)

/-- From every state the callers and workers in it can run to their ends. -/
theorem drain (size : γ → Nat) (s : Cache γ) :
    ∃ s', Relation.ReflTransGen (Step size) s s' ∧
      s'.callers = [] ∧ s'.queue = [] ∧ ∀ i, s'.workers i = .waiting := by
  induction hn : s.weight using Nat.strongRecOn generalizing s with
  | ind n ih =>
      rcases progress size s with hdone | ⟨s', hstep, hlt⟩
      · exact ⟨s, .refl, hdone⟩
      · obtain ⟨s'', hrun, hdone⟩ := ih s'.weight (hn ▸ hlt) s' rfl
        exact ⟨s'', .head hstep hrun, hdone⟩

theorem run_inv {size : γ → Nat} {s s' : Cache γ} (h : s.Inv)
    (hrun : Relation.ReflTransGen (Step size) s s') : s'.Inv := by
  induction hrun with
  | refl => exact h
  | tail _ hs ih => exact Step.inv ih hs

/-! ## The protocol -/

/-- What the refresh protocol promises in a state. -/
structure Protocol (size : γ → Nat) (s : Cache γ) : Prop where
  /-- One job of a key at most is in the channel or at a worker. -/
  unique : ∀ k, s.inFlight k ≤ 1
  /-- Pending is: about to be sent, refused and about to be taken back, in the
  channel, or at a worker. -/
  pending : ∀ k, k ∈ s.state.pending ↔
    (∃ job, .sending job ∈ s.callers ∧ job.key = k) ∨ .refused k ∈ s.callers ∨
      (∃ job ∈ s.queue, job.key = k) ∨
      ∃ i job, (s.workers i).job? = some job ∧ job.key = k
  /-- Only one of these answers for the key. -/
  owner : ∀ k, s.tally k ≤ 1
  started : ∀ i, (s.state.workerStarted i).isSome = true ↔
    ∃ job, s.workers i = .announced job ∨ s.workers i = .harvesting job
  /-- A job that ends at a worker, however it ends, leaves its key. -/
  settled : ∀ i job ord result capturedAt, s.workers i = .harvesting job →
    job.key ∉ (s.settle size ord i job result capturedAt).state.pending
  /-- A job that is refused leaves its key. -/
  refused : ∀ k, .refused k ∈ s.callers → k ∉ (s.state.remove k).pending
  /-- A key that is pending can always come free. -/
  refreshable : ∀ k, ∃ s', Relation.ReflTransGen (Step size) s s' ∧ k ∉ s'.state.pending

theorem inFlight_pos {s : Cache γ} {k : String} :
    0 < s.inFlight k ↔ (∃ job ∈ s.queue, job.key = k) ∨
      ∃ i job, (s.workers i).job? = some job ∧ job.key = k := by
  have hshare : ∀ w : WorkerAt, 0 < w.share k ↔ ∃ job, w.job? = some job ∧ job.key = k := by
    intro w
    unfold WorkerAt.share
    cases w.job? with
    | none => simp
    | some job => by_cases hk : job.key = k <;> simp [hk]
  rw [inFlight, Nat.add_pos_iff_pos_or_pos, List.countP_pos_iff]
  have hsum : 0 < ∑ i, (s.workers i).share k ↔ ∃ i, 0 < (s.workers i).share k := by
    rw [Nat.pos_iff_ne_zero, ne_eq, Finset.sum_eq_zero_iff]
    simp [Nat.pos_iff_ne_zero]
  rw [hsum]
  simp only [hshare, decide_eq_true_eq]

theorem callers_pos {s : Cache γ} {k : String} :
    0 < s.callers.countP (fun c => c.key? = some k) ↔
      (∃ job, .sending job ∈ s.callers ∧ job.key = k) ∨ .refused k ∈ s.callers := by
  rw [List.countP_pos_iff]
  constructor
  · rintro ⟨c, hc, hk⟩
    cases c <;> simp only [Caller.key?, decide_eq_true_eq, reduceCtorEq, Option.some.injEq] at hk
    · exact .inl ⟨_, hc, hk⟩
    · exact .inr (hk ▸ hc)
  · rintro (⟨job, hc, rfl⟩ | hc)
    · exact ⟨_, hc, by simp [Caller.key?]⟩
    · exact ⟨_, hc, by simp [Caller.key?]⟩

theorem Inv.mem_pending {s : Cache γ} (h : s.Inv) (k : String) :
    k ∈ s.state.pending ↔ 0 < s.tally k := by
  rw [h.tally k]
  split <;> simp [*]

theorem Inv.protocol {s : Cache γ} (h : s.Inv) (size : γ → Nat) : Protocol size s where
  unique k := by
    have ht := h.tally k
    rw [Cache.tally] at ht
    split at ht <;> omega
  pending k := by
    rw [h.mem_pending k, Cache.tally, Nat.add_pos_iff_pos_or_pos, callers_pos, inFlight_pos,
      or_assoc]
  owner k := by
    rw [h.tally k]
    split <;> omega
  started i := by
    rw [h.started i]
    cases s.workers i <;> simp [WorkerAt.hasAnnounced]
  settled i job ord result capturedAt _ := by
    have hp := congrArg Prod.fst (settle_facts size s ord i job result capturedAt).1
    rw [show (s.settle size ord i job result capturedAt).state.pending =
      s.state.pending.erase job.key from hp]
    exact Finset.notMem_erase _ _
  refused k _ := Finset.notMem_erase _ _
  refreshable k := by
    obtain ⟨s', hrun, hc, hq, hw⟩ := drain size s
    refine ⟨s', hrun, fun hk => ?_⟩
    have hpos := ((run_inv h hrun).mem_pending k).mp hk
    simp [Cache.tally, inFlight, hc, hq, hw, WorkerAt.share, WorkerAt.job?] at hpos

/-- **The refresh protocol**, in every state that any interleaving of callers and
workers can reach. -/
theorem reachable_protocol {size : γ → Nat} {s : Cache γ}
    (h : Reachable (· = (new : Cache γ)) (Step size) s) : Protocol size s :=
  (h.invariant (fun _ hs => hs ▸ new_inv) fun _ _ hi hs => Step.inv hi hs).protocol size

/-- A refresh of the root directory that is about to be sent. -/
def rootSending : Cache Unit :=
  ((new : Cache Unit).lookup ⟨"/", "/"⟩ 0).admitJob [] [] ⟨"/", "/"⟩ 0

theorem reachable_protocol_rootSending :
    "/" ∈ rootSending.state.pending ∧ Protocol (fun _ => 0) rootSending := by
  refine ⟨by decide, reachable_protocol ?_⟩
  have h₀ : Reachable (· = (new : Cache Unit)) (Step fun _ => 0) new := .of_init rfl
  exact (h₀.tail (.lookup ⟨"/", "/"⟩ 0)).tail
    (.admitJob (show _ = [] ++ _ :: [] from rfl))

/-! ## A refused key -/

/-- The protocol without the refused keys: a key is pending for a job that is
about to be sent, in the channel or at a worker. -/
def PendingExactly (s : Cache γ) : Prop :=
  ∀ k, k ∈ s.state.pending ↔ (∃ job, .sending job ∈ s.callers ∧ job.key = k) ∨
    (∃ job ∈ s.queue, job.key = k) ∨ ∃ i job, (s.workers i).job? = some job ∧ job.key = k

/-- Distinct workspaces. -/
def nthJob (n : Nat) : RefreshJob :=
  ⟨String.ofList (List.replicate n 'a'), String.ofList (List.replicate n 'a')⟩

theorem nthJob_key_inj {m n : Nat} (h : (nthJob m).key = (nthJob n).key) : m = n := by
  have := congrArg (fun s => s.toList.length) h
  simpa [nthJob] using this

/-- `n` callers have sent the jobs of `n` workspaces and no worker has moved. -/
structure Filled (n : Nat) (s : Cache Unit) : Prop where
  callers : s.callers = List.replicate n .sent
  length : s.queue.length = n
  queue : ∀ job ∈ s.queue, ∃ m < n, job.key = (nthJob m).key
  pending : ∀ k ∈ s.state.pending, ∃ m < n, k = (nthJob m).key
  entries : s.state.entries = ∅
  started : s.state.workerStarted = fun _ => none
  workers : s.workers = fun _ => .waiting

/-- One more caller, up to its send. -/
theorem Filled.sending {n : Nat} {s : Cache Unit} (h : Filled n s) :
    ∃ s', Relation.ReflTransGen (Step fun _ => 0) s s' ∧
      s'.callers = .sending (nthJob n) :: List.replicate n .sent ∧ s'.queue = s.queue ∧
      s'.state.pending = insert (nthJob n).key s.state.pending ∧ s'.state.entries = ∅ ∧
      s'.state.workerStarted = (fun _ => none) ∧ s'.workers = fun _ => .waiting := by
  have hread : s.state.read (nthJob n).key 0 =
      (none, { s.state with useCounter := s.state.nextUse }) := by
    unfold CacheState.read
    simp only [h.entries, AList.lookup_empty]
  have hlookup : s.lookup (nthJob n) 0 = { s with
      state := { s.state with useCounter := s.state.nextUse }
      callers := .scheduling (nthJob n) 0 :: s.callers } := by
    unfold Cache.lookup
    rw [hread]
    rfl
  have hstuck : ({ s.state with useCounter := s.state.nextUse } : CacheState Unit).stuckWorkers 0 ≠
      contextRefreshWorkers := by
    simp only [CacheState.stuckWorkers, h.started]
    decide
  have hnew : (nthJob n).key ∉ s.state.pending := by
    intro hk
    obtain ⟨m, hm, hkey⟩ := h.pending _ hk
    exact absurd (nthJob_key_inj hkey) (Nat.ne_of_gt hm)
  have h₁ : Step (fun _ => 0) s (s.lookup (nthJob n) 0) := .lookup _ _
  have h₂ : Step (fun _ => 0) (s.lookup (nthJob n) 0)
      ((s.lookup (nthJob n) 0).admitJob [] s.callers (nthJob n) 0) :=
    .admitJob (by rw [hlookup]; rfl)
  refine ⟨_, (Relation.ReflTransGen.single h₁).tail h₂, ?_⟩
  rw [hlookup]
  unfold Cache.admitJob CacheState.admitJob
  simp only [if_neg hstuck, if_neg hnew, List.nil_append]
  exact ⟨by rw [h.callers], trivial, trivial, h.entries, h.started, h.workers⟩

/-- The channel takes every job up to its capacity. -/
theorem reachable_filled : ∀ n ≤ contextRefreshQueueCapacity,
    ∃ s, Reachable (· = (new : Cache Unit)) (Step fun _ => 0) s ∧ Filled n s
  | 0, _ => ⟨new, .of_init rfl, rfl, rfl, nofun, nofun, rfl, rfl, rfl⟩
  | n + 1, hn => by
      obtain ⟨s, ⟨s₀, h₀, hrun⟩, hs⟩ := reachable_filled n (by omega)
      obtain ⟨s', hrun', hc, hq, hp, he, hst, hw⟩ := hs.sending
      have hstep : Step (fun _ => 0) s' (s'.trySend [] (List.replicate n .sent) (nthJob n)) :=
        .trySend hc
      refine ⟨_, ⟨s₀, h₀, (hrun.trans hrun').tail hstep⟩, ?_⟩
      have hroom : s'.queue.length < contextRefreshQueueCapacity := by
        rw [hq, hs.length]
        exact hn
      unfold Cache.trySend
      rw [if_pos hroom]
      refine ⟨rfl, by simp [hq, hs.length], fun job hj => ?_, fun k hk => ?_, he, hst, hw⟩
      · rcases List.mem_append.mp hj with hj | hj
        · obtain ⟨m, hm, hkey⟩ := hs.queue job (hq ▸ hj)
          exact ⟨m, by omega, hkey⟩
        · exact ⟨n, by omega, by rw [List.mem_singleton.mp hj]⟩
      · rcases Finset.mem_insert.mp (hp ▸ hk) with rfl | hk
        · exact ⟨n, by omega, rfl⟩
        · obtain ⟨m, hm, hkey⟩ := hs.pending k hk
          exact ⟨m, by omega, hkey⟩

/-- With the channel full, a caller whose send has failed still holds its key
pending, and no job of that key is left. -/
theorem reachable_refused :
    ∃ s, Reachable (· = (new : Cache Unit)) (Step fun _ => 0) s ∧ ¬ PendingExactly s := by
  obtain ⟨s, ⟨s₀, h₀, hrun⟩, hs⟩ := reachable_filled contextRefreshQueueCapacity (Nat.le_refl _)
  obtain ⟨s', hrun', hc, hq, hp, _, _, hw⟩ := hs.sending
  have hstep : Step (fun _ => 0) s' (s'.trySend []
      (List.replicate contextRefreshQueueCapacity .sent) (nthJob contextRefreshQueueCapacity)) :=
    .trySend hc
  refine ⟨_, ⟨s₀, h₀, (hrun.trans hrun').tail hstep⟩, fun hexact => ?_⟩
  have hfull : ¬ s'.queue.length < contextRefreshQueueCapacity := by
    rw [hq, hs.length]
    exact Nat.lt_irrefl _
  unfold Cache.trySend at hexact
  rw [if_neg hfull] at hexact
  rcases (hexact (nthJob contextRefreshQueueCapacity).key).mp
    (by rw [hp]; exact Finset.mem_insert_self _ _) with ⟨job, hmem, _⟩ | ⟨job, hmem, hkey⟩ | ⟨i, job, hjob, _⟩
  · simp at hmem
  · obtain ⟨m, hm, hkey'⟩ := hs.queue job (hq ▸ hmem)
    exact absurd (nthJob_key_inj (hkey.symm.trans hkey')) (Nat.ne_of_gt hm)
  · simp [hw, WorkerAt.job?] at hjob

end Cache

end AgentOtelBridge.ContextCache
