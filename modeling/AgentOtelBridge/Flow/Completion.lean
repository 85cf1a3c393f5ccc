import AgentOtelBridge.Flow.GrantBudget

/-!
# Completion

A run is completed from its last phase, and each phase before was left by an event that was
accepted.  If the run requires assurance it holds evidence of its own candidate then, and the
observation that the evidence names is of the run, passed, and of that candidate
(`completed_earned`).

A run that has ended stays as it is but for the projections of its issue (`terminal_final`).
-/

namespace AgentOtelBridge.Flow

open Checked

variable {host : Host} {events : List RunEvent} {event : RunEvent} {s s' s₁ : RunState}

/-! ## What an end is -/

/-- An operation is settled, or it is a projection of the issue. -/
def RunOperation.Closed (operation : RunOperation) : Prop :=
  operation.state ∈ settledStates ∨ operation.kind = some "issue-projection"

/-- Evidence names an observation of the run that passed, and is of its candidate. -/
def Backed (host : Host) (events : List RunEvent) (evidence : RuntimeEvidence) : Prop :=
  ∃ event ∈ events, ∃ o, event.payload = .observation o ∧ host.observationDigest o = o.digest ∧
    o.digest = evidence.observationDigest ∧ o.outcome = "pass" ∧
      o.candidateDigest = evidence.candidateDigest

/-- A phase was left by an event of the run. -/
def Left (events : List RunEvent) (phase : Nat) : Prop :=
  ∃ event ∈ events, ∃ p, event.payload = .advanced p ∧ p.source = phase ∧ p.target = phase + 1 ∧
    isDigest p.acceptanceDigest = true

/-- The evidence that completes a run. -/
def RunState.Assured (s : RunState) : Prop :=
  s.oracleAssuranceRequired = true →
    ∃ evidence, s.oracleRuntimeEvidence = some evidence ∧ s.Binds evidence ∧
      evidence.manifestDigest = s.oraclePackage.map (·.receipt.manifestDigest)

/-- What a run has is from its events, and an end is one that was earned. -/
structure Earned (host : Host) (events : List RunEvent) (s : RunState) : Prop where
  phase : s.phase ≤ 8
  left : ∀ k < s.phase, Left events k
  observed : ∀ o ∈ s.observations,
    host.observationDigest o = o.digest ∧ ∃ event ∈ events, event.payload = .observation o
  backed : ∀ evidence, s.oracleRuntimeEvidence = some evidence → Backed host events evidence
  ended : s.isTerminal = true → ∀ entry ∈ s.operations, entry.2.Closed
  completed : s.status = .completed → s.phase = 8 ∧ s.openRework = [] ∧ s.Assured

/-! ## Evidence that is current -/

/-- Nothing of the run is stale. -/
def RunState.Fresh (s : RunState) : Prop := s.dropStaleEvidence = s

theorem filter_twice {α : Type} (keep : α → Bool) (value : Option α) :
    (value.filter keep).filter keep = value.filter keep := by
  rw [Option.filter_filter]
  congr
  funext a
  exact Bool.and_self _

/-- The run behind an event has nothing that is stale. -/
theorem record_fresh (event : RunEvent) (s : RunState) : (record event s).Fresh := by
  have evidence := filter_twice (fun e => decide (s.Binds e)) s.oracleRuntimeEvidence
  have package := filter_twice
    (fun p : OraclePackage => decide (some p.receipt.oracleDigest = s.oracleDigest)) s.oraclePackage
  have custody := filter_twice (fun c : OracleCustody => c.receipts.all fun receipt =>
    receipt.generation = s.generation && receipt.revocationEpoch = s.revocationEpoch) s.oracleCustody
  have whole := congr (congr (congrArg (fun e p c => { record event s with
    oracleRuntimeEvidence := e
    oraclePackage := p
    oracleCustody := c }) evidence) package) custody
  exact whole

/-- A run without stale evidence is recorded as it is. -/
theorem record_of_fresh (fresh : s.Fresh) : record event s =
    { s with
      revision := some event.digest
      history := s.history ++ [⟨event.id, event.kind, event.timestamp, event.digest⟩] } := by
  rw [record, fresh]

theorem RunState.Fresh.withStatus (fresh : s.Fresh) (status : Status) :
    ({ s with status := status } : RunState).Fresh := by
  have same : s.dropStaleEvidence = s := fresh
  have whole := congrArg (fun t : RunState => { t with status := status }) same
  exact whole

theorem RunState.Fresh.withOperations (fresh : s.Fresh) (operations : List (String × RunOperation)) :
    ({ s with operations := operations } : RunState).Fresh := by
  have same : s.dropStaleEvidence = s := fresh
  have whole := congrArg (fun t : RunState => { t with operations := operations }) same
  exact whole

/-- What an event leads to, before it is recorded. -/
structure Reaches (host : Host) (events : List RunEvent) (s : RunState) : Prop where
  earned : Earned host events s
  current : s.status = .completed → s.Fresh

namespace Earned

theorem reaches (earned : Earned host events s) (open_ : s.isTerminal = false) :
    Reaches host events s where
  earned := earned
  current := fun completed => by
    rw [RunState.isTerminal, completed] at open_
    cases open_

/-- A run that was not ended, and goes no further. -/
theorem of_open (earned : Earned host events s) (open_ : s'.isTerminal = false)
    (phase : s'.phase ≤ s.phase) (observations : s'.observations ⊆ s.observations)
    (evidence : s'.oracleRuntimeEvidence = s.oracleRuntimeEvidence) : Reaches host events s' := by
  refine reaches ⟨phase.trans earned.phase, fun k before => earned.left k (before.trans_le phase),
    fun o here => earned.observed o (observations here), fun e here => earned.backed e (evidence ▸ here),
    ?_, ?_⟩ open_
  · intro ended
    rw [open_] at ended
    cases ended
  · intro completed
    rw [RunState.isTerminal, completed] at open_
    cases open_

end Earned

theorem Reaches.recorded (reaches : Reaches host events s) : Earned host events (record event s) where
  phase := reaches.earned.phase
  left := reaches.earned.left
  observed := reaches.earned.observed
  backed := fun e here => reaches.earned.backed e (Option.filter_eq_some_iff.mp here).1
  ended := reaches.earned.ended
  completed := fun completed => by
    obtain ⟨phase, rework, assured⟩ := reaches.earned.completed completed
    rw [record_of_fresh (reaches.current completed)]
    exact ⟨phase, rework, assured⟩

/-! ## Steps -/

theorem mem_setOperation {id : String} {operation : RunOperation}
    {operations : List (String × RunOperation)} {entry : String × RunOperation}
    (member : entry ∈ setOperation id operation operations) :
    entry = (id, operation) ∨ entry ∈ operations := by
  induction operations with
  | nil => exact .inl (List.mem_singleton.mp member)
  | cons first operations ih =>
      rw [setOperation] at member
      split at member
      · rcases List.mem_cons.mp member with rfl | old
        · exact .inl rfl
        · exact .inr (List.mem_cons_of_mem _ old)
      · rcases List.mem_cons.mp member with rfl | later
        · exact .inr List.mem_cons_self
        · exact (ih later).imp_right (List.mem_cons_of_mem _)

/-- A run that has ended takes the projections of its issue only. -/
theorem projection_of_terminal (ended : s.isTerminal = true) (guarded : guardEvent s event = .ok ())
    (reduced : reducePayload host s event = .ok s') :
    ∃ id operation, operation.kind = some "issue-projection" ∧
      s' = { s with operations := setOperation id operation s.operations } := by
  simp only [guardEvent, bind_eq_ok, require_eq_ok] at guarded
  obtain ⟨-, -, -, terminal, -⟩ := guarded
  have projection := terminal ended
  rw [RunEvent.isIssueProjection] at projection
  split at projection
  next p payload =>
    rw [reducePayload, payload] at reduced
    simp only [reduceOperation, bind_eq_ok, pure_eq_ok] at reduced
    obtain ⟨-, -, -, -, -, -, rfl⟩ := reduced
    refine ⟨p.id, _, ?_, rfl⟩
    rw [mergeOperation, of_decide_eq_true projection]
    rfl
  next => cases projection

/-- What an event leaves of the progress of a run. -/
structure SameProgress (s s' : RunState) : Prop where
  phase : s'.phase = s.phase
  status : s'.status = s.status
  observations : s'.observations = s.observations

theorem advanceOracle_progress {p : Advanced} (reduced : advanceOracle s p = .ok s') :
    SameProgress s s' ∧ s'.candidateDigest = s.candidateDigest ∧
      s'.oracleRuntimeEvidence = s.oracleRuntimeEvidence := by
  simp only [advanceOracle] at reduced
  split at reduced
  · simp only [bind_eq_ok, pure_eq_ok] at reduced
    obtain ⟨-, -, rfl⟩ := reduced
    exact ⟨⟨rfl, rfl, rfl⟩, rfl, rfl⟩
  · obtain rfl := pure_eq_ok.mp reduced
    exact ⟨⟨rfl, rfl, rfl⟩, rfl, rfl⟩

theorem advancePackage_progress {p : Advanced} (reduced : advancePackage host s event p = .ok s') :
    SameProgress s s' ∧ s'.oracleRuntimeEvidence = s.oracleRuntimeEvidence := by
  unfold advancePackage at reduced
  split at reduced
  · obtain rfl := pure_eq_ok.mp reduced
    exact ⟨⟨rfl, rfl, rfl⟩, rfl⟩
  · simp only [bind_eq_ok, pure_eq_ok] at reduced
    obtain ⟨-, -, -, -, rfl⟩ := reduced
    exact ⟨⟨rfl, rfl, rfl⟩, rfl⟩

/-- Evidence that an advance brings is of an observation that the run has. -/
theorem advanceEvidence_progress {p : Advanced} (reduced : advanceEvidence s p = .ok s') :
    SameProgress s s' ∧ (s'.oracleRuntimeEvidence = s.oracleRuntimeEvidence ∨
      ∃ evidence, s'.oracleRuntimeEvidence = some evidence ∧ ∃ o ∈ s.observations,
        o.digest = evidence.observationDigest ∧ o.outcome = "pass" ∧
          o.candidateDigest = evidence.candidateDigest) := by
  unfold advanceEvidence at reduced
  split at reduced
  · split at reduced
    next proof package _ _ =>
      simp only [bind_eq_ok, require_eq_ok, pure_eq_ok] at reduced
      obtain ⟨-, ⟨binds, -, seen⟩, rfl⟩ := reduced
      refine ⟨⟨rfl, rfl, rfl⟩, .inr ⟨proof, rfl, ?_⟩⟩
      rw [RunState.observed, List.any_eq_true] at seen
      obtain ⟨o, here, named⟩ := seen
      simp only [Bool.and_eq_true, decide_eq_true_eq] at named
      obtain ⟨⟨⟨digest, -⟩, passed⟩, candidate⟩ := named
      exact ⟨o, here, digest, passed, candidate.trans binds.1.symm⟩
    · split at reduced <;> cases reduced
    · cases reduced
  · obtain rfl := pure_eq_ok.mp reduced
    exact ⟨⟨rfl, rfl, rfl⟩, .inl rfl⟩

/-- An advance leaves one phase, and goes to the next. -/
theorem earned_advanced {p : Advanced} (earned : Earned host events s) (here : event ∈ events)
    (payload : event.payload = .advanced p) (reduced : reduceAdvanced host s event p = .ok s') :
    Reaches host events s' := by
  simp only [reduceAdvanced, bind_eq_ok, require_eq_ok, pure_eq_ok, requireDigest] at reduced
  obtain ⟨-, ⟨active, -⟩, -, -, -, ⟨source, target, bounded⟩, -, shaped, -, -, -, -, s₁, oracle, -, -,
    s₂, evidence, s₃, package, rfl⟩ := reduced
  obtain ⟨same₁, -, kept₁⟩ := advanceOracle_progress oracle
  obtain ⟨same₂, kept₂⟩ := advanceEvidence_progress evidence
  obtain ⟨same₃, kept₃⟩ := advancePackage_progress package
  have status : s₃.status = .active := by
    rw [same₃.status, same₂.status, same₁.status, active]
  have observations : s₃.observations = s.observations := by
    rw [same₃.observations, same₂.observations, same₁.observations]
  have open_ : s₃.isTerminal = false := by
    rw [RunState.isTerminal, status]
    rfl
  refine Earned.reaches ⟨?_, ?_, ?_, ?_, ?_, ?_⟩ open_
  · exact target ▸ bounded
  · intro k before
    have before' : k < s.phase + 1 := target ▸ before
    rcases Nat.lt_succ_iff_lt_or_eq.mp before' with lower | rfl
    · exact earned.left k lower
    · exact ⟨event, here, p, payload, source, target, shaped⟩
  · intro o member
    exact earned.observed o (observations ▸ member)
  · intro e held
    have held' : s₂.oracleRuntimeEvidence = some e := kept₃ ▸ held
    rcases kept₂ with same | ⟨e', brought, o, seen, digest, passed, candidate⟩
    · exact earned.backed e (kept₁ ▸ same ▸ held')
    · obtain rfl := Option.some.inj (brought.symm.trans held')
      obtain ⟨current, event', there, observed⟩ := earned.observed o (same₁.observations ▸ seen)
      exact ⟨event', there, o, observed, current, digest, passed, candidate⟩
  · intro ended
    cases open_.symm.trans ended
  · intro completed
    cases status.symm.trans completed

/-- The events of delegation are no progress. -/
theorem delegation_progress (delegated : reduceDelegationEvent host s event = some (.ok s')) :
    SameProgress s s' ∧ s'.oracleRuntimeEvidence = s.oracleRuntimeEvidence := by
  unfold reduceDelegationEvent at delegated
  split at delegated
  · have reduced := Option.some.inj delegated
    simp only [reduceGrantIssued, bind_eq_ok, pure_eq_ok] at reduced
    obtain ⟨-, -, -, -, -, -, -, -, -, -, next, -, rfl⟩ := reduced
    exact ⟨⟨rfl, rfl, rfl⟩, rfl⟩
  · have reduced := Option.some.inj delegated
    simp only [reduceGrantRevoked, bind_eq_ok, pure_eq_ok] at reduced
    obtain ⟨-, -, -, -, -, -, -, -, rfl⟩ := reduced
    exact ⟨⟨rfl, rfl, rfl⟩, rfl⟩
  · have reduced := Option.some.inj delegated
    simp only [reduceOperationAdmitted, bind_eq_ok, pure_eq_ok] at reduced
    obtain ⟨-, -, -, -, -, -, op, -, -, -, -, -, -, -, -, -, -, -, rfl⟩ := reduced
    exact ⟨⟨rfl, rfl, rfl⟩, rfl⟩
  · have reduced := Option.some.inj delegated
    simp only [reduceDelegationSafety, bind_eq_ok, pure_eq_ok] at reduced
    obtain ⟨-, -, -, -, -, -, -, -, -, -, -, -, s₁, outcome, -, -, rfl⟩ := reduced
    have same : SameProgress s s₁ ∧ s₁.oracleRuntimeEvidence = s.oracleRuntimeEvidence := by
      unfold reconcileOutcome at outcome
      split at outcome
      · simp only [reconcile, bind_eq_ok, pure_eq_ok] at outcome
        obtain ⟨-, -, -, -, rfl⟩ := outcome
        exact ⟨⟨rfl, rfl, rfl⟩, rfl⟩
      · obtain rfl := pure_eq_ok.mp outcome
        exact ⟨⟨rfl, rfl, rfl⟩, rfl⟩
    exact ⟨⟨same.1.phase, same.1.status, same.1.observations⟩, same.2⟩
  · cases delegated

/-- The phases that a run returns to are before the one it is in. -/
theorem returnTarget_lt {phase target : Nat} (returned : returnTarget phase = some target) :
    target < phase := by
  unfold returnTarget at returned
  split at returned
  next four =>
    obtain rfl := Option.some.inj returned
    omega
  next =>
    split at returned
    next later =>
      obtain rfl := Option.some.inj returned
      simp only [List.mem_cons, List.not_mem_nil, or_false] at later
      omega
    next => cases returned

theorem all_closed (settled : s.hasUnresolved = false) : ∀ entry ∈ s.operations, entry.2.Closed := by
  intro entry here
  have known := List.any_eq_false.mp settled entry here
  simp only [decide_eq_true_eq, Decidable.not_not] at known
  exact .inl known

/-- A step of a run that has not ended. -/
theorem earned_reducePayload (earned : Earned host events s) (fresh : s.Fresh) (here : event ∈ events)
    (open_ : s.isTerminal = false) (reduced : reducePayload host s event = .ok s') :
    Reaches host events s' := by
  have open' : ∀ {s' : RunState}, s'.status = s.status → s'.isTerminal = false := by
    intro s' same
    rw [RunState.isTerminal, same]
    exact open_
  unfold reducePayload at reduced
  split at reduced
  next =>
    simp only [reduceContractFrozen, bind_eq_ok] at reduced
    obtain ⟨contract, -, -, -, -, -, -, -, pinned⟩ := reduced
    split at pinned
    · simp only [bind_eq_ok, pure_eq_ok] at pinned
      obtain ⟨-, -, rfl⟩ := pinned
      exact earned.of_open (open' rfl) le_rfl (List.nil_subset _) rfl
    · obtain rfl := pure_eq_ok.mp pinned
      exact earned.of_open (open' rfl) le_rfl (List.nil_subset _) rfl
  next =>
    simp only [reduceOraclePinned, bind_eq_ok] at reduced
    obtain ⟨-, -, pinned⟩ := reduced
    split at pinned
    · simp only [pinPackage, bind_eq_ok, pure_eq_ok] at pinned
      obtain ⟨-, -, -, -, -, -, rfl⟩ := pinned
      exact earned.of_open (open' rfl) le_rfl (List.Subset.refl _) rfl
    · obtain rfl := pure_eq_ok.mp pinned
      exact earned.of_open (open' rfl) le_rfl (List.Subset.refl _) rfl
  next =>
    simp only [reduceCustodyRecorded, bind_eq_ok, pure_eq_ok] at reduced
    obtain ⟨-, -, -, -, -, -, rfl⟩ := reduced
    exact earned.of_open (open' rfl) le_rfl (List.Subset.refl _) rfl
  next =>
    simp only [reduceCandidate, bind_eq_ok, pure_eq_ok] at reduced
    obtain ⟨-, -, rfl⟩ := reduced
    exact earned.of_open (open' rfl) le_rfl (List.nil_subset _) rfl
  next o payload =>
    simp only [reduceObservation, requireDeliveryRecord, bind_eq_ok, require_eq_ok, pure_eq_ok] at reduced
    obtain ⟨-, ⟨-, -, -, current⟩, -, -, rfl⟩ := reduced
    refine Earned.reaches ⟨earned.phase, earned.left, ?_, earned.backed, earned.ended,
      earned.completed⟩ (open' rfl)
    intro o' member
    rcases List.mem_append.mp member with old | new
    · exact earned.observed o' old
    · rw [List.mem_singleton.mp new]
      exact ⟨current, event, here, payload⟩
  next =>
    simp only [reduceBudgetAdmission, bind_eq_ok, pure_eq_ok] at reduced
    obtain ⟨-, -, rfl⟩ := reduced
    exact earned.of_open (open' rfl) le_rfl (List.Subset.refl _) rfl
  next p payload => exact earned_advanced earned here payload reduced
  next =>
    simp only [reduceReturned, bind_eq_ok, require_eq_ok, pure_eq_ok] at reduced
    obtain ⟨-, ⟨returned, -⟩, -, -, rfl⟩ := reduced
    exact earned.of_open (open' rfl) (returnTarget_lt returned).le (List.Subset.refl _) rfl
  next =>
    simp only [reduceReworkResolved, bind_eq_ok, pure_eq_ok] at reduced
    obtain ⟨-, -, -, -, rfl⟩ := reduced
    exact earned.of_open (open' rfl) le_rfl (List.Subset.refl _) rfl
  next =>
    simp only [reducePaused, bind_eq_ok, pure_eq_ok] at reduced
    obtain ⟨-, -, rfl⟩ := reduced
    exact earned.of_open rfl le_rfl (List.Subset.refl _) rfl
  next =>
    simp only [reducePaused, bind_eq_ok, pure_eq_ok] at reduced
    obtain ⟨-, -, rfl⟩ := reduced
    exact earned.of_open rfl le_rfl (List.Subset.refl _) rfl
  next =>
    simp only [reduceResumed, bind_eq_ok] at reduced
    obtain ⟨-, -, -, -, -, -, -, -, resumed⟩ := reduced
    split at resumed
    · obtain rfl := pure_eq_ok.mp resumed
      exact earned.of_open rfl le_rfl (List.nil_subset _) rfl
    · obtain rfl := pure_eq_ok.mp resumed
      exact earned.of_open rfl le_rfl (List.Subset.refl _) rfl
  next =>
    simp only [reduceOperation, bind_eq_ok, pure_eq_ok] at reduced
    obtain ⟨-, -, -, -, -, -, rfl⟩ := reduced
    exact earned.of_open (open' rfl) le_rfl (List.Subset.refl _) rfl
  next =>
    simp only [reduceCompleted, bind_eq_ok, require_eq_ok, pure_eq_ok] at reduced
    obtain ⟨-, assured, -, ⟨last, -, rework, settled⟩, -, -, -, -, rfl⟩ := reduced
    refine ⟨⟨earned.phase, earned.left, earned.observed, earned.backed, fun _ => all_closed settled,
      fun _ => ⟨last, List.isEmpty_iff.mp rework, fun required => ?_⟩⟩,
      fun _ => fresh.withStatus .completed⟩
    obtain ⟨evidence, held, binds, manifest⟩ := assured required
    exact ⟨evidence, Option.mem_toList.mp held, binds, manifest⟩
  next =>
    simp only [reduceCancelled, bind_eq_ok, require_eq_ok, pure_eq_ok] at reduced
    obtain ⟨-, settled, rfl⟩ := reduced
    exact ⟨⟨earned.phase, earned.left, earned.observed, earned.backed, fun _ => all_closed settled,
      fun completed => by cases completed⟩, fun completed => by cases completed⟩
  next =>
    obtain rfl := pure_eq_ok.mp reduced
    exact earned.reaches open_
  next =>
    cases delegated : reduceDelegationEvent host s event with
    | none =>
        rw [delegated] at reduced
        cases reduced
    | some next =>
        rw [delegated] at reduced
        obtain rfl := (reduced : next = .ok s')
        obtain ⟨same, evidence⟩ := delegation_progress delegated
        exact earned.of_open (open' same.status) same.phase.le
          (same.observations ▸ List.Subset.refl _) evidence

/-- One step of a run keeps what it has earned. -/
theorem earned_step (earned : Earned host events s) (fresh : s.Fresh) (here : event ∈ events)
    (guarded : guardEvent s event = .ok ()) (reduced : reducePayload host s event = .ok s') :
    Earned host events (record event s') := by
  cases ended : s.isTerminal with
  | true =>
      obtain ⟨id, operation, kind, rfl⟩ := projection_of_terminal ended guarded reduced
      refine Reaches.recorded ⟨⟨earned.phase, earned.left, earned.observed, earned.backed, ?_,
        earned.completed⟩, fun _ => fresh.withOperations _⟩
      intro _ entry member
      rcases mem_setOperation member with rfl | old
      · exact .inr kind
      · exact earned.ended ended entry old
  | false => exact (earned_reducePayload earned fresh here ended reduced).recorded

theorem earned_started {p : Started} (started : reduceStarted event p = .ok s) :
    Earned host events (record event s) := by
  simp only [reduceStarted, bind_eq_ok, pure_eq_ok] at started
  obtain ⟨-, -, -, -, -, -, -, -, -, -, -, -, rfl⟩ := started
  refine Earned.mk (Nat.zero_le _) ?_ ?_ ?_ ?_ ?_
  · intro k before
    cases before
  · intro o none_
    cases none_
  · intro e none_
    cases none_
  · intro ended
    cases ended
  · intro completed
    cases completed

/-- Every run has earned what it has. -/
theorem Replays.earned {r : Replay} (replayed : Replays host events r) (state : r.state = some s) :
    s.Fresh ∧ Earned host events s := by
  refine replayed.invariant (I := fun s => s.Fresh ∧ Earned host events s) ?_ ?_ state
  · intro event _ p s _ started
    exact ⟨record_fresh event s, earned_started started⟩
  · intro s event here s' ⟨fresh, earned⟩ guarded reduced
    exact ⟨record_fresh event s', earned_step earned fresh here guarded reduced⟩

/-! ## Runs -/

/-- **A completed run was earned.**  It has left each of its phases by an event that was accepted,
it has no rework that is open and no operation that is not settled but the projections of its
issue, and if it requires assurance it holds evidence of its own candidate, whose observation
is of the run, passed, and of that candidate. -/
theorem completed_earned (reduced : reduceRun host events = .ok (some s))
    (completed : s.status = .completed) :
    s.phase = 8 ∧ (∀ k < 8, Left events k) ∧ s.openRework = [] ∧
      (∀ entry ∈ s.operations, entry.2.Closed) ∧
        (s.oracleAssuranceRequired = true → ∃ evidence, s.oracleRuntimeEvidence = some evidence ∧
          s.Binds evidence ∧ evidence.manifestDigest = s.oraclePackage.map (·.receipt.manifestDigest) ∧
            Backed host events evidence) := by
  obtain ⟨r, replayed, state⟩ := replays_of_reduceRun reduced
  obtain ⟨-, earned⟩ := replayed.earned state
  obtain ⟨phase, rework, assured⟩ := earned.completed completed
  have ended : s.isTerminal = true := by
    rw [RunState.isTerminal, completed]
    rfl
  refine ⟨phase, phase ▸ earned.left, rework, earned.ended ended, fun required => ?_⟩
  obtain ⟨evidence, held, binds, manifest⟩ := assured required
  exact ⟨evidence, held, binds, manifest, earned.backed evidence held⟩

/-- The run since it has ended. -/
def EndedSince (s₁ s : RunState) : Prop :=
  ∃ operations revision history,
    s = { s₁ with operations := operations, revision := revision, history := history } ∧
      ∀ entry ∈ operations, entry ∈ s₁.operations ∨ entry.2.kind = some "issue-projection"

/-- **An end is final.**  Whatever a run takes after it has completed or was cancelled, only the
projections of its issue are added, and its revision and its history. -/
theorem terminal_final {front back : List RunEvent} {s₁ s₂ : RunState}
    (before : reduceRun host front = .ok (some s₁))
    (after : reduceRun host (front ++ back) = .ok (some s₂)) (ended : s₁.isTerminal = true) :
    EndedSince s₁ s₂ := by
  obtain ⟨r₁, replayed₁, state₁⟩ := replays_of_reduceRun before
  obtain ⟨r₂, replayed₂, state₂⟩ := replays_of_reduceRun after
  have start : EndedSince s₁ s₁ :=
    ⟨s₁.operations, s₁.revision, s₁.history, rfl, fun entry here => .inl here⟩
  have both := replayed₁.stable (I := fun s => s.Fresh ∧ EndedSince s₁ s) replayed₂ state₁
    ⟨(replayed₁.earned state₁).1, start⟩ ?_ state₂
  · exact both.2
  · rintro s event - s' ⟨fresh, operations, revision, history, same, known⟩ guarded reduced
    have ended' : s.isTerminal = true := same ▸ ended
    obtain ⟨id, operation, kind, rfl⟩ := projection_of_terminal ended' guarded reduced
    refine ⟨record_fresh event _, setOperation id operation s.operations, some event.digest,
      s.history ++ [⟨event.id, event.kind, event.timestamp, event.digest⟩], ?_, ?_⟩
    · rw [record_of_fresh (fresh.withOperations _), same]
    · intro entry member
      rcases mem_setOperation member with rfl | old
      · exact .inr kind
      · rw [same] at old
        exact known entry old

/-! ## The sample -/

/-- The digests of the events of a run that completes. -/
def completionDigests : List (String × String) :=
  [("started", "9f2fe621788a0671fb96694188df18b4faece01afd9518344d58145d652f64f6"),
    ("left-0", "7937620a6a97bad335f184a7a1192244db5fac0b5431ade22c55e3484192616a"),
    ("left-1", "e77cc5461a1930e65548d944b4e960f8f38608ca120b5498ed17b7680ad1226c"),
    ("left-2", "0647c0b6a56d093b027c323cbc32ed1288407a4c7e9221cf81297d7779a994a9"),
    ("left-3", "10abd3bc675ed913f4acbee4438f257ceb50d125bcda42b55d98d2779a0b2a09"),
    ("left-4", "1b9fa861d63bac37eacf5bddc0a240cc16af284fc83c2a1b95a0f6b4e4dd4380"),
    ("left-5", "3c4d3869df2751a870358f0086f6831bc12bd57b01aaa00518b835cf40782007"),
    ("left-6", "ccaba58cfebd9c1b94514a13b753710fec29c3117f36b19dd1e44babf7656b9f"),
    ("left-7", "af255c3658c1e0c7cd4c274af5598ea971c0770f6dab6270f086498e6968d8f6"),
    ("completed", "93dafb20e36f2ab54bc399ca20df56dc805e49b7320c010d9975ffc8f39e4913"),
    ("projected", "0392dac297d905c04093a725e0cbbe6365be63e9741eb759dacd40d39d75f82a")]

def completionDigest (id : String) : String := (completionDigests.lookup id).getD ""

/-- The platform, on what this sample asks of it. -/
def completionHost : Host := { sampleHost with eventDigest := fun event => completionDigest event.id }

def completionEvent (id : String) (previous : Option String) (payload : Payload) : RunEvent where
  version := 1
  type := "run-event"
  runId := "run-1"
  id := id
  previousDigest := previous.map completionDigest
  generation := 0
  timestamp := sampleTime
  payload := payload
  digest := completionDigest id

/-- A phase is left without an oracle; the consent is of another protocol. -/
def sampleAdvanced (phase : Nat) : Payload :=
  .advanced ⟨phase, phase + 1, sampleContent, none,
    ⟨"", none, 0, "", none, none, "", "", "", none, none⟩, ⟨"", "", ""⟩, none, none, none, none, none⟩

def completedRun : List RunEvent :=
  [completionEvent "started" none (.started ⟨"bounded", "external-action", "issue-1", "dev", none, none,
      none, none, false⟩),
    completionEvent "left-0" "started" (sampleAdvanced 0),
    completionEvent "left-1" "left-0" (sampleAdvanced 1),
    completionEvent "left-2" "left-1" (sampleAdvanced 2),
    completionEvent "left-3" "left-2" (sampleAdvanced 3),
    completionEvent "left-4" "left-3" (sampleAdvanced 4),
    completionEvent "left-5" "left-4" (sampleAdvanced 5),
    completionEvent "left-6" "left-5" (sampleAdvanced 6),
    completionEvent "left-7" "left-6" (sampleAdvanced 7),
    completionEvent "completed" "left-7" (.completed ⟨sampleContent, none⟩)]

def projectedEvent : RunEvent :=
  completionEvent "projected" "completed" (.operation
    ⟨"issue-1", "issue-projection", "planned", sampleContent, none⟩)

theorem completedRun_reduced : ∃ s s', reduceRun completionHost completedRun = .ok (some s) ∧
    s.status = .completed ∧
      reduceRun completionHost (completedRun ++ [projectedEvent]) = .ok (some s') := by
  have run : gives (replay completionHost completedRun) (fun r => r.state.any fun s =>
      s.status = .completed &&
        gives (reduceEvent completionHost r projectedEvent) fun r' => r'.state.isSome) = true := by
    decide +kernel
  obtain ⟨r, replayed, given⟩ := gives_iff.mp run
  obtain ⟨s, state, given⟩ := (Option.any_eq_true _ _).mp given
  obtain ⟨status, next⟩ := (Bool.and_eq_true _ _).mp given
  obtain ⟨r', further, there⟩ := gives_iff.mp next
  obtain ⟨s', state'⟩ := Option.isSome_iff_exists.mp there
  have whole : replay completionHost (completedRun ++ [projectedEvent]) = .ok r' :=
    foldlM_append_eq_ok.mpr ⟨r, replayed, foldlM_cons_eq_ok.mpr ⟨r', further, rfl⟩⟩
  refine ⟨s, s', ?_, of_decide_eq_true status, ?_⟩
  · rw [reduceRun, replayed, ← state]
    rfl
  · rw [reduceRun, whole, ← state']
    rfl

theorem completed_earned_sample : ∃ s, reduceRun completionHost completedRun = .ok (some s) ∧
    s.phase = 8 ∧ (∀ k < 8, Left completedRun k) ∧ s.openRework = [] ∧
      (∀ entry ∈ s.operations, entry.2.Closed) ∧
        (s.oracleAssuranceRequired = true → ∃ evidence, s.oracleRuntimeEvidence = some evidence ∧
          s.Binds evidence ∧ evidence.manifestDigest = s.oraclePackage.map (·.receipt.manifestDigest) ∧
            Backed completionHost completedRun evidence) := by
  obtain ⟨s, -, reduced, completed, -⟩ := completedRun_reduced
  exact ⟨s, reduced, completed_earned reduced completed⟩

theorem terminal_final_sample : ∃ s₁ s₂, reduceRun completionHost completedRun = .ok (some s₁) ∧
    reduceRun completionHost (completedRun ++ [projectedEvent]) = .ok (some s₂) ∧
      EndedSince s₁ s₂ := by
  obtain ⟨s₁, s₂, before, completed, after⟩ := completedRun_reduced
  have ended : s₁.isTerminal = true := by
    rw [RunState.isTerminal, completed]
    rfl
  exact ⟨s₁, s₂, before, after, terminal_final before after ended⟩

end AgentOtelBridge.Flow
