import AgentOtelBridge.Flow.RunState

/-!
# Replays

What one event does to a replay is said once: the event is sealed, and it was met before or
it is the next of the chain (`reduceEvent_cases`).  An invariant of runs then needs a run
that starts and a step of each kind (`Replays.invariant`).

An event that is not of delegation leaves the grants, the admissions and the policy as they
are (`reducePayload_delegation`).
-/

namespace AgentOtelBridge.Flow

open Checked

variable {host : Host} {s s' : RunState} {event : RunEvent} {r r' : Replay}

/-! ## One event -/

/-- The record of an event is sealed by its digest. -/
def Sealed (host : Host) (event : RunEvent) : Prop :=
  isDigest event.digest = true ∧ host.eventDigest event = event.digest

/-- What an event that is accepted does to a replay. -/
theorem reduceEvent_cases (accepted : reduceEvent host r event = .ok r') :
    Sealed host event ∧ isBlank event.id = false ∧
      ((r.seen.lookup event.id = some event.digest ∧ r' = r) ∨
        r.seen.lookup event.id = none ∧ r.revision = event.previousDigest ∧
          ∃ s, reduceNext host event r.state = .ok s ∧
            r' = ⟨some (record event s), r.seen ++ [(event.id, event.digest)]⟩) := by
  unfold reduceEvent requireDeliveryRecord requireText at accepted
  simp only [bind_eq_ok, require_eq_ok, exists_const] at accepted
  obtain ⟨⟨-, -, shaped, current⟩, named, -, -, rest⟩ := accepted
  refine ⟨⟨shaped, current⟩, named, ?_⟩
  cases met : r.seen.lookup event.id with
  | some known =>
      simp only [met, bind_eq_ok, require_eq_ok, exists_const, pure_eq_ok] at rest
      obtain ⟨rfl, rfl⟩ := rest
      exact .inl ⟨rfl, rfl⟩
  | none =>
      simp only [met, bind_eq_ok, require_eq_ok, exists_const, pure_eq_ok] at rest
      obtain ⟨parent, s, next, rfl⟩ := rest
      exact .inr ⟨rfl, parent, s, next, rfl⟩

/-- A run starts with the first event, and each other event passes the guard. -/
theorem reduceNext_cases {state : Option RunState} (next : reduceNext host event state = .ok s') :
    (state = none ∧ ∃ p, event.payload = .started p ∧ reduceStarted event p = .ok s') ∨
      ∃ s, state = some s ∧ guardEvent s event = .ok () ∧ reducePayload host s event = .ok s' := by
  cases state with
  | none =>
      simp only [reduceNext] at next
      split at next
      next p started => exact .inl ⟨rfl, p, started, next⟩
      next => cases next
  | some s =>
      simp only [reduceNext, bind_eq_ok] at next
      obtain ⟨⟨⟩, guarded, reduced⟩ := next
      exact .inr ⟨s, rfl, guarded, reduced⟩

/-! ## Runs -/

/-- The replays that events lead to. -/
def Replays (host : Host) (events : List RunEvent) (r : Replay) : Prop := replay host events = .ok r

theorem replays_of_reduceRun {events : List RunEvent} {state : Option RunState}
    (reduced : reduceRun host events = .ok state) : ∃ r, Replays host events r ∧ r.state = state := by
  unfold reduceRun at reduced
  cases replayed : replay host events with
  | error message =>
      rw [replayed] at reduced
      cases reduced
  | ok r =>
      rw [replayed] at reduced
      exact ⟨r, replayed, Except.ok.inj reduced⟩

theorem Replays.append {front back : List RunEvent} (replayed : Replays host (front ++ back) r) :
    ∃ r₁, Replays host front r₁ ∧ back.foldlM (reduceEvent host) r₁ = .ok r :=
  foldlM_append_eq_ok.mp replayed

/-- What holds of a run that starts, and is kept by each event that the run takes, holds in
every run. -/
theorem Replays.invariant {I : RunState → Prop} {events : List RunEvent}
    (starts : ∀ event ∈ events, ∀ p s, event.payload = .started p → reduceStarted event p = .ok s →
      I (record event s))
    (keeps : ∀ s, ∀ event ∈ events, ∀ s', I s → guardEvent s event = .ok () →
      reducePayload host s event = .ok s' → I (record event s'))
    (replayed : Replays host events r) (state : r.state = some s) : I s := by
  have every : ∀ s, r.state = some s → I s := by
    refine foldlM_invariant (I := fun r : Replay => ∀ s, r.state = some s → I s) ?_ ?_ replayed
    · intro r event here r' inv accepted
      obtain ⟨-, -, ⟨-, rfl⟩ | ⟨-, -, s, next, rfl⟩⟩ := reduceEvent_cases accepted
      · exact inv
      · rintro _ ⟨⟩
        rcases reduceNext_cases next with ⟨-, p, started, reduced⟩ | ⟨s₀, state, guarded, reduced⟩
        · exact starts event here p s started reduced
        · exact keeps s₀ event here s (inv s₀ state) guarded reduced
    · rintro s ⟨⟩
  exact every s state

/-- What holds of a run, and is kept by each event that the run takes, holds of what the run
becomes. -/
theorem Replays.stable {I : RunState → Prop} {front back : List RunEvent} {r₁ : Replay}
    {s₁ : RunState} (before : Replays host front r₁) (after : Replays host (front ++ back) r)
    (state₁ : r₁.state = some s₁) (holds : I s₁)
    (keeps : ∀ s, ∀ event ∈ back, ∀ s', I s → guardEvent s event = .ok () →
      reducePayload host s event = .ok s' → I (record event s'))
    (state : r.state = some s) : I s := by
  obtain ⟨r', same, further⟩ := after.append
  obtain rfl := Except.ok.inj (before.symm.trans same)
  have every : ∃ s, r.state = some s ∧ I s := by
    refine foldlM_invariant (I := fun r : Replay => ∃ s, r.state = some s ∧ I s) ?_
      ⟨s₁, state₁, holds⟩ further
    intro r event taken r' ⟨s, here, inv⟩ accepted
    obtain ⟨-, -, ⟨-, rfl⟩ | ⟨-, -, s', next, rfl⟩⟩ := reduceEvent_cases accepted
    · exact ⟨s, here, inv⟩
    · rcases reduceNext_cases next with ⟨none_, -⟩ | ⟨s₀, there, guarded, reduced⟩
      · cases here.symm.trans none_
      · obtain rfl := Option.some.inj (here.symm.trans there)
        exact ⟨_, rfl, keeps s event taken s' inv guarded reduced⟩
  obtain ⟨s', there, inv⟩ := every
  exact Option.some.inj (state.symm.trans there) ▸ inv

/-! ## What is left as it is -/

/-- The part of a run that is of delegation, and its history. -/
structure SameDelegation (s s' : RunState) : Prop where
  grants : s'.grants = s.grants
  admissions : s'.admissions = s.admissions
  policy : s'.delegationPolicy = s.delegationPolicy
  history : s'.history = s.history

namespace SameDelegation

theorem refl (s : RunState) : SameDelegation s s := ⟨rfl, rfl, rfl, rfl⟩

theorem trans {s₁ s₂ s₃ : RunState} (first : SameDelegation s₁ s₂) (second : SameDelegation s₂ s₃) :
    SameDelegation s₁ s₃ :=
  ⟨second.grants.trans first.grants, second.admissions.trans first.admissions,
    second.policy.trans first.policy, second.history.trans first.history⟩

end SameDelegation

theorem reduceContractFrozen_delegation {p : ContractFrozen}
    (reduced : reduceContractFrozen s p = .ok s') : SameDelegation s s' := by
  simp only [reduceContractFrozen, bind_eq_ok] at reduced
  obtain ⟨contract, -, -, -, -, -, -, -, pinned⟩ := reduced
  split at pinned
  · simp only [bind_eq_ok, pure_eq_ok] at pinned
    obtain ⟨-, -, rfl⟩ := pinned
    exact ⟨rfl, rfl, rfl, rfl⟩
  · obtain rfl := pure_eq_ok.mp pinned
    exact ⟨rfl, rfl, rfl, rfl⟩

theorem reduceOraclePinned_delegation {p : OraclePinned}
    (reduced : reduceOraclePinned host s event p = .ok s') : SameDelegation s s' := by
  simp only [reduceOraclePinned, bind_eq_ok] at reduced
  obtain ⟨-, -, pinned⟩ := reduced
  split at pinned
  · simp only [pinPackage, bind_eq_ok, pure_eq_ok] at pinned
    obtain ⟨-, -, -, -, -, -, rfl⟩ := pinned
    exact ⟨rfl, rfl, rfl, rfl⟩
  · obtain rfl := pure_eq_ok.mp pinned
    exact ⟨rfl, rfl, rfl, rfl⟩

theorem advanceOracle_delegation {p : Advanced} (reduced : advanceOracle s p = .ok s') :
    SameDelegation s s' := by
  simp only [advanceOracle] at reduced
  split at reduced
  · simp only [bind_eq_ok, pure_eq_ok] at reduced
    obtain ⟨-, -, rfl⟩ := reduced
    exact ⟨rfl, rfl, rfl, rfl⟩
  · obtain rfl := pure_eq_ok.mp reduced
    exact .refl s

theorem advanceEvidence_delegation {p : Advanced} (reduced : advanceEvidence s p = .ok s') :
    SameDelegation s s' := by
  unfold advanceEvidence at reduced
  split at reduced
  · split at reduced
    · simp only [bind_eq_ok, pure_eq_ok] at reduced
      obtain ⟨-, -, rfl⟩ := reduced
      exact ⟨rfl, rfl, rfl, rfl⟩
    · split at reduced <;> cases reduced
    · cases reduced
  · obtain rfl := pure_eq_ok.mp reduced
    exact .refl s

theorem advancePackage_delegation {p : Advanced} (reduced : advancePackage host s event p = .ok s') :
    SameDelegation s s' := by
  unfold advancePackage at reduced
  split at reduced
  · obtain rfl := pure_eq_ok.mp reduced
    exact .refl s
  · simp only [bind_eq_ok, pure_eq_ok] at reduced
    obtain ⟨-, -, -, -, rfl⟩ := reduced
    exact ⟨rfl, rfl, rfl, rfl⟩

theorem reduceAdvanced_delegation {p : Advanced} (reduced : reduceAdvanced host s event p = .ok s') :
    SameDelegation s s' := by
  simp only [reduceAdvanced, bind_eq_ok, pure_eq_ok] at reduced
  obtain ⟨-, -, -, -, -, -, -, -, -, -, -, -, s₁, oracle, -, -, s₂, evidence, s₃, package, rfl⟩ := reduced
  exact (advanceOracle_delegation oracle).trans ((advanceEvidence_delegation evidence).trans
    ((advancePackage_delegation package).trans ⟨rfl, rfl, rfl, rfl⟩))

theorem reduceResumed_delegation {p : Resumed} (reduced : reduceResumed s p = .ok s') :
    SameDelegation s s' := by
  simp only [reduceResumed, bind_eq_ok] at reduced
  obtain ⟨-, -, -, -, -, -, -, -, resumed⟩ := reduced
  split at resumed <;> obtain rfl := pure_eq_ok.mp resumed <;> exact ⟨rfl, rfl, rfl, rfl⟩

/-- The part of delegation that a step may change is the one of its own events. -/
theorem reducePayload_delegation (reduced : reducePayload host s event = .ok s') :
    SameDelegation s s' ∨ ∃ next, reduceDelegationEvent host s event = some next ∧ next = .ok s' := by
  unfold reducePayload at reduced
  split at reduced
  · exact .inl (reduceContractFrozen_delegation reduced)
  · exact .inl (reduceOraclePinned_delegation reduced)
  · simp only [reduceCustodyRecorded, bind_eq_ok, pure_eq_ok] at reduced
    obtain ⟨-, -, -, -, -, -, rfl⟩ := reduced
    exact .inl ⟨rfl, rfl, rfl, rfl⟩
  · simp only [reduceCandidate, bind_eq_ok, pure_eq_ok] at reduced
    obtain ⟨-, -, rfl⟩ := reduced
    exact .inl ⟨rfl, rfl, rfl, rfl⟩
  · simp only [reduceObservation, bind_eq_ok, pure_eq_ok] at reduced
    obtain ⟨-, -, -, -, rfl⟩ := reduced
    exact .inl ⟨rfl, rfl, rfl, rfl⟩
  · simp only [reduceBudgetAdmission, bind_eq_ok, pure_eq_ok] at reduced
    obtain ⟨-, -, rfl⟩ := reduced
    exact .inl ⟨rfl, rfl, rfl, rfl⟩
  · exact .inl (reduceAdvanced_delegation reduced)
  · simp only [reduceReturned, bind_eq_ok, pure_eq_ok] at reduced
    obtain ⟨-, -, -, -, rfl⟩ := reduced
    exact .inl ⟨rfl, rfl, rfl, rfl⟩
  · simp only [reduceReworkResolved, bind_eq_ok, pure_eq_ok] at reduced
    obtain ⟨-, -, -, -, rfl⟩ := reduced
    exact .inl ⟨rfl, rfl, rfl, rfl⟩
  · simp only [reducePaused, bind_eq_ok, pure_eq_ok] at reduced
    obtain ⟨-, -, rfl⟩ := reduced
    exact .inl ⟨rfl, rfl, rfl, rfl⟩
  · simp only [reducePaused, bind_eq_ok, pure_eq_ok] at reduced
    obtain ⟨-, -, rfl⟩ := reduced
    exact .inl ⟨rfl, rfl, rfl, rfl⟩
  · exact .inl (reduceResumed_delegation reduced)
  · simp only [reduceOperation, bind_eq_ok, pure_eq_ok] at reduced
    obtain ⟨-, -, -, -, -, -, rfl⟩ := reduced
    exact .inl ⟨rfl, rfl, rfl, rfl⟩
  · simp only [reduceCompleted, bind_eq_ok, pure_eq_ok] at reduced
    obtain ⟨-, -, -, -, -, -, -, -, rfl⟩ := reduced
    exact .inl ⟨rfl, rfl, rfl, rfl⟩
  · simp only [reduceCancelled, bind_eq_ok, pure_eq_ok] at reduced
    obtain ⟨-, -, rfl⟩ := reduced
    exact .inl ⟨rfl, rfl, rfl, rfl⟩
  · obtain rfl := pure_eq_ok.mp reduced
    exact .inl (.refl s)
  · cases delegated : reduceDelegationEvent host s event with
    | none =>
        rw [delegated] at reduced
        cases reduced
    | some next =>
        rw [delegated] at reduced
        exact .inr ⟨next, rfl, reduced⟩

end AgentOtelBridge.Flow
