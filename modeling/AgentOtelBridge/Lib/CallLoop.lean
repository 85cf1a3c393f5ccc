import Mathlib.Data.List.Infix

/-!
# Loops around a system call

A loop that calls the system until it has a result.  In each state it either has the result or
makes a request, and the answer to the request brings it to the next state or ends it.  A run logs
its calls.  The system may answer each call in any way, and the answer may depend on the number of
the call.

`run_rule` is the rule of invariants.  `run_returns` is the rule of termination for a loop that may
repeat a call: a call that does not bring the loop closer to its end is one of the first so many.
-/

namespace AgentOtelBridge

structure CallLoop (State Request Answer Result : Type) where
  /-- The test of the loop, and the request of its call. -/
  next : State → Result ⊕ Request
  /-- What the loop does with an answer. -/
  resume : State → Request → Answer → Result ⊕ State

namespace CallLoop

variable {State Request Answer Result : Type} (loop : CallLoop State Request Answer Result)
  (system : Nat → Request → Answer)

/-- A run of at most so many rounds, with the calls so far. -/
def run : Nat → State → List (Request × Answer) → Option (Result × List (Request × Answer))
  | 0, _, _ => none
  | fuel + 1, state, calls =>
      match loop.next state with
      | .inl result => some (result, calls)
      | .inr request =>
          let answer := system calls.length request
          match loop.resume state request answer with
          | .inl result => some (result, calls ++ [(request, answer)])
          | .inr state => run fuel state (calls ++ [(request, answer)])

variable {loop} {system}

/-- An invariant of the rounds that go on gives what holds at the end. -/
theorem run_rule (Inv : State → List (Request × Answer) → Prop)
    (Post : Result → List (Request × Answer) → Prop)
    (done : ∀ state calls result, Inv state calls → loop.next state = .inl result →
      Post result calls)
    (stop : ∀ state calls request result, Inv state calls → loop.next state = .inr request →
      loop.resume state request (system calls.length request) = .inl result →
      Post result (calls ++ [(request, system calls.length request)]))
    (step : ∀ state calls request state', Inv state calls → loop.next state = .inr request →
      loop.resume state request (system calls.length request) = .inr state' →
      Inv state' (calls ++ [(request, system calls.length request)]))
    {fuel : Nat} {state : State} {calls log : List (Request × Answer)} {result : Result}
    (start : Inv state calls) (ran : loop.run system fuel state calls = some (result, log)) :
    Post result log := by
  induction fuel generalizing state calls with
  | zero => cases ran
  | succ fuel ih =>
      rw [run] at ran
      cases asked : loop.next state with
      | inl found =>
          rw [asked] at ran
          cases ran
          exact done _ _ _ start asked
      | inr request =>
          rw [asked] at ran
          dsimp only at ran
          cases resumed : loop.resume state request (system calls.length request) with
          | inl found =>
              rw [resumed] at ran
              cases ran
              exact stop _ _ _ _ start asked resumed
          | inr state' =>
              rw [resumed] at ran
              exact ih (step state calls request state' start asked resumed) ran

/-- A run that has returned returns the same with more fuel. -/
theorem run_more {fuel more : Nat} {state : State} {calls : List (Request × Answer)}
    {outcome : Result × List (Request × Answer)} (enough : fuel ≤ more)
    (ran : loop.run system fuel state calls = some outcome) :
    loop.run system more state calls = some outcome := by
  induction fuel generalizing more state calls with
  | zero => cases ran
  | succ fuel ih =>
      obtain ⟨more, rfl⟩ : ∃ k, more = k + 1 := ⟨more - 1, by omega⟩
      rw [run] at ran ⊢
      cases asked : loop.next state with
      | inl found => rw [asked] at ran; exact ran
      | inr request =>
          rw [asked] at ran
          dsimp only at ran ⊢
          cases resumed : loop.resume state request (system calls.length request) with
          | inl found => rw [resumed] at ran; exact ran
          | inr state' =>
              rw [resumed] at ran
              exact ih (by omega) ran

/-- A loop returns if each round that goes on has less to do than the one before, or is one of the
first `last` and has as much to do. -/
theorem run_returns (remaining : State → Nat) (last : Nat)
    (closer : ∀ state call request state', loop.next state = .inr request →
      loop.resume state request (system call request) = .inr state' →
      remaining state' < remaining state ∨ remaining state' = remaining state ∧ call < last)
    (state : State) (calls : List (Request × Answer)) :
    ∃ enough outcome, ∀ fuel, enough ≤ fuel → loop.run system fuel state calls = some outcome := by
  suffices returned : ∀ fuel state (calls : List (Request × Answer)),
      remaining state + (last - calls.length) < fuel →
        ∃ outcome, loop.run system fuel state calls = some outcome by
    obtain ⟨outcome, ran⟩ := returned _ state calls (Nat.lt_succ_self _)
    exact ⟨_, outcome, fun fuel enough => run_more enough ran⟩
  intro fuel
  induction fuel with
  | zero => intro state calls short; cases short
  | succ fuel ih =>
      intro state calls short
      rw [run]
      cases asked : loop.next state with
      | inl found => exact ⟨_, rfl⟩
      | inr request =>
          dsimp only
          cases resumed : loop.resume state request (system calls.length request) with
          | inl found => exact ⟨_, rfl⟩
          | inr state' =>
              have nearer := closer state calls.length request state' asked resumed
              apply ih
              rw [List.length_append, List.length_singleton]
              omega

end CallLoop

/-! ## Logs -/

/-- The calls up to some call of an extended log are those of the log, or all of them. -/
theorem snoc_prefix_snoc {α : Type} {before log : List α} {call last : α} :
    before ++ [call] <+: log ++ [last] ↔
      (before = log ∧ call = last) ∨ before ++ [call] <+: log := by
  rw [List.prefix_concat_iff]
  refine or_congr_left ⟨fun same => ?_, fun ⟨front, back⟩ => by rw [front, back]⟩
  obtain ⟨front, back⟩ := List.append_inj' same rfl
  exact ⟨front, List.singleton_inj.mp back⟩

end AgentOtelBridge
