import AgentOtelBridge.Flow.GrantBudget

/-!
# The revision of a run

The revision of a run is the digest of the last event that it has taken, and each event names
the digest of the one before it.  So the revision stands for the whole history: two chains that
lead to one revision have taken the same events in the same order, and lead to the same state
(`revision_commits`), unless two different events have one digest.

An event that comes again is passed over, so chains may differ in what they repeat.
-/

namespace AgentOtelBridge.Flow

open Checked

variable {host : Host} {events events' : List RunEvent} {event : RunEvent}
  {state state' state'' : Option RunState} {r r' : Replay}

/-! ## The events that are taken -/

/-- The events that a replay takes: those that it has met before are passed over. -/
def taken (seen : List (String × String)) : List RunEvent → List RunEvent
  | [] => []
  | event :: events =>
      if (seen.lookup event.id).isSome then taken seen events
      else event :: taken (seen ++ [(event.id, event.digest)]) events

theorem taken_sublist (seen : List (String × String)) (events : List RunEvent) :
    (taken seen events).Sublist events := by
  induction events generalizing seen with
  | nil => exact .slnil
  | cons event events ih =>
      rw [taken]
      split
      · exact (ih seen).cons event
      · exact (ih _).cons_cons event

def revisionOf (state : Option RunState) : Option String := state.bind (·.revision)

/-- A chain of events, from a state of a run to another. -/
inductive Chain (host : Host) : Option RunState → List RunEvent → Option RunState → Prop where
  | nil (state : Option RunState) : Chain host state [] state
  | cons {state state' : Option RunState} {event : RunEvent} {events : List RunEvent} {s : RunState}
      (sealed : Sealed host event) (parent : revisionOf state = event.previousDigest)
      (next : reduceNext host event state = .ok s)
      (rest : Chain host (some (record event s)) events state') :
      Chain host state (event :: events) state'

/-- What a replay takes is a chain. -/
theorem chain_of_foldlM (replayed : events.foldlM (reduceEvent host) r = .ok r') :
    Chain host r.state (taken r.seen events) r'.state := by
  induction events generalizing r with
  | nil =>
      obtain rfl := Except.ok.inj replayed
      exact .nil _
  | cons event events ih =>
      obtain ⟨r₁, accepted, rest⟩ := foldlM_cons_eq_ok.mp replayed
      obtain ⟨sealed, -, ⟨met, rfl⟩ | ⟨fresh, parent, s, next, rfl⟩⟩ := reduceEvent_cases accepted
      · rw [taken, met, Option.isSome_some, if_pos rfl]
        exact ih rest
      · rw [taken, fresh, Option.isSome_none, if_neg Bool.false_ne_true]
        exact .cons sealed parent next (ih rest)

/-- A chain has one end. -/
theorem Chain.functional (chain : Chain host state events state')
    (other : Chain host state events state'') : state' = state'' := by
  induction chain with
  | nil =>
      cases other with
      | nil => rfl
  | cons sealed parent next rest ih =>
      cases other with
      | cons sealed' parent' next' rest' =>
          obtain rfl := Except.ok.inj (next.symm.trans next')
          exact ih rest'

/-- The last event of a chain. -/
theorem Chain.of_concat (chain : Chain host state (events ++ [event]) state') :
    ∃ middle, Chain host state events middle ∧ Sealed host event ∧
      revisionOf middle = event.previousDigest ∧ revisionOf state' = some event.digest := by
  induction events generalizing state with
  | nil =>
      cases chain with
      | cons sealed parent next rest =>
          cases rest with
          | nil => exact ⟨state, .nil state, sealed, parent, rfl⟩
  | cons first events ih =>
      cases chain with
      | cons sealed parent next rest =>
          obtain ⟨middle, before, last⟩ := ih rest
          exact ⟨middle, .cons sealed parent next before, last⟩

/-! ## The commitment -/

/-- Events with one digest are one event. -/
def CollisionFree (host : Host) (events events' : List RunEvent) : Prop :=
  ∀ e ∈ events, ∀ e' ∈ events', host.eventDigest e = host.eventDigest e' →
    { e with digest := e'.digest } = e'

/-- Sealed events with one digest are one event, with the digest. -/
theorem CollisionFree.eq (free : CollisionFree host events events') {e e' : RunEvent}
    (here : e ∈ events) (there : e' ∈ events') (sealed : Sealed host e) (sealed' : Sealed host e')
    (same : e.digest = e'.digest) : e = e' := by
  have one := free e here e' there (sealed.2.trans (same.trans sealed'.2.symm))
  rw [← same] at one
  exact one

/-- Chains that lead to one revision are one chain. -/
theorem Chain.unique (chain : Chain host none events state) (chain' : Chain host none events' state')
    (same : revisionOf state = revisionOf state') (free : CollisionFree host events events') :
    events = events' := by
  induction events using List.reverseRecOn generalizing events' state state' with
  | nil =>
      cases chain
      cases events' using List.reverseRecOn with
      | nil => rfl
      | append_singleton events' last =>
          obtain ⟨-, -, -, -, revision⟩ := chain'.of_concat
          cases same.trans revision
  | append_singleton events last ih =>
      obtain ⟨middle, before, sealed, parent, revision⟩ := chain.of_concat
      cases events' using List.reverseRecOn with
      | nil =>
          cases chain'
          cases revision.symm.trans same
      | append_singleton events' last' =>
          obtain ⟨middle', before', sealed', parent', revision'⟩ := chain'.of_concat
          have digests : last.digest = last'.digest :=
            Option.some.inj (revision.symm.trans (same.trans revision'))
          obtain rfl := free.eq (List.mem_append_right _ (List.mem_singleton_self _))
            (List.mem_append_right _ (List.mem_singleton_self _)) sealed sealed' digests
          -- The events before the last lead to the revision that it names.
          rw [ih before before' (parent.trans parent'.symm) fun e here e' there =>
            free e (List.mem_append_left _ here) e' (List.mem_append_left _ there)]

/-- **The revision of a run is a commitment to its history.**  Chains that reduce to one revision
have taken the same events in the same order, and reduce to the same state. -/
theorem revision_commits {s s' : RunState} (reduced : reduceRun host events = .ok (some s))
    (reduced' : reduceRun host events' = .ok (some s')) (same : s.revision = s'.revision)
    (free : CollisionFree host events events') :
    taken [] events = taken [] events' ∧ s = s' := by
  obtain ⟨r, replayed, state⟩ := replays_of_reduceRun reduced
  obtain ⟨r', replayed', state'⟩ := replays_of_reduceRun reduced'
  have chain := chain_of_foldlM replayed
  have chain' := chain_of_foldlM replayed'
  rw [state] at chain
  rw [state'] at chain'
  have one := chain.unique chain' same fun e here e' there =>
    free e ((taken_sublist _ _).subset here) e' ((taken_sublist _ _).subset there)
  refine ⟨one, ?_⟩
  rw [one] at chain
  exact Option.some.inj (chain.functional chain')

/-! ## The sample -/

/-- The first event of the sample. -/
def sampleStarted : RunEvent :=
  sampleEvent "started" none (.started ⟨"bounded", "external-action", "issue-1", "dev", none, none,
    none, some samplePolicy, false⟩)

theorem sampleRun_repeated : ∃ s s', reduceRun sampleHost sampleRun = .ok (some s) ∧
    reduceRun sampleHost (sampleRun ++ [sampleStarted]) = .ok (some s') ∧
      s.revision = s'.revision := by
  have run : gives (replay sampleHost sampleRun) (fun r => r.state.any fun s =>
      gives (reduceEvent sampleHost r sampleStarted) fun r' => r'.state.any fun s' =>
        s.revision = s'.revision) = true := by
    decide +kernel
  obtain ⟨r, replayed, given⟩ := gives_iff.mp run
  obtain ⟨s, state, again⟩ := (Option.any_eq_true _ _).mp given
  obtain ⟨r', further, there⟩ := gives_iff.mp again
  obtain ⟨s', state', same⟩ := (Option.any_eq_true _ _).mp there
  have whole : replay sampleHost (sampleRun ++ [sampleStarted]) = .ok r' :=
    foldlM_append_eq_ok.mpr ⟨r, replayed, foldlM_cons_eq_ok.mpr ⟨r', further, rfl⟩⟩
  refine ⟨s, s', ?_, ?_, of_decide_eq_true same⟩
  · rw [reduceRun, replayed, ← state]
    rfl
  · rw [reduceRun, whole, ← state']
    rfl

theorem sampleRun_collisionFree :
    CollisionFree sampleHost sampleRun (sampleRun ++ [sampleStarted]) := by
  have listed : ∀ e ∈ sampleRun ++ [sampleStarted], e ∈ sampleRun := by
    intro e here
    rcases List.mem_append.mp here with old | new
    · exact old
    · rw [List.mem_singleton.mp new]
      exact List.mem_cons_self
  have distinct : (sampleRun.map fun e => sampleDigest e.id).Nodup := by decide +kernel
  intro e here e' there same
  obtain rfl := List.inj_on_of_nodup_map distinct here (listed e' there) same
  rfl

theorem revision_commits_sample : ∃ s s', reduceRun sampleHost sampleRun = .ok (some s) ∧
    reduceRun sampleHost (sampleRun ++ [sampleStarted]) = .ok (some s') ∧
      taken [] sampleRun = taken [] (sampleRun ++ [sampleStarted]) ∧ s = s' := by
  obtain ⟨s, s', reduced, reduced', same⟩ := sampleRun_repeated
  exact ⟨s, s', reduced, reduced', revision_commits reduced reduced' same sampleRun_collisionFree⟩

end AgentOtelBridge.Flow
