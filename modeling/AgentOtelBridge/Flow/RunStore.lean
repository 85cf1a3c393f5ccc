import AgentOtelBridge.Flow.Commitment
import Mathlib.Logic.Relation

/-!
# The store of the runs

All runs of a repository are on one branch, a file for each.  A writer reads the head, puts its
event behind those of its run, makes a commit with the head as its parent and asks for the ref
to be moved.  The ref is moved forward only: what has the head among its ancestors.  Writers do
not wait for each other, a request may arrive late or never, and an answer may be lost, so a
writer that is not sure reads back.

However the steps of the writers come, no event is lost: what was acknowledged stays, the events
of each run only grow, each is there once, and they reduce (`append_durable`).
-/

namespace AgentOtelBridge.Flow

open Checked

variable {host : Host}

/-! ## The branch -/

/-- The events of each run, as the tree of a commit has them.  A run without a file has none. -/
abbrev Tree := String → List RunEvent

/-- A commit and those before it, with what tells it from other commits of the same tree. -/
abbrev Commit := List (Nat × Tree)

def treeOf : Commit → Tree
  | [] => fun _ => []
  | (_, tree) :: _ => tree

def eventsOf (commit : Commit) (runId : String) : List RunEvent := treeOf commit runId

/-- A branch that is not there is made with its first commit, and any other is moved forward. -/
def Accepts (head parent commit : Commit) : Prop :=
  if parent = [] then head = [] else head <:+ commit

/-! ## Calls -/

/-- `read`, at a commit: the events of a run and its revision. -/
def readRun (host : Host) (runId : String) (commit : Commit) :
    Except String (List RunEvent × Option String) := do
  let events := eventsOf commit runId
  let state ← reduceRun host events
  require (state.all (fun s => s.runId = runId) = true) "Stored run identity mismatch"
  pure (events, state.bind (·.revision))

/-- `append`, up to its write: without a value the event is there already. -/
def proposeAppend (host : Host) (runId : String) (commit : Commit) (event : RunEvent)
    (expectedRevision : Option String) : Except String (Option (List RunEvent)) := do
  requireDeliveryRecord event.version event.type event.digest (host.eventDigest event) "run-event"
  require (event.runId = runId) "Run identity mismatch"
  let current ← readRun host runId commit
  match current.1.find? fun item => item.id = event.id with
  | some prior => do
      require (prior.digest = event.digest) "Conflicting event"
      pure none
  | none => do
      require (current.2 = expectedRevision) "Source revision conflict"
      let events := current.1 ++ [event]
      let _ ← reduceRun host events
      pure (some events)

/-- Whether a run has an event, by its identity and its digest. -/
def HasEvent (events : List RunEvent) (event : RunEvent) : Prop :=
  ∃ item ∈ events, item.id = event.id ∧ item.digest = event.digest

theorem HasEvent.mono {events events' : List RunEvent} {event : RunEvent}
    (there : HasEvent events event) (grows : events <+: events') : HasEvent events' event := by
  obtain ⟨item, member, same⟩ := there
  exact ⟨item, grows.subset member, same⟩

/-- A request to move the ref. -/
structure Write where
  runId : String
  event : RunEvent
  parent : Commit
  commit : Commit

/-- The write of an event behind those of its run. -/
def Write.of (runId : String) (event : RunEvent) (parent : Commit) (nonce : Nat)
    (events : List RunEvent) : Write :=
  ⟨runId, event, parent, (nonce, Function.update (treeOf parent) runId events) :: parent⟩

/-- The branch, the requests under way, the calls that have sent theirs, and the calls that have
returned without an error. -/
structure Store where
  head : Commit
  inFlight : List Write
  waiting : List Write
  acknowledged : List (String × RunEvent)

namespace Store

inductive Step (host : Host) (st : Store) : Store → Prop where
  /-- A call finds its event there. -/
  | known {runId : String} {event : RunEvent} {expectedRevision : Option String}
      (proposed : proposeAppend host runId st.head event expectedRevision = .ok none) :
      Step host st { st with acknowledged := st.acknowledged ++ [(runId, event)] }
  /-- A call sends its write. -/
  | sent {runId : String} {event : RunEvent} {expectedRevision : Option String}
      {events : List RunEvent} (nonce : Nat)
      (proposed : proposeAppend host runId st.head event expectedRevision = .ok (some events)) :
      Step host st { st with
        inFlight := st.inFlight ++ [.of runId event st.head nonce events]
        waiting := st.waiting ++ [.of runId event st.head nonce events] }
  | accepted {before after : List Write} {write : Write}
      (arrived : st.inFlight = before ++ write :: after)
      (accepts : Accepts st.head write.parent write.commit) :
      Step host st { st with head := write.commit, inFlight := before ++ after }
  /-- A write is refused, or never arrives. -/
  | dropped {before after : List Write} {write : Write}
      (lost : st.inFlight = before ++ write :: after) :
      Step host st { st with inFlight := before ++ after }
  /-- A call reads back, behind an answer or an error. -/
  | confirmed {write : Write} {current : List RunEvent × Option String}
      (waits : write ∈ st.waiting) (again : readRun host write.runId st.head = .ok current)
      (there : HasEvent current.1 write.event) :
      Step host st { st with acknowledged := st.acknowledged ++ [(write.runId, write.event)] }

/-! ## What the store keeps -/

/-- The events of a run as they are stored: of the run, each once, and they reduce. -/
structure Stored (host : Host) (runId : String) (events : List RunEvent) : Prop where
  identity : ∀ event ∈ events, event.runId = runId
  once : (events.map (·.id)).Nodup
  reduces : ∃ state, reduceRun host events = .ok state

theorem stored_nil (host : Host) (runId : String) : Stored host runId [] :=
  ⟨fun _ none_ => absurd none_ List.not_mem_nil, List.nodup_nil, none, rfl⟩

/-- A branch whose runs are stored well, and nothing under way. -/
structure Init (host : Host) (st : Store) : Prop where
  stored : ∀ runId, Stored host runId (eventsOf st.head runId)
  inFlight : st.inFlight = []
  acknowledged : st.acknowledged = []

/-- A write puts one event behind those that its parent has. -/
structure Proposed (host : Host) (head : Commit) (write : Write) : Prop where
  behind : write.parent <:+ head
  commit : ∃ nonce, write =
    .of write.runId write.event write.parent nonce (eventsOf write.parent write.runId ++ [write.event])
  stored : Stored host write.runId (eventsOf write.parent write.runId ++ [write.event])

structure Inv (host : Host) (st : Store) : Prop where
  stored : ∀ runId, Stored host runId (eventsOf st.head runId)
  proposed : ∀ write ∈ st.inFlight, Proposed host st.head write
  acknowledged : ∀ ack ∈ st.acknowledged, HasEvent (eventsOf st.head ack.1) ack.2

variable {st st' : Store}

/-- What a reading has found is what the commit has. -/
theorem readRun_events {runId : String} {commit : Commit} {current : List RunEvent × Option String}
    (found : readRun host runId commit = .ok current) : current.1 = eventsOf commit runId := by
  simp only [readRun, bind_eq_ok, pure_eq_ok] at found
  obtain ⟨-, -, -, -, rfl⟩ := found
  rfl

/-- A call returns at once only if its event is there. -/
theorem hasEvent_of_known {runId : String} {commit : Commit} {event : RunEvent}
    {expectedRevision : Option String}
    (proposed : proposeAppend host runId commit event expectedRevision = .ok none) :
    HasEvent (eventsOf commit runId) event := by
  simp only [proposeAppend, bind_eq_ok] at proposed
  obtain ⟨-, -, -, -, current, found, proposed⟩ := proposed
  rw [← readRun_events found]
  split at proposed
  next prior here =>
    simp only [bind_eq_ok, require_eq_ok] at proposed
    obtain ⟨-, same, -⟩ := proposed
    exact ⟨prior, List.mem_of_find?_eq_some here, by simpa using List.find?_some here, same⟩
  next =>
    simp only [bind_eq_ok, pure_eq_ok] at proposed
    obtain ⟨-, -, -, -, none_⟩ := proposed
    cases none_

/-- What a call proposes is its event behind the others, and it is stored well. -/
theorem stored_of_proposed {runId : String} {commit : Commit} {event : RunEvent}
    {expectedRevision : Option String} {events : List RunEvent}
    (stored : Stored host runId (eventsOf commit runId))
    (proposed : proposeAppend host runId commit event expectedRevision = .ok (some events)) :
    events = eventsOf commit runId ++ [event] ∧ Stored host runId events := by
  simp only [proposeAppend, bind_eq_ok, require_eq_ok] at proposed
  obtain ⟨-, -, -, named, current, found, proposed⟩ := proposed
  rw [readRun_events found] at proposed
  split at proposed
  next =>
    simp only [bind_eq_ok, pure_eq_ok] at proposed
    obtain ⟨-, -, none_⟩ := proposed
    cases none_
  next fresh =>
    simp only [bind_eq_ok, pure_eq_ok] at proposed
    obtain ⟨-, -, state, reduced, same⟩ := proposed
    obtain rfl := Option.some.inj same
    refine ⟨rfl, ?_, ?_, state, reduced⟩
    · intro e here
      rcases List.mem_append.mp here with old | new
      · exact stored.identity e old
      · exact List.mem_singleton.mp new ▸ named
    · rw [List.map_append, List.map_singleton]
      refine List.nodup_append.mpr ⟨stored.once, List.nodup_singleton _, ?_⟩
      intro id old id' new
      rw [List.mem_singleton.mp new]
      rintro rfl
      obtain ⟨e, here, same⟩ := List.mem_map.mp old
      exact absurd same (by simpa using List.find?_eq_none.mp fresh e here)

/-- A ref that is moved is moved from the parent of the commit. -/
theorem head_of_accepts {head : Commit} {write : Write} (proposed : Proposed host head write)
    (accepts : Accepts head write.parent write.commit) :
    head = write.parent ∨ head = write.commit := by
  rw [Accepts] at accepts
  split at accepts
  next first => exact .inl (accepts.trans first.symm)
  next =>
    obtain ⟨nonce, same⟩ := proposed.commit
    rw [same] at accepts
    rcases List.suffix_cons_iff.mp accepts with whole | before
    · rw [same]
      exact .inr whole
    · exact .inl (before.eq_of_length_le proposed.behind.length_le)

/-- The events of a commit over those of its parent. -/
theorem eventsOf_of {runId : String} {event : RunEvent} {parent : Commit} {nonce : Nat}
    {events : List RunEvent} (other : String) :
    eventsOf (Write.of runId event parent nonce events).commit other =
      if other = runId then events else eventsOf parent other := by
  simp only [eventsOf, Write.of, treeOf, Function.update_apply]

/-- What one step leaves of the events of a run. -/
theorem grows_of_step (inv : Inv host st) (step : Step host st st') (runId : String) :
    eventsOf st.head runId <+: eventsOf st'.head runId := by
  cases step with
  | known proposed => exact List.prefix_rfl
  | sent nonce proposed => exact List.prefix_rfl
  | dropped lost => exact List.prefix_rfl
  | confirmed waits again there => exact List.prefix_rfl
  | @accepted before after write arrived accepts =>
      have proposed := inv.proposed write (arrived ▸ List.mem_append_right _ List.mem_cons_self)
      obtain ⟨nonce, same⟩ := proposed.commit
      rcases head_of_accepts proposed accepts with first | again
      · rw [first, same, eventsOf_of]
        split
        next here =>
          rw [here]
          exact List.prefix_append _ _
        next => exact List.prefix_rfl
      · rw [again]

/-- What one step keeps. -/
theorem Inv.step (inv : Inv host st) (step : Step host st st') : Inv host st' := by
  have grows := grows_of_step inv step
  have kept : ∀ ack ∈ st.acknowledged, HasEvent (eventsOf st'.head ack.1) ack.2 := fun ack here =>
    (inv.acknowledged ack here).mono (grows ack.1)
  cases step with
  | @known runId event _ proposed =>
      refine ⟨inv.stored, inv.proposed, ?_⟩
      intro ack here
      rcases List.mem_append.mp here with old | new
      · exact kept ack old
      · rw [List.mem_singleton.mp new]
        exact hasEvent_of_known proposed
  | @sent runId event _ events nonce proposed =>
      refine ⟨inv.stored, ?_, inv.acknowledged⟩
      obtain ⟨rfl, stored⟩ := stored_of_proposed (inv.stored runId) proposed
      intro write here
      rcases List.mem_append.mp here with old | new
      · exact inv.proposed write old
      · rw [List.mem_singleton.mp new]
        exact ⟨List.suffix_rfl, ⟨nonce, rfl⟩, stored⟩
  | @accepted before after write arrived accepts =>
      have proposed := inv.proposed write (arrived ▸ List.mem_append_right _ List.mem_cons_self)
      obtain ⟨nonce, same⟩ := proposed.commit
      have further : st.head <:+ write.commit := by
        rcases head_of_accepts proposed accepts with first | again
        · rw [first, same]
          exact List.suffix_cons _ _
        · rw [again]
      refine ⟨?_, ?_, kept⟩
      · intro runId
        rcases head_of_accepts proposed accepts with first | again
        · rw [same, eventsOf_of]
          split
          next here =>
            rw [here]
            exact proposed.stored
          next =>
            rw [← first]
            exact inv.stored runId
        · exact again ▸ inv.stored runId
      · intro other here
        have under : other ∈ st.inFlight := by
          rw [arrived]
          rcases List.mem_append.mp here with old | later
          · exact List.mem_append_left _ old
          · exact List.mem_append_right _ (List.mem_cons_of_mem _ later)
        obtain ⟨behind, commit, stored⟩ := inv.proposed other under
        exact ⟨behind.trans further, commit, stored⟩
  | @dropped before after write lost =>
      refine ⟨inv.stored, ?_, inv.acknowledged⟩
      intro other here
      refine inv.proposed other ?_
      rw [lost]
      rcases List.mem_append.mp here with old | later
      · exact List.mem_append_left _ old
      · exact List.mem_append_right _ (List.mem_cons_of_mem _ later)
  | @confirmed write current waits again there =>
      refine ⟨inv.stored, inv.proposed, ?_⟩
      intro ack here
      rcases List.mem_append.mp here with old | new
      · exact kept ack old
      · rw [List.mem_singleton.mp new]
        exact readRun_events again ▸ there

theorem Init.inv (init : Init host st) : Inv host st where
  stored := init.stored
  proposed := fun write here => by
    rw [init.inFlight] at here
    cases here
  acknowledged := fun ack here => by
    rw [init.acknowledged] at here
    cases here

/-- What a whole run keeps. -/
theorem Inv.run (inv : Inv host st) (run : Relation.ReflTransGen (Step host) st st') :
    Inv host st' ∧ ∀ runId, eventsOf st.head runId <+: eventsOf st'.head runId := by
  induction run with
  | refl => exact ⟨inv, fun _ => List.prefix_rfl⟩
  | tail _ step ih =>
      obtain ⟨before, grows⟩ := ih
      exact ⟨before.step step, fun runId => (grows runId).trans (grows_of_step before step runId)⟩

/-- **No event that was acknowledged is lost.**  In every run of the writers, the events of each
run grow only at their end, each is there once and they reduce, and what a call has acknowledged
stays. -/
theorem append_durable {st₀ st₁ st₂ : Store} (init : Init host st₀)
    (first : Relation.ReflTransGen (Step host) st₀ st₁)
    (rest : Relation.ReflTransGen (Step host) st₁ st₂) :
    (∀ runId, Stored host runId (eventsOf st₂.head runId)) ∧
      (∀ runId, eventsOf st₁.head runId <+: eventsOf st₂.head runId) ∧
        ∀ ack ∈ st₁.acknowledged, HasEvent (eventsOf st₂.head ack.1) ack.2 := by
  obtain ⟨inv₁, -⟩ := init.inv.run first
  obtain ⟨inv₂, grows⟩ := inv₁.run rest
  exact ⟨inv₂.stored, grows, fun ack here => (inv₁.acknowledged ack here).mono (grows ack.1)⟩

/-! ## The sample -/

def emptyBranch : Store := ⟨[], [], [], []⟩

def sampleWrite : Write := .of "run-1" sampleStarted [] 0 [sampleStarted]

theorem sampleStarted_proposed :
    proposeAppend sampleHost "run-1" [] sampleStarted none = .ok (some [sampleStarted]) := by
  have run : gives (proposeAppend sampleHost "run-1" [] sampleStarted none)
      (fun proposal => proposal.isSome) = true := by
    decide +kernel
  obtain ⟨proposal, proposed, there⟩ := gives_iff.mp run
  obtain ⟨events, rfl⟩ := Option.isSome_iff_exists.mp there
  obtain ⟨rfl, -⟩ := stored_of_proposed (stored_nil sampleHost "run-1") proposed
  exact proposed

/-- A first event is sent, arrives and is read back. -/
theorem sampleRun_acknowledged :
    Relation.ReflTransGen (Step sampleHost) emptyBranch
      ⟨sampleWrite.commit, [], [sampleWrite], [("run-1", sampleStarted)]⟩ := by
  have run : gives (readRun sampleHost "run-1" sampleWrite.commit) (fun _ => true) = true := by
    decide +kernel
  obtain ⟨current, again, -⟩ := gives_iff.mp run
  have there : HasEvent current.1 sampleStarted := by
    rw [readRun_events again]
    exact ⟨sampleStarted, List.mem_singleton_self _, rfl, rfl⟩
  have sent : Step sampleHost emptyBranch ⟨[], [sampleWrite], [sampleWrite], []⟩ :=
    .sent 0 sampleStarted_proposed
  have accepted : Step sampleHost ⟨[], [sampleWrite], [sampleWrite], []⟩
      ⟨sampleWrite.commit, [], [sampleWrite], []⟩ :=
    @Step.accepted _ _ [] [] sampleWrite rfl rfl
  have confirmed : Step sampleHost ⟨sampleWrite.commit, [], [sampleWrite], []⟩
      ⟨sampleWrite.commit, [], [sampleWrite], [("run-1", sampleStarted)]⟩ :=
    @Step.confirmed _ ⟨sampleWrite.commit, [], [sampleWrite], []⟩ sampleWrite current
      (List.mem_singleton_self _) again there
  exact ((Relation.ReflTransGen.single sent).tail accepted).tail confirmed

theorem append_durable_sample :
    (∀ runId, Stored sampleHost runId (eventsOf sampleWrite.commit runId)) ∧
      (∀ runId, eventsOf sampleWrite.commit runId <+: eventsOf sampleWrite.commit runId) ∧
        ∀ ack ∈ [("run-1", sampleStarted)], HasEvent (eventsOf sampleWrite.commit ack.1) ack.2 := by
  have init : Init sampleHost emptyBranch :=
    ⟨fun runId => stored_nil sampleHost runId, rfl, rfl⟩
  exact append_durable init sampleRun_acknowledged .refl

end Store

end AgentOtelBridge.Flow
