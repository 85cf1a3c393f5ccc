import AgentOtelBridge.Daemon.Conservation
import AgentOtelBridge.Daemon.Ingress
import AgentOtelBridge.Ipc.Admission

/-!
# No frame is lost between the server and the transformation

The frames that the readers queue are those that the daemon takes, in their order, and
a frame that is taken is transformed, refused or dropped.  A reader counts a frame it
has queued as admitted in a later step, so at any time the counter is behind by the
readers that are in between (`uncounted`).

A server that ends by a shutdown has joined its readers, and then nothing is behind
when the daemon has finished.  After the error of an accept readers can be.
-/

namespace AgentOtelBridge

open PairBuffer FiniteMap Lease Transition
open Ipc (IngressFrame Sink Channel Conn Pc Move IngressCounter)

/-! ## Frames and the counters of the daemon -/

namespace Pipeline

variable {ρ σ : Type*} {p p' : Pipeline ρ σ}

/-- The frames that the daemon has transformed, refused or dropped. -/
def frameCount (p : Pipeline ρ σ) : Nat := p.stats.transformed + p.stats.invalid + p.frames

theorem addAll_invalid (shares : List (Counter × Nat)) (d : Diagnostics) :
    (d.addAll shares).invalid = d.invalid := by
  induction shares generalizing d with
  | nil => rfl
  | cons share shares ih =>
      rw [Diagnostics.addAll, List.foldl_cons]
      refine (ih _).trans ?_
      cases share.1 <;> rfl

theorem charge_frameCount (p : Pipeline ρ σ) (id : Nat) (shares : List (Counter × Nat)) :
    (p.charge id shares).frameCount = p.frameCount := by
  have gauges := Diagnostics.addAll_gauges shares p.stats
  have invalid := addAll_invalid shares p.stats
  simp only [frameCount, charge, gauges.2.2.2.1, invalid]

theorem dropBatch_frameCount (p : Pipeline ρ σ) (item : QueuedBatch ρ σ) :
    (p.dropBatch item).frameCount = p.frameCount := by
  unfold dropBatch
  cases item.accounted with
  | true => rfl
  | false => exact charge_frameCount { p with stats := _ } item.id _

theorem foldl_dropBatch_frameCount (items : List (QueuedBatch ρ σ)) (p : Pipeline ρ σ) :
    (items.foldl dropBatch p).frameCount = p.frameCount := by
  induction items generalizing p with
  | nil => rfl
  | cons item items ih => exact (ih _).trans (dropBatch_frameCount p item)

theorem enqueue_frameCount [Message ρ] (p : Pipeline ρ Span) (batch : ExportBatch ρ Span) :
    (p.enqueue batch).frameCount = p.frameCount := by
  rcases enqueue_cases p batch with ⟨-, he⟩ | ⟨-, ⟨-, he⟩ | he⟩
  · rw [he]
    exact charge_frameCount { p with offered := _ } _ _
  · rw [he]
    rfl
  · rw [he]
    exact charge_frameCount (p.reserve batch) _ _

theorem finish_frameCount (p : Pipeline ρ σ) (item : QueuedBatch ρ σ)
    (report : Exporter.ExportReport) : (p.finish item report).frameCount = p.frameCount := by
  rw [finish_eq]
  exact charge_frameCount (p.noteAttempts report) _ _

end Pipeline

namespace Daemon

variable {φ ρ : Type*} {d d' : Daemon φ ρ}

theorem transform_frameCount (d : Daemon φ ρ) (quotas : Option Quotas)
    (outcome : Except String Outcome) (ord : IterOrder PairKey) (now : Nat) :
    (d.transform quotas outcome ord now).pipeline.frameCount = d.pipeline.frameCount + 1 := by
  cases outcome with
  | error error =>
      simp only [transform, count, Pipeline.frameCount]
      omega
  | ok outcome =>
      obtain ⟨dropped, he⟩ := d.transform_ok quotas outcome ord now
      rw [he]
      simp only [Pipeline.frameCount]
      omega

theorem transform_inbox (d : Daemon φ ρ) (quotas : Option Quotas)
    (outcome : Except String Outcome) (ord : IterOrder PairKey) (now : Nat) :
    (d.transform quotas outcome ord now).inbox = d.inbox ∧
      (d.transform quotas outcome ord now).phase = d.phase := by
  cases outcome with
  | error error => exact ⟨rfl, rfl⟩
  | ok outcome =>
      obtain ⟨dropped, he⟩ := d.transform_ok quotas outcome ord now
      rw [he]
      exact ⟨rfl, rfl⟩

variable [Message ρ] {produces : φ → Nat → Except String Outcome → Prop} {timeout : Nat}

theorem push_frameCount (d : Daemon φ ρ) (span : Span) (rest : List Span) (now : Nat) :
    (d.push span rest now).pipeline.frameCount = d.pipeline.frameCount ∧
      (d.push span rest now).inbox = d.inbox ∧ (d.push span rest now).phase = d.phase := by
  unfold push
  split <;> exact ⟨rfl, rfl, rfl⟩

/-- What a step does with frames: one arrives, one is taken and counted, or none moves. -/
inductive Handling (d d' : Daemon φ ρ) : Prop where
  | arrives (frame : φ) (hi : d'.inbox = d.inbox ++ [frame]) (hp : d'.phase = d.phase)
      (hc : d'.pipeline.frameCount = d.pipeline.frameCount)
  | taken (frame : φ) (hi : d.inbox = frame :: d'.inbox) (hp : d'.phase = d.phase)
      (hc : d'.pipeline.frameCount = d.pipeline.frameCount + 1)
  | none (hi : d'.inbox = d.inbox) (hc : d'.pipeline.frameCount = d.pipeline.frameCount)

theorem Step.handling (h : Step produces timeout d d') : Handling d d' := by
  cases h with
  | arrive frame _ _ => exact .arrives frame rfl rfl rfl
  | @frame frame rest outcome _ _ _ hi quotas _ ord now =>
      obtain ⟨hinbox, hphase⟩ := transform_inbox
        { d with inbox := rest, processed := d.processed + 1 } (some quotas) outcome ord now
      exact .taken frame (hinbox.symm ▸ hi) hphase (transform_frameCount _ _ _ _ _)
  | @drain frame rest outcome _ _ hi _ ord now =>
      obtain ⟨hinbox, hphase⟩ := transform_inbox { d with inbox := rest } none outcome ord now
      exact .taken frame (hinbox.symm ▸ hi) hphase (transform_frameCount _ _ _ _ _)
  | dropFrame _ _ hi =>
      refine .taken _ hi rfl ?_
      simp only [Pipeline.frameCount, Diagnostics.add]
      omega
  | push _ _ now =>
      obtain ⟨hcount, hinbox, -⟩ := d.push_frameCount _ _ now
      exact .none hinbox hcount
  | enqueue => exact .none rfl (Pipeline.enqueue_frameCount _ _)
  | finish => exact .none rfl (Pipeline.finish_frameCount _ _ _)
  | abort => exact .none rfl (Pipeline.foldl_dropBatch_frameCount _ d.pipeline)
  | pause | tick | stop | close | flush | dropQueue | recv | workerEnds | finished =>
      exact .none rfl rfl

/-- The drain is over. -/
def Phase.Drained (phase : Phase) : Prop :=
  phase = .flushing ∨ phase = .waiting ∨ phase = .finished

/-- A drain ends when there is no frame left. -/
theorem Step.drained (h : Step produces timeout d d') (hp : Phase.Drained d'.phase) :
    Phase.Drained d.phase ∨ d.phase = .draining ∧ d.inbox = [] := by
  cases h with
  | @frame frame rest outcome _ _ _ _ quotas _ ord now =>
      have hphase := (transform_inbox { d with inbox := rest, processed := d.processed + 1 }
        (some quotas) outcome ord now).2
      exact .inl (hphase ▸ hp)
  | @drain frame rest outcome _ _ _ _ ord now =>
      have hphase := (transform_inbox { d with inbox := rest } none outcome ord now).2
      exact .inl (hphase ▸ hp)
  | push _ _ now => exact .inl ((d.push_frameCount _ _ now).2.2 ▸ hp)
  | flush hdraining _ hi => exact .inr ⟨hdraining, hi⟩
  | stop | close => simp [Phase.Drained] at hp
  | dropQueue hf => exact .inl (.inl hf)
  | finished hw => exact .inl (.inr (.inl hw))
  | _ => exact .inl hp

end Daemon

/-! ## Frames and the counters of the server -/

namespace Ipc

/-- A reader that has queued a frame and not counted it. -/
def Pc.pending : Pc → Nat
  | .counting .admitted | .tallying .admitted _ | .dropping _ _ (some .admitted) => 1
  | _ => 0

@[simp] theorem Pc.pending_afterHeader (limits : IngressLimits) (header : Header) :
    (Pc.afterHeader limits header).pending = 0 := by
  unfold Pc.afterHeader
  split
  · rfl
  · split <;> rfl

theorem Pc.pending_dropping (size : Nat) (phase : Lease.Phase) (outcome : Option IngressCounter) :
    (Pc.dropping size phase outcome).pending = (Pc.afterDrop outcome).pending := by
  rcases outcome with _ | outcome
  · rfl
  · cases outcome <;> rfl

theorem Pc.pending_waits {pc : Pc} (hw : pc.waits) : pc.pending = 0 := by
  cases pc <;> first | rfl | exact hw.elim

theorem Pc.pending_leaveRead {pc : Pc} (hw : pc.waits) {outcome : Option IngressCounter}
    (ho : outcome ≠ some .admitted) : (pc.leaveRead outcome).pending = 0 := by
  have hafter : (Pc.afterDrop outcome).pending = 0 := by
    rcases outcome with _ | outcome
    · rfl
    · cases outcome <;> first | rfl | exact absurd rfl ho
  cases pc with
  | header => exact hafter
  | payload _ size => exact (pending_dropping size .live outcome).trans hafter
  | _ => exact hw.elim

/-- A send queues its frame, and the reader is about to count it, or the queue of the
events is as it was. -/
theorem dispatch_events {sink : Sink} {ch : Channel IngressFrame} (hq : sink.events? = some ch)
    (msgType : MsgType) (payload : List UInt8) (now : Nat) :
    ((dispatch sink msgType payload now).1.events? = some ch ∧
        (dispatch sink msgType payload now).2.1.pending = 0) ∨
      ∃ frame ch', ch.trySend frame = some ch' ∧
        (dispatch sink msgType payload now).1.events? = some ch' ∧
        (dispatch sink msgType payload now).2.1.pending = 1 := by
  cases sink with
  | legacy tx => cases hq
  | bounded events control =>
      obtain rfl : events = ch := Option.some.inj hq
      by_cases hm : msgType = .hookPayload ∨ msgType = .hookPayloadWithContext
      · cases hs : events.trySend ⟨msgType, payload, now⟩ with
        | some events' => exact .inr ⟨_, events', hs, by simp [dispatch, hm, hs, Sink.events?, Pc.pending]⟩
        | none => exact .inl (by simp [dispatch, hm, hs, Sink.events?, Pc.pending])
      · cases hs : control.trySend msgType with
        | some control' => exact .inl (by simp [dispatch, hm, hs, Sink.events?, Pc.pending])
        | none => exact .inl (by simp [dispatch, hm, hs, Sink.events?, Pc.pending])

/-- A move queues one frame that is then pending, or it counts what was pending. -/
theorem Move.events {g g' : ServerState} {c c' : Conn} (h : Move g c g' c')
    {ch : Channel IngressFrame} (hq : g.sink.events? = some ch) :
    (g'.sink.events? = some ch ∧
        g'.stats.admitted + c'.pc.pending = g.stats.admitted + c.pc.pending) ∨
      ∃ frame ch', ch.trySend frame = some ch' ∧ g'.sink.events? = some ch' ∧
        g'.stats.admitted + c'.pc.pending = g.stats.admitted + c.pc.pending + 1 := by
  cases h with
  | @send k e msgType payload now =>
      rcases dispatch_events hq msgType payload now with ⟨he, hp⟩ | ⟨frame, ch', hs, he, hp⟩
      · exact .inl ⟨he, by rw [hp]; rfl⟩
      · exact .inr ⟨frame, ch', hs, he, by rw [hp]; rfl⟩
  | readHeader header =>
      refine .inl ⟨hq, ?_⟩
      rw [Pc.pending_afterHeader]
      rfl
  | @tally k e outcome size => exact .inl ⟨hq, by cases outcome <;> rfl⟩
  | @count k e outcome => exact .inl ⟨hq, by cases outcome <;> rfl⟩
  | uncount => exact .inl ⟨hq, by rw [Pc.pending_dropping, Pc.pending_dropping]; rfl⟩
  | release => exact .inl ⟨hq, by rw [Pc.pending_dropping]⟩
  | readError hw | deadline hw | cancel hw _ =>
      exact .inl ⟨hq, by simp [Pc.pending_waits hw, Pc.pending_leaveRead hw]⟩
  | acquire | refuse | countRefused | enter | reserve | exhausted | lease | readPayload | announce
  | leave | part => exact .inl ⟨hq, rfl⟩

namespace Server

/-- The frames that were queued and are not counted as admitted yet. -/
def uncounted (s : Server) : Nat := (s.conns.map fun c => c.pc.pending).sum

/-- The frames that were queued, by the counter and the readers. -/
def queued (s : Server) : Nat := s.state.stats.admitted + s.uncounted

theorem uncounted_ended {s : Server} (h : ∀ c ∈ s.conns, c.pc = .ended) : s.uncounted = 0 := by
  refine List.sum_eq_zero fun n hn => ?_
  obtain ⟨c, hc, rfl⟩ := List.mem_map.mp hn
  rw [h c hc]
  rfl

/-- What a step does with the queue of the events: a frame is queued, one is received,
or none moves; and the receiver may close it. -/
inductive Queuing (s s' : Server) (ch : Channel IngressFrame) : Prop where
  | queues (frame : IngressFrame) (ch' : Channel IngressFrame) (hs : ch.trySend frame = some ch')
      (he : s'.state.sink.events? = some ch') (hc : s'.queued = s.queued + 1)
  | received (frame : IngressFrame) (rest : List IngressFrame) (hi : ch.items = frame :: rest)
      (he : s'.state.sink.events? = some { ch with items := rest }) (hc : s'.queued = s.queued)
  | none (isOpen : Bool) (ho : isOpen = true → ch.isOpen = true)
      (he : s'.state.sink.events? = some { ch with isOpen := isOpen }) (hc : s'.queued = s.queued)

theorem Step.queuing {s s' : Server} (h : Step s s') {ch : Channel IngressFrame}
    (hq : s.state.sink.events? = some ch) : Queuing s s' ch := by
  cases h with
  | accept hs => exact .none ch.isOpen id hq (by simp [queued, uncounted, Pc.pending])
  | @move before after c c' g h hm =>
      rcases hm.events hq with ⟨he, hc⟩ | ⟨frame, ch', hs, he, hc⟩
      · refine .none ch.isOpen id he ?_
        simp only [queued, uncounted, h, List.map_append, List.map_cons, List.sum_append,
          List.sum_cons]
        omega
      · refine .queues frame ch' hs he ?_
        simp only [queued, uncounted, h, List.map_append, List.map_cons, List.sum_append,
          List.sum_cons]
        omega
  | cancelToken | stop | acceptError => exact .none ch.isOpen id hq rfl
  | abort h hs hw =>
      refine .none ch.isOpen id hq ?_
      simp [queued, uncounted, h, Pc.pending_waits hw, Pc.pending_leaveRead hw]
  | @consume sink tickets h =>
      obtain ⟨⟨sink₀, shutdown, limits, bytes, connections, stats⟩, conns, frames, serving⟩ := s
      cases h with
      | recvLegacy | closeLegacy => cases hq
      | recvControl | closeControl => exact .none ch.isOpen id hq rfl
      | recvEvent =>
          cases hq
          exact .received _ _ rfl rfl rfl
      | closeEvents =>
          cases hq
          exact .none false nofun rfl rfl
  | dropFrame | dropPermit => exact .none ch.isOpen id hq rfl

/-- A reader that has ended makes no move. -/
theorem not_move_ended {g g' : ServerState} {c c' : Conn} (h : Move g c g' c') :
    c.pc ≠ .ended := by
  cases h with
  | readError hw | deadline hw | cancel hw _ =>
      rintro rfl
      exact hw.elim
  | _ => exact Pc.noConfusion

/-- A server that has ended stays so. -/
theorem Step.ended {s s' : Server} (h : Step s s') (he : s.Ended) : s'.Ended := by
  have hstopped : s.serving ≠ .running := by
    rcases he with hf | ⟨hs, -⟩
    · simp [hf]
    · simp [hs]
  cases h with
  | accept hs | stop hs _ | acceptError hs => exact absurd hs hstopped
  | @move before after c c' g h hm =>
      rcases he with hf | ⟨-, hall⟩
      · exact .inl hf
      · exact absurd (hall c (by simp [h])) (not_move_ended hm)
  | @abort before after pc k e h hs hw =>
      rcases he with hf | ⟨-, hall⟩
      · exact .inl hf
      · obtain rfl : pc = .ended := hall ⟨pc, k, e⟩ (by simp [h])
        exact hw.elim
  | cancelToken | consume | dropFrame | dropPermit => exact he

/-- Without a receive no lease is handed to a consumer. -/
theorem Step.frames_nil {s s' : Server} (h : Step s s')
    (hq : s'.state.sink.events? = s.state.sink.events?) (hf : s.frames = []) : s'.frames = [] := by
  cases h with
  | consume h =>
      obtain ⟨⟨sink₀, shutdown, limits, bytes, connections, stats⟩, conns, frames, serving⟩ := s
      cases h with
      | recvEvent => simp [Sink.events?] at hq
      | _ => exact hf
  | dropFrame h | dropPermit h => simp [hf] at h
  | _ => exact hf

end Server

theorem Sink.frames_events {sink : Sink} {ch : Channel IngressFrame}
    (h : sink.events? = some ch) : sink.frames = ch.items := by
  cases sink with
  | legacy tx => cases h
  | bounded events control =>
      obtain rfl : events = ch := Option.some.inj h
      rfl

theorem Channel.trySend_eq {α : Type*} {ch ch' : Channel α} {item : α}
    (h : ch.trySend item = some ch') :
    ch.isOpen = true ∧ ch.items.length < ch.capacity ∧
      ch' = { ch with items := ch.items ++ [item] } := by
  unfold Channel.trySend at h
  split at h
  next hroom => exact ⟨hroom.1, hroom.2, (Option.some.inj h).symm⟩
  · cases h

/-- A consumer that gets a lease has received a frame. -/
theorem Sink.Consume.receives {sink sink' : Sink} {ticket : Ticket}
    (h : sink.Consume sink' [ticket]) {ch : Channel IngressFrame}
    (hq : sink.events? = some ch) :
    ∃ frame rest, ch.items = frame :: rest ∧ sink'.events? = some { ch with items := rest } := by
  cases h
  cases hq
  exact ⟨_, _, rfl, rfl⟩

theorem Sink.closeEvents_consume {sink : Sink} {ch : Channel IngressFrame}
    (hq : sink.events? = some ch) :
    sink.Consume sink.closeEvents [] ∧
      sink.closeEvents.events? = some { ch with isOpen := false } := by
  cases sink with
  | legacy tx => cases hq
  | bounded events control =>
      obtain rfl : events = ch := Option.some.inj hq
      exact ⟨.closeEvents, rfl⟩

end Ipc

/-! ## The two together -/

namespace Ingress

variable {ρ : Type*} [Message ρ] {resource : ρ} {batchSize : Nat} {schemaUrl : String}
  {produces : IngressFrame → Nat → Except String Outcome → Prop} {timeout : Nat}
  {j j' : Ingress ρ}

/-- The two parts are runs of their own, with one queue between them. -/
structure Inv (resource : ρ) (batchSize : Nat) (schemaUrl : String)
    (produces : IngressFrame → Nat → Except String Outcome → Prop) (timeout : Nat)
    (j : Ingress ρ) : Prop where
  server : Reachable Ipc.Server.Init Ipc.Server.Step j.server
  daemon : Reachable (· = Daemon.start resource batchSize schemaUrl)
    (Daemon.Step produces timeout) j.daemon
  queue : ∃ isOpen, j.server.state.sink.events? =
      some ⟨j.daemon.inbox, ingressQueueItems, isOpen⟩ ∧
    (isOpen = true → j.daemon.phase = .running ∨ j.daemon.phase = .stopping)
  sent : j.sent = j.taken ++ j.daemon.inbox
  taken : j.taken.length = j.daemon.pipeline.frameCount
  queued : j.sent.length = j.server.queued
  ended : j.daemon.phase ≠ .running → j.daemon.phase ≠ .stopping → j.server.Ended
  drained : Daemon.Phase.Drained j.daemon.phase → j.daemon.inbox = [] ∧ j.server.frames = []

theorem init_inv (h : Init resource batchSize schemaUrl j) :
    Inv resource batchSize schemaUrl produces timeout j := by
  obtain ⟨shutdown, limits, state, hnew, rfl⟩ := h
  have hstate := Ipc.ServerState.new_ok hnew
  refine {
    server := .of_init ⟨_, shutdown, limits, state, hnew, rfl, rfl⟩
    daemon := .of_init rfl
    queue := ⟨true, by rw [hstate]; rfl, fun _ => .inl rfl⟩
    sent := rfl
    taken := rfl
    queued := by rw [hstate]; rfl
    ended := fun hp => absurd rfl hp
    drained := fun hp => ?_ }
  simp [Daemon.start, Daemon.Phase.Drained] at hp

theorem Inv.serve (h : Inv resource batchSize schemaUrl produces timeout j) {server : Ipc.Server}
    (hs : j.server.Step server) (hq : server.state.sink.events? = j.server.state.sink.events?) :
    Inv resource batchSize schemaUrl produces timeout { j with server := server } := by
  obtain ⟨isOpen, he, hopen⟩ := h.queue
  have hqueued : server.queued = j.server.queued := by
    rcases hs.queuing he with ⟨frame, ch', hsend, he', -⟩ | ⟨frame, rest, hi, he', -⟩ | ⟨-, -, -, hc⟩
    · rw [hq, he] at he'
      obtain ⟨-, -, rfl⟩ := Ipc.Channel.trySend_eq hsend
      simp at he'
    · rw [hq, he] at he'
      simp only [Option.some.injEq, Channel.mk.injEq] at he'
      simp [he'.1] at hi
    · exact hc
  exact {
    server := h.server.tail hs
    daemon := h.daemon
    queue := ⟨isOpen, hq.trans he, hopen⟩
    sent := h.sent
    taken := h.taken
    queued := h.queued.trans hqueued.symm
    ended := fun hp hp' => hs.ended (h.ended hp hp')
    drained := fun hp => ⟨(h.drained hp).1, hs.frames_nil hq (h.drained hp).2⟩ }

/-- A frame that is queued has arrived. -/
theorem Inv.send (h : Inv resource batchSize schemaUrl produces timeout j) {server : Ipc.Server}
    {frame : IngressFrame} (hs : j.server.Step server)
    (hq : server.state.sink.frames = j.server.state.sink.frames ++ [frame]) :
    Inv resource batchSize schemaUrl produces timeout { j with
      server := server
      daemon := { j.daemon with inbox := j.daemon.inbox ++ [frame] }
      sent := j.sent ++ [frame] } := by
  obtain ⟨isOpen, he, hopen⟩ := h.queue
  rw [Ipc.Sink.frames_events he] at hq
  rcases hs.queuing he with
    ⟨frame', ch', hsend, he', hc⟩ | ⟨frame', rest, hi, he', -⟩ | ⟨isOpen', -, he', -⟩
  · obtain ⟨hisOpen, hroom, rfl⟩ := Ipc.Channel.trySend_eq hsend
    rw [Ipc.Sink.frames_events he'] at hq
    obtain rfl : frame' = frame := by simpa using hq
    have hphase := hopen hisOpen
    exact {
      server := h.server.tail hs
      daemon := h.daemon.tail (.arrive frame' hphase hroom)
      queue := ⟨isOpen, he', hopen⟩
      sent := by simp only [h.sent, List.append_assoc]
      taken := h.taken
      queued := by rw [hc, ← h.queued, List.length_append, List.length_singleton]
      ended := fun hp hp' => (hphase.elim hp hp').elim
      drained := fun hp => by
        rcases hphase with hphase | hphase <;> simp [hphase, Daemon.Phase.Drained] at hp }
  · rw [Ipc.Sink.frames_events he'] at hq
    have hlength := congrArg List.length (hi.trans (congrArg _ hq))
    simp only [List.length_cons, List.length_append, List.length_nil] at hlength
    omega
  · rw [Ipc.Sink.frames_events he'] at hq
    simp at hq

theorem Inv.take (h : Inv resource batchSize schemaUrl produces timeout j) {sink : Sink}
    {daemon : Daemon IngressFrame ρ} {frame : IngressFrame} {rest : List IngressFrame}
    (hs : j.server.state.sink.Consume sink [⟨frame.payload.length, .live⟩])
    (hi : j.daemon.inbox = frame :: rest) (hd : Daemon.Step produces timeout j.daemon daemon)
    (hi' : daemon.inbox = rest) (hf : j.server.frames = []) :
    Inv resource batchSize schemaUrl produces timeout { j with
      server := { j.server with
        state := { j.server.state with sink := sink }
        frames := [⟨frame.payload.length, .live⟩] }
      daemon := daemon
      taken := j.taken ++ [frame] } := by
  obtain ⟨isOpen, he, hopen⟩ := h.queue
  obtain ⟨frame', rest', hitems, he'⟩ := hs.receives he
  have hsame : rest' = rest := by
    rw [hi] at hitems
    exact (List.cons.inj hitems).2.symm
  have hstep := Ipc.Server.Step.consume hs
  rw [hf, List.append_nil] at hstep
  subst hi' hsame
  rcases hd.handling with ⟨frame'', harr, -, -⟩ | ⟨frame'', -, hp, hc⟩ | ⟨hsame, -⟩
  · have hlength := congrArg List.length harr
    rw [hi] at hlength
    simp only [List.length_cons, List.length_append, List.length_nil] at hlength
    omega
  · exact {
      server := h.server.tail hstep
      daemon := h.daemon.tail hd
      queue := ⟨isOpen, he', fun ho => hp ▸ hopen ho⟩
      sent := by simp [h.sent, hi]
      taken := by rw [List.length_append, h.taken, hc, List.length_singleton]
      queued := h.queued
      ended := fun hr hs => h.ended (hp ▸ hr) (hp ▸ hs)
      drained := fun hdr => by
        have hnil := (h.drained (hp ▸ hdr)).1
        simp [hi] at hnil }
  · simp [hi] at hsame

theorem Inv.work (h : Inv resource batchSize schemaUrl produces timeout j)
    {daemon : Daemon IngressFrame ρ} (hd : Daemon.Step produces timeout j.daemon daemon)
    (hi : daemon.inbox = j.daemon.inbox) (hp : daemon.phase = j.daemon.phase) :
    Inv resource batchSize schemaUrl produces timeout { j with daemon := daemon } := by
  have hcount : daemon.pipeline.frameCount = j.daemon.pipeline.frameCount := by
    rcases hd.handling with ⟨frame, harr, -, -⟩ | ⟨frame, htaken, -, -⟩ | ⟨-, hc⟩
    · simp [hi] at harr
    · simp [hi] at htaken
    · exact hc
  exact {
    server := h.server
    daemon := h.daemon.tail hd
    queue := by rw [hi, hp]; exact h.queue
    sent := by rw [hi]; exact h.sent
    taken := h.taken.trans hcount.symm
    queued := h.queued
    ended := by rw [hp]; exact h.ended
    drained := by rw [hi, hp]; exact h.drained }

theorem Inv.wind (h : Inv resource batchSize schemaUrl produces timeout j)
    {daemon : Daemon IngressFrame ρ} (hd : Daemon.Step produces timeout j.daemon daemon)
    (hp : j.daemon.phase = .draining ∨ j.daemon.phase = .flushing ∨ j.daemon.phase = .waiting)
    (hp' : daemon.phase ≠ j.daemon.phase) (hl : j.server.frames = []) :
    Inv resource batchSize schemaUrl produces timeout { j with daemon := daemon } := by
  obtain ⟨isOpen, he, hopen⟩ := h.queue
  have hlate : j.daemon.phase ≠ .running ∧ j.daemon.phase ≠ .stopping := by
    rcases hp with hp | hp | hp <;> simp [hp]
  rcases hd.handling with ⟨frame, -, hsame, -⟩ | ⟨frame, -, hsame, -⟩ | ⟨hi, hc⟩
  · exact absurd hsame hp'
  · exact absurd hsame hp'
  · exact {
      server := h.server
      daemon := h.daemon.tail hd
      queue := ⟨isOpen, by rw [hi]; exact he, fun ho => ((hopen ho).elim hlate.1 hlate.2).elim⟩
      sent := by rw [hi]; exact h.sent
      taken := h.taken.trans hc.symm
      queued := h.queued
      ended := fun _ _ => h.ended hlate.1 hlate.2
      drained := fun hdr => by
        rw [hi]
        rcases hd.drained hdr with hold | ⟨-, hnil⟩
        · exact h.drained hold
        · exact ⟨hnil, hl⟩ }

theorem Inv.step (h : Inv resource batchSize schemaUrl produces timeout j)
    (hs : Step produces timeout j j') : Inv resource batchSize schemaUrl produces timeout j' := by
  cases hs with
  | serve hs hq => exact h.serve hs hq
  | send hs hq => exact h.send hs hq
  | take hs hi hd hi' hf => exact h.take hs hi hd hi' hf
  | work hd hi hp => exact h.work hd hi hp
  | stop hp hf hl reason hr =>
      obtain ⟨isOpen, he, hopen⟩ := h.queue
      exact {
        server := h.server.tail .cancelToken
        daemon := h.daemon.tail (.stop hp hf reason)
        queue := ⟨isOpen, he, fun _ => .inr rfl⟩
        sent := h.sent
        taken := h.taken
        queued := h.queued
        ended := fun _ hstop => absurd rfl hstop
        drained := fun hdr => by simp [Daemon.Phase.Drained] at hdr }
  | close hp hend =>
      obtain ⟨isOpen, he, hopen⟩ := h.queue
      obtain ⟨hconsume, hclosed⟩ := Ipc.Sink.closeEvents_consume he
      exact {
        server := h.server.tail (.consume hconsume)
        daemon := h.daemon.tail (.close hp)
        queue := ⟨false, hclosed, nofun⟩
        sent := h.sent
        taken := h.taken
        queued := h.queued
        ended := fun _ _ => hend
        drained := fun hdr => by simp [Daemon.Phase.Drained] at hdr }
  | wind hd hp hp' hl => exact h.wind hd hp hp' hl

theorem Inv.of_reachable
    (h : Reachable (Init resource batchSize schemaUrl) (Step produces timeout) j) :
    Inv resource batchSize schemaUrl produces timeout j :=
  h.invariant (fun _ => init_inv) fun _ _ => Inv.step

/-! ## A finished run -/

/-- Every frame that was queued was taken, in the order of the queue, and transformed,
refused or dropped; but for the readers in between, it was counted as admitted. -/
theorem reachable_taken
    (h : Reachable (Init resource batchSize schemaUrl) (Step produces timeout) j)
    (hp : j.daemon.phase = .finished) :
    j.taken = j.sent ∧ j.taken.length = j.daemon.pipeline.frameCount ∧
      j.server.state.stats.admitted + j.server.uncounted = j.daemon.pipeline.frameCount := by
  have hinv := Inv.of_reachable h
  have hsent : j.taken = j.sent := by
    rw [hinv.sent, (hinv.drained (.inr (.inr hp))).1, List.append_nil]
  refine ⟨hsent, hinv.taken, ?_⟩
  rw [← hinv.taken, hsent, hinv.queued]
  rfl

/-- The frames are conserved at exit: those that were admitted are those that were
transformed, refused or dropped, each once and in their order, and no lease is left. -/
structure Conserved (j : Ingress ρ) : Prop where
  admitted : j.server.state.stats.admitted =
    j.daemon.pipeline.stats.transformed + j.daemon.pipeline.stats.invalid + j.daemon.pipeline.frames
  once : j.taken.length =
    j.daemon.pipeline.stats.transformed + j.daemon.pipeline.stats.invalid + j.daemon.pipeline.frames
  order : j.taken = j.sent
  reserved : j.server.state.stats.reservedBytes = 0
  released : j.server.state.bytes = j.server.state.limits.payloadBudgetBytes

/-- **The frames are conserved**, in a run that has finished and in which no accept has
failed, however its steps are interleaved. -/
theorem frames_conserved
    (h : Reachable (Init resource batchSize schemaUrl) (Step produces timeout) j)
    (hp : j.daemon.phase = .finished) (hs : j.server.serving ≠ .failed) : j.Conserved := by
  have hinv := Inv.of_reachable h
  obtain ⟨hsent, hlength, hcount⟩ := reachable_taken h hp
  have hended : ∀ c ∈ j.server.conns, c.pc = .ended := by
    rcases hinv.ended (by simp [hp]) (by simp [hp]) with hf | ⟨-, hall⟩
    · exact absurd hf hs
    · exact hall
  obtain ⟨hinbox, hframes⟩ := hinv.drained (.inr (.inr hp))
  obtain ⟨isOpen, he, -⟩ := hinv.queue
  have hqueue : j.server.state.sink.frames = [] := (Ipc.Sink.frames_events he).trans hinbox
  have hidle := ((Ipc.Server.reachable_admission hinv.server).idle hended hqueue hframes).1
  rw [Ipc.Server.uncounted_ended hended, Nat.add_zero] at hcount
  exact {
    admitted := hcount
    once := hlength
    order := hsent
    reserved := congrArg Pool.gauge hidle
    released := congrArg Pool.free hidle }

/-! ## Two runs -/

section

variable {init : Ingress ρ → Prop}

/-- When the server has ended, a run with nothing left in hand can finish. -/
theorem reachable_finished (h : Reachable init (Step produces timeout) j)
    (hp : j.daemon.phase = .stopping) (he : j.server.Ended) (hl : j.server.frames = [])
    (hf : j.daemon.Free) (hi : j.daemon.inbox = []) (hb : j.daemon.batch.spans = [])
    (hw : j.daemon.pipeline.worker = .idle) (hq : j.daemon.pipeline.queue = []) :
    ∃ j', Reachable init (Step produces timeout) j' ∧ j'.daemon.phase = .finished ∧
      j'.server.serving = j.server.serving ∧ j'.server.state.stats = j.server.state.stats ∧
      j'.daemon.pipeline.stats = j.daemon.pipeline.stats ∧
      j'.daemon.pipeline.frames = j.daemon.pipeline.frames := by
  have htake : j.daemon.batch.take = (none, j.daemon.batch) := by
    unfold SpanBatcher.take
    rw [dif_pos hb]
  have h₁ := h.tail (.close hp he)
  have flushes : Phase.flushing ≠ .draining := by decide
  have waits : Phase.waiting ≠ .flushing := by decide
  have finishes : Phase.finished ≠ .waiting := by decide
  have h₂ := h₁.tail (.wind (.flush rfl hf hi) (.inl rfl) flushes hl)
  have h₃ := h₂.tail (.wind (.dropQueue rfl ⟨hf.1, by simp [Daemon.flush, htake]⟩) (.inr (.inl rfl))
    waits hl)
  have h₄ := h₃.tail (.work (.workerEnds hw hq rfl) rfl rfl)
  have h₅ := h₄.tail (.wind (.finished rfl rfl) (.inr (.inr rfl)) finishes hl)
  exact ⟨_, h₅, rfl, rfl, rfl, rfl, rfl⟩

end

/-- No frame can be transformed. -/
def refuses (_ : IngressFrame) (_ : Nat) (outcome : Except String Outcome) : Prop :=
  outcome = .error "invalid payload"

/-- An empty payload. -/
def emptyFrame : IngressFrame := ⟨.hookPayload, [], 0⟩

def quiet : Ingress Resource where
  server := {
    state := {
      sink := .bounded ⟨[], ingressQueueItems, true⟩ ⟨[], 8, true⟩
      shutdown := false
      limits := .default
      bytes := Ipc.IngressLimits.default.payloadBudgetBytes
      connections := Ipc.IngressLimits.default.maxConnections
      stats := .zero }
    conns := []
    frames := []
    serving := .running }
  daemon := .start ⟨[kvString "service.name" "agent"]⟩ 1 ""
  sent := []
  taken := []

/-- The frame is refused, and its reader has not counted it yet. -/
def inBetween : Ingress Resource where
  server := { quiet.server with
    state := { quiet.server.state with
      connections := Ipc.IngressLimits.default.maxConnections - 1
      stats := { Ipc.IngressStats.zero with
        received := 1, activeConnections := 1, peakConnections := 1 } }
    conns := [⟨.counting .admitted, [], none⟩] }
  daemon := { quiet.daemon with processed := 1 }.transform (some fun _ _ => true)
    (.error "invalid payload") .id 0
  sent := [emptyFrame]
  taken := [emptyFrame]

theorem reachable_inBetween : Reachable
    (Init (⟨[kvString "service.name" "agent"]⟩ : Resource) 1 "") (Step refuses 0) inBetween := by
  have h₀ : Reachable (Init _ 1 "") (Step refuses 0) quiet :=
    .of_init ⟨false, .default, quiet.server.state, rfl, rfl⟩
  have h₁ := h₀.tail (.serve (.accept rfl) rfl)
  have h₂ := h₁.tail (.serve (@Ipc.Server.Step.move _ [] [] _ _ _ rfl (.acquire (by decide))) rfl)
  have h₃ := h₂.tail (.serve (@Ipc.Server.Step.move _ [] [] _ _ _ rfl .enter) rfl)
  have h₄ := h₃.tail (.serve (@Ipc.Server.Step.move _ [] [] _ _ _ rfl
    (.readHeader (Ipc.encodeFrame .hookPayload []).1)) rfl)
  have h₅ := h₄.tail (.serve (@Ipc.Server.Step.move _ [] [] ⟨.sized .hookPayload 0, [], none⟩ _ _
    (by decide +kernel) (.reserve (Nat.zero_le _))) rfl)
  have h₆ := h₅.tail (.serve (@Ipc.Server.Step.move _ [] [] _ _ _ rfl .lease) rfl)
  have h₇ := h₆.tail (.serve (@Ipc.Server.Step.move _ [] [] _ _ _ rfl (.readPayload [] rfl)) rfl)
  have h₈ := h₇.tail (.serve (@Ipc.Server.Step.move _ [] [] _ _ _ rfl .announce) rfl)
  have h₉ := h₈.tail (@Step.send _ _ _ _ _ _ emptyFrame
    (@Ipc.Server.Step.move _ [] [] _ _ _ rfl (.send 0)) rfl)
  have h₁₀ := h₉.tail (.take .recvEvent rfl
    (.frame rfl ⟨rfl, rfl⟩ (Nat.zero_lt_succ 63) (show _ = [emptyFrame] from rfl)
      (fun _ _ => true) rfl .id 0) rfl rfl)
  have h₁₁ := h₁₀.tail (.serve (@Ipc.Server.Step.dropFrame _ [] [] 0 rfl) rfl)
  exact h₁₁.tail (.serve (@Ipc.Server.Step.dropPermit _ [] [] 0 rfl) rfl)

/-- The next accept fails while the reader is in between, and the daemon finishes: the
frame was refused and is not counted as admitted. -/
theorem frames_lag : ∃ j : Ingress Resource,
    Reachable (Init ⟨[kvString "service.name" "agent"]⟩ 1 "") (Step refuses 0) j ∧
      j.daemon.phase = .finished ∧ j.server.Ended ∧ j.server.state.stats.admitted = 0 ∧
      j.daemon.pipeline.stats.transformed + j.daemon.pipeline.stats.invalid +
        j.daemon.pipeline.frames = 1 ∧ ¬ j.Conserved := by
  have h₁ := reachable_inBetween.tail (.serve (.acceptError rfl) rfl)
  have h₂ := h₁.tail (.stop rfl ⟨rfl, rfl⟩ rfl (.server (some "accept")) fun _ _ => .inl rfl)
  obtain ⟨j, hj, hp, hserving, hstats, hpstats, hframes⟩ :=
    reachable_finished h₂ rfl (.inl rfl) rfl ⟨rfl, rfl⟩ rfl rfl rfl rfl
  have hadmitted : j.server.state.stats.admitted = 0 := by rw [hstats]; rfl
  have hcount : j.daemon.pipeline.stats.transformed + j.daemon.pipeline.stats.invalid +
      j.daemon.pipeline.frames = 1 := by
    rw [hpstats, hframes]
    rfl
  refine ⟨j, hj, hp, .inl hserving, hadmitted, hcount, fun hc => ?_⟩
  have hequal := hc.admitted
  rw [hadmitted, hcount] at hequal
  cases hequal

/-- The reader counts its frame and ends, and the server is shut down. -/
theorem frames_conserved_shutdown : ∃ j : Ingress Resource,
    j.server.state.stats.admitted = 1 ∧ j.Conserved := by
  have h₁ := reachable_inBetween.tail (.serve (@Ipc.Server.Step.move _ [] [] _ _ _ rfl .count) rfl)
  have h₂ := h₁.tail (.serve (@Ipc.Server.Step.move _ [] [] _ _ _ rfl .leave) rfl)
  have h₃ := h₂.tail (.serve (@Ipc.Server.Step.move _ [] [] _ _ _ rfl .part) rfl)
  have h₄ := h₃.tail (.stop rfl ⟨rfl, rfl⟩ rfl .shutdown nofun)
  have h₅ := h₄.tail (.serve (.stop rfl rfl) rfl)
  have hended : ∀ c ∈ [(⟨.ended, [.admitted], none⟩ : Conn)], c.pc = .ended := by simp
  obtain ⟨j, hj, hp, hserving, hstats, -, -⟩ :=
    reachable_finished h₅ rfl (.inr ⟨rfl, hended⟩) rfl ⟨rfl, rfl⟩ rfl rfl rfl rfl
  exact ⟨j, by rw [hstats]; rfl, frames_conserved hj hp (by rw [hserving]; exact nofun)⟩

end Ingress

end AgentOtelBridge
