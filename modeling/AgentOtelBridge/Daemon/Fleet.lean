import AgentOtelBridge.Daemon.FrameConservation
import AgentOtelBridge.Daemon.Transform
import AgentOtelBridge.Ipc.Delivery
import AgentOtelBridge.Lib.Matching

/-!
# Hooks, server and daemon

Any number of hooks connect to the server, write and are killed while its readers, the loop of the
daemon and the export worker go on.  A step of a `Fleet` is one of a sender, of a `read_exact`, or
of the daemon and its server (`Ingress.Step`), and in that case the sockets follow the connections:
the server accepts a socket of its backlog, a reader moves with its socket, or no connection moves.

`Fleet.Inv` says that every socket holds what its reader knows, and that what was queued is what the
sockets have delivered.  So every event of the daemon comes from a connection of its own, and says
what the hook behind it has written (`Fleet.events_delivered`).
-/

namespace AgentOtelBridge

open PairBuffer Transition Matching
open Ipc (IngressFrame Sink Channel Conn Pc Move Socket Sender MsgType Carries)

/-! ## The queue of the events -/

namespace Ipc

/-- What a frame was made of. -/
def IngressFrame.message (frame : IngressFrame) : MsgType × List UInt8 :=
  (frame.msgType, frame.payload)

/-- A send queues its message, or it does not and the queue is as it was. -/
theorem dispatch_queues {sink : Sink} {ch : Channel IngressFrame} (hq : sink.events? = some ch)
    (msgType : MsgType) (payload : List UInt8) (now : Nat) :
    ((dispatch sink msgType payload now).1.events? = some ch ∧
        ¬(dispatch sink msgType payload now).2.1.admits) ∨
      ((dispatch sink msgType payload now).2.1.admits ∧
        (dispatch sink msgType payload now).1.frames = ch.items ++ [⟨msgType, payload, now⟩]) := by
  cases sink with
  | legacy tx => cases hq
  | bounded events control =>
      obtain rfl : events = ch := Option.some.inj hq
      by_cases hook : msgType = .hookPayload ∨ msgType = .hookPayloadWithContext
      · cases sent : events.trySend ⟨msgType, payload, now⟩ with
        | some events' =>
            have items := Channel.trySend_some sent
            exact .inr (by simp [dispatch, hook, sent, Pc.admits, Sink.frames, items])
        | none => exact .inl (by simp [dispatch, hook, sent, Pc.admits, Sink.events?])
      · cases sent : control.trySend msgType with
        | some control' => exact .inl (by simp [dispatch, hook, sent, Pc.admits, Sink.events?])
        | none => exact .inl (by simp [dispatch, hook, sent, Pc.admits, Sink.events?])

/-- A move queues the message of its reader, which goes on from there, or the queue is as it was. -/
theorem Move.queues {g g' : ServerState} {c c' : Conn} (h : Move g c g' c')
    {ch : Channel IngressFrame} (hq : g.sink.events? = some ch) :
    (g'.sink.events? = some ch ∧
        ∀ msgType payload, c.pc = .dispatching msgType payload → ¬c'.pc.admits) ∨
      ∃ frame, c.pc = .dispatching frame.msgType frame.payload ∧ c'.pc.admits ∧
        g'.sink.frames = ch.items ++ [frame] := by
  cases h with
  | @send k e msgType payload now =>
      rcases dispatch_queues hq msgType payload now with ⟨same, stays⟩ | ⟨goes, grown⟩
      · exact .inl ⟨same, fun _ _ _ => stays⟩
      · exact .inr ⟨⟨msgType, payload, now⟩, rfl, goes, grown⟩
  | acquire | refuse | countRefused | enter | readHeader | reserve | exhausted | lease | readPayload
  | announce | tally | uncount | release | count | leave | part =>
      exact .inl ⟨hq, by rintro msgType payload ⟨⟩⟩
  | readError hw | deadline hw | cancel hw _ =>
      refine .inl ⟨hq, ?_⟩
      rintro msgType payload rfl
      exact hw.elim

theorem Sink.Consume.length_frames_le {sink sink' : Sink} {tickets : List Lease.Ticket}
    (h : sink.Consume sink' tickets) : sink'.frames.length ≤ sink.frames.length := by
  cases h with
  | recvEvent => exact Nat.le_succ _
  | recvLegacy | closeLegacy | recvControl | closeControl | closeEvents => exact Nat.le_refl _

/-- A step that queues a frame moves a connection. -/
theorem Server.Step.conns_ne {s s' : Server} (h : s.Step s') {ch : Channel IngressFrame}
    (hq : s.state.sink.events? = some ch) {frame : IngressFrame}
    (queued : s'.state.sink.frames = s.state.sink.frames ++ [frame]) : s'.conns ≠ s.conns := by
  intro still
  cases h with
  | @move before after c c' g split hm =>
      rcases hm.queues hq with ⟨same, -⟩ | ⟨_, dispatching, goes, -⟩
      · rw [Sink.frames_events same, Sink.frames_events hq] at queued
        simp at queued
      · have same : c' = c := by
          rw [split] at still
          exact (List.cons.inj (List.append_cancel_left still)).1
        rw [same, dispatching] at goes
        exact goes
  | consume consumed =>
      have shorter := consumed.length_frames_le
      rw [queued, List.length_append, List.length_singleton] at shorter
      omega
  | accept | cancelToken | stop | acceptError | abort | dropFrame | dropPermit =>
      simp at queued

end Ipc

/-! ## The frames behind the events -/

namespace Daemon

variable {ρ : Type*} {T : Transformer} {d : Daemon IngressFrame ρ}

/-- The events are those of a run of the arrivals, and the salt is their number. -/
def NumberedBy (T : Transformer) (arrivals : List Arrival) (d : Daemon IngressFrame ρ) : Prop :=
  d.events.map (·.item) = (T.transformRun 0 arrivals).map (fun e => T.span e.1 e.2) ∧
    d.salt = (T.transformRun 0 arrivals).length % 2 ^ 32

theorem NumberedBy.of_eq {arrivals : List Arrival} {d' : Daemon IngressFrame ρ}
    (h : d.NumberedBy T arrivals) (events : d'.events = d.events) (salt : d'.salt = d.salt) :
    d'.NumberedBy T arrivals := by
  unfold NumberedBy
  rw [events, salt]
  exact h

/-- A frame that is transformed is the next arrival. -/
theorem NumberedBy.transform {arrivals : List Arrival} (h : d.NumberedBy T arrivals)
    (quotas : Option Quotas) {a : Arrival} (ord : FiniteMap.IterOrder PairKey) (now : Nat) :
    (d.transform quotas ((T.productionTransformWithWorkspace (.ofNat d.nextSalt) a).mapError
      TransformError.display) ord now).NumberedBy T (arrivals ++ [a]) := by
  obtain ⟨events, salt⟩ := h
  unfold Transformer.productionTransformWithWorkspace
  cases prepared : T.prepare a with
  | error error =>
      have same : T.transformRun 0 (arrivals ++ [a]) = T.transformRun 0 arrivals := by
        rw [Transformer.transformRun_append, Transformer.transformRun_cons_error prepared]
        exact List.append_nil _
      unfold NumberedBy
      rw [same]
      exact ⟨events, salt⟩
  | ok p =>
      obtain ⟨dropped, transformed⟩ := d.transform_ok quotas
        ⟨T.span (.ofNat d.nextSalt) p, p.eventMeta.agentName, p.eventMeta.totalTokens⟩ ord now
      have next : (0 : UInt32) + .ofNat (T.transformRun 0 arrivals).length + 1 =
          .ofNat d.nextSalt := by
        apply UInt32.toNat_inj.mp
        simp [nextSalt, salt]
      have last : T.transformRun 0 (arrivals ++ [a]) =
          T.transformRun 0 arrivals ++ [(.ofNat d.nextSalt, p)] := by
        rw [Transformer.transformRun_append, Transformer.transformRun_cons_ok prepared, next]
        rfl
      show NumberedBy T _ (d.transform quotas (.ok _) ord now)
      rw [transformed]
      refine ⟨?_, ?_⟩
      · rw [last, List.map_append, List.map_append, events]
        rfl
      · rw [last, List.length_append, List.length_singleton]
        simp [nextSalt, salt]

/-- A step has the same arrivals, or it takes a frame that is the next one. -/
theorem Step.numberedBy [Message ρ] {timeout : Nat} {d' : Daemon IngressFrame ρ}
    (step : Step T.Produces timeout d d') {arrivals : List Arrival} (h : d.NumberedBy T arrivals) :
    d'.NumberedBy T arrivals ∨
      ∃ a, d.inbox = a.frame :: d'.inbox ∧ d'.phase = d.phase ∧
        d'.NumberedBy T (arrivals ++ [a]) := by
  cases step with
  | @frame frame rest outcome hp hf hn hi quotas ho ord now =>
      obtain ⟨a, rfl, rfl⟩ := ho
      have taken : NumberedBy T arrivals { d with inbox := rest, processed := d.processed + 1 } :=
        h.of_eq rfl rfl
      obtain ⟨inbox, phase⟩ := transform_inbox { d with inbox := rest, processed := d.processed + 1 }
        (some quotas) _ ord now
      exact .inr ⟨a, by rw [inbox]; exact hi, phase, taken.transform (some quotas) ord now⟩
  | @drain frame rest outcome hp hf hi ho ord now =>
      obtain ⟨a, rfl, rfl⟩ := ho
      have taken : NumberedBy T arrivals { d with inbox := rest } := h.of_eq rfl rfl
      obtain ⟨inbox, phase⟩ := transform_inbox { d with inbox := rest } none _ ord now
      exact .inr ⟨a, by rw [inbox]; exact hi, phase, taken.transform none ord now⟩
  | @push span rest hs hr now =>
      unfold Daemon.push
      split <;> exact .inl (h.of_eq rfl rfl)
  | arrive | pause | tick | enqueue | stop | close | dropFrame | flush | dropQueue | recv | finish
  | workerEnds | abort | finished => exact .inl (h.of_eq rfl rfl)

end Daemon

namespace Ingress

variable {ρ : Type*} [Message ρ] {resource : ρ} {batchSize : Nat} {schemaUrl : String}
  {produces : IngressFrame → Nat → Except String Outcome → Prop} {T : Transformer} {timeout : Nat}
  {j j' : Ingress ρ}

/-- A step queues a frame, or nothing is sent and the queue does not grow. -/
theorem Step.sending (hs : Step produces timeout j j')
    (h : Inv resource batchSize schemaUrl produces timeout j) :
    (j'.sent = j.sent ∧
        j'.server.state.sink.frames.length ≤ j.server.state.sink.frames.length) ∨
      ∃ frame, j'.sent = j.sent ++ [frame] ∧
        j'.server.state.sink.frames = j.server.state.sink.frames ++ [frame] ∧
        j.server.Step j'.server := by
  obtain ⟨isOpen, queue, -⟩ := h.queue
  cases hs with
  | @serve server hs hq =>
      refine .inl ⟨rfl, ?_⟩
      rw [Ipc.Sink.frames_events queue, Ipc.Sink.frames_events (hq.trans queue)]
  | send hs hq => exact .inr ⟨_, rfl, hq, hs⟩
  | take hs => exact .inl ⟨rfl, hs.length_frames_le⟩
  | close =>
      obtain ⟨-, closed⟩ := Ipc.Sink.closeEvents_consume queue
      refine .inl ⟨rfl, ?_⟩
      rw [Ipc.Sink.frames_events queue, Ipc.Sink.frames_events closed]
  | work | stop | wind => exact .inl ⟨rfl, Nat.le_refl _⟩

/-- The events are those of some of the frames that were taken, in their order. -/
def Traced (T : Transformer) (j : Ingress ρ) : Prop :=
  ∃ arrivals, j.daemon.NumberedBy T arrivals ∧ (arrivals.map (·.frame)).Sublist j.taken

theorem Traced.step (h : j.Traced T) (hs : Step T.Produces timeout j j') : j'.Traced T := by
  obtain ⟨arrivals, numbered, sublist⟩ := h
  cases hs with
  | serve | send | stop | close => exact ⟨arrivals, numbered.of_eq rfl rfl, sublist⟩
  | @take sink daemon frame rest hs hi hd hi' hf =>
      rcases hd.numberedBy numbered with same | ⟨a, inbox, -, next⟩
      · exact ⟨arrivals, same, sublist.trans (List.sublist_append_left _ _)⟩
      · obtain rfl : frame = a.frame := (List.cons.inj (hi.symm.trans inbox)).1
        refine ⟨arrivals ++ [a], next, ?_⟩
        rw [List.map_append]
        exact sublist.append (List.Sublist.refl _)
  | @work daemon hd hi hp =>
      rcases hd.numberedBy numbered with same | ⟨a, inbox, -, -⟩
      · exact ⟨arrivals, same, sublist⟩
      · rw [hi] at inbox
        simp at inbox
  | @wind daemon hd hp hp' hl =>
      rcases hd.numberedBy numbered with same | ⟨a, -, phase, -⟩
      · exact ⟨arrivals, same, sublist⟩
      · exact absurd phase hp'

end Ingress

/-! ## Hooks and their sockets -/

/-- The daemon and its server, and the sockets: those that are connected and not accepted, and those
of the connections in their order. -/
structure Fleet (ρ : Type*) where
  ingress : Ingress ρ
  backlog : List Socket
  sockets : List Socket

namespace Fleet

variable {ρ : Type*} [Message ρ]

/-- The daemon before its loop, and no hook. -/
def Init (resource : ρ) (batchSize : Nat) (schemaUrl : String) (f : Fleet ρ) : Prop :=
  f.ingress.Init resource batchSize schemaUrl ∧ f.backlog = [] ∧ f.sockets = []

inductive Step (produces : IngressFrame → Nat → Except String Outcome → Prop) (timeout : Nat)
    (f : Fleet ρ) : Fleet ρ → Prop where
  | connect (sender : Sender) :
      Step produces timeout f { f with backlog := f.backlog ++ [Socket.connect sender] }
  /-- A sender works before it is accepted. -/
  | early {before after : List Socket} {k k' : Socket} (hb : f.backlog = before ++ k :: after)
      (hw : k.Write k') : Step produces timeout f { f with backlog := before ++ k' :: after }
  | write {before after : List Socket} {k k' : Socket} (hk : f.sockets = before ++ k :: after)
      (hw : k.Write k') : Step produces timeout f { f with sockets := before ++ k' :: after }
  | pull {conns conns' : List Conn} {before after : List Socket} {c : Conn} {k k' : Socket}
      (hc : f.ingress.server.conns = conns ++ c :: conns') (hk : f.sockets = before ++ k :: after)
      (hl : before.length = conns.length) (hp : k.Pull c.pc k') :
      Step produces timeout f { f with sockets := before ++ k' :: after }
  | accept {j : Ingress ρ} {before after : List Socket} {k : Socket}
      (hj : f.ingress.Step produces timeout j)
      (hs : j.server = { f.ingress.server with
        conns := f.ingress.server.conns ++ [⟨.accepted, [], none⟩] })
      (hb : f.backlog = before ++ k :: after) :
      Step produces timeout f ⟨j, before ++ after, f.sockets ++ [k]⟩
  /-- A reader moves. -/
  | move {j : Ingress ρ} {g : Ipc.ServerState} {conns conns' : List Conn} {c c' : Conn}
      {before after : List Socket} {k k' : Socket} (hj : f.ingress.Step produces timeout j)
      (hm : Move f.ingress.server.state c g c')
      (hc : f.ingress.server.conns = conns ++ c :: conns')
      (hs : j.server = { f.ingress.server with state := g, conns := conns ++ c' :: conns' })
      (hk : f.sockets = before ++ k :: after) (hl : before.length = conns.length)
      (hf : k.Follows f.ingress.server.state.limits c.pc c'.pc k') :
      Step produces timeout f ⟨j, f.backlog, before ++ k' :: after⟩
  /-- A reader is aborted. -/
  | abort {j : Ingress ρ} {conns conns' : List Conn} {c c' : Conn}
      (hj : f.ingress.Step produces timeout j) (hw : c.pc.waits) (hp : c'.pc = c.pc.leaveRead none)
      (hc : f.ingress.server.conns = conns ++ c :: conns')
      (hs : j.server = { f.ingress.server with conns := conns ++ c' :: conns' }) :
      Step produces timeout f { f with ingress := j }
  /-- No connection moves. -/
  | still {j : Ingress ρ} (hj : f.ingress.Step produces timeout j)
      (hc : j.server.conns = f.ingress.server.conns) :
      Step produces timeout f { f with ingress := j }

/-- What the sockets have delivered. -/
def delivered (f : Fleet ρ) : List (MsgType × List UInt8) := f.sockets.filterMap (·.delivered)

variable {resource : ρ} {batchSize : Nat} {schemaUrl : String}
  {produces : IngressFrame → Nat → Except String Outcome → Prop} {T : Transformer} {timeout : Nat}
  {f f' : Fleet ρ}

/-- Every socket holds what its reader knows, and what was queued was delivered. -/
structure Inv (resource : ρ) (batchSize : Nat) (schemaUrl : String)
    (produces : IngressFrame → Nat → Except String Outcome → Prop) (timeout : Nat)
    (f : Fleet ρ) : Prop where
  ingress : f.ingress.Inv resource batchSize schemaUrl produces timeout
  backlog : ∀ k ∈ f.backlog, k.Holds .accepted
  sockets : List.Forall₂ (fun (c : Conn) k => k.Holds c.pc) f.ingress.server.conns f.sockets
  sent : (f.ingress.sent.map (·.message)).Perm f.delivered

theorem init_inv (h : Init resource batchSize schemaUrl f) :
    Inv resource batchSize schemaUrl produces timeout f := by
  obtain ⟨hi, hb, hk⟩ := h
  have ingress : f.ingress.Inv resource batchSize schemaUrl produces timeout := Ingress.init_inv hi
  obtain ⟨shutdown, limits, state, -, hj⟩ := hi
  refine ⟨ingress, ?_, ?_, ?_⟩
  · rw [hb]
    exact List.forall_mem_nil _
  · rw [hk, hj]
    exact .nil
  · rw [delivered, hk, hj]
    exact .nil

/-- The sockets are as many, and have delivered what was sent, when neither has changed. -/
theorem Inv.of_still (h : Inv resource batchSize schemaUrl produces timeout f) {j : Ingress ρ}
    (hj : f.ingress.Step produces timeout j)
    (shrinks : j.server.state.sink.frames.length ≤ f.ingress.server.state.sink.frames.length ∨
      j.server.conns = f.ingress.server.conns) : j.sent = f.ingress.sent := by
  rcases hj.sending h.ingress with ⟨same, -⟩ | ⟨frame, -, grown, moved⟩
  · exact same
  · rcases shrinks with shrinks | still
    · rw [grown, List.length_append, List.length_singleton] at shrinks
      omega
    · obtain ⟨isOpen, queue, -⟩ := h.ingress.queue
      exact absurd still (moved.conns_ne queue grown)

theorem Inv.accept (h : Inv resource batchSize schemaUrl produces timeout f) {j : Ingress ρ}
    {before after : List Socket} {k : Socket} (hj : f.ingress.Step produces timeout j)
    (hs : j.server = { f.ingress.server with
      conns := f.ingress.server.conns ++ [⟨.accepted, [], none⟩] })
    (hb : f.backlog = before ++ k :: after) :
    Inv resource batchSize schemaUrl produces timeout ⟨j, before ++ after, f.sockets ++ [k]⟩ := by
  have connected : k.Holds .accepted := h.backlog k (by simp [hb])
  refine ⟨h.ingress.step hj, ?_, ?_, ?_⟩
  · intro other waiting
    refine h.backlog other ?_
    rw [hb]
    simp only [List.mem_append, List.mem_cons] at waiting ⊢
    exact waiting.imp_right .inr
  · rw [hs]
    exact List.rel_append h.sockets (.cons connected .nil)
  · have same := h.of_still hj (.inl (by rw [hs]))
    have fresh : k.delivered = none := connected.fresh trivial
    simpa [delivered, same, fresh] using h.sent

/-- A move queues the frame of its reader and then its socket has delivered it, or neither. -/
theorem Inv.sent_move (h : Inv resource batchSize schemaUrl produces timeout f) {j : Ingress ρ}
    {g : Ipc.ServerState} {c c' : Conn} {before after : List Socket} {k k' : Socket}
    (hj : f.ingress.Step produces timeout j) (hm : Move f.ingress.server.state c g c')
    (hg : j.server.state = g) (hk : f.sockets = before ++ k :: after) (holds : k.Holds c.pc)
    (hf : k.Follows f.ingress.server.state.limits c.pc c'.pc k') :
    (j.sent.map (·.message)).Perm ((before ++ k' :: after).filterMap (·.delivered)) := by
  obtain ⟨isOpen, queue, -⟩ := h.ingress.queue
  have sent := h.sent
  rw [delivered, hk] at sent
  rcases hf.delivers with ⟨same, stays⟩ | ⟨msgType, payload, dispatching, goes, queued⟩
  · rcases hm.queues queue with ⟨still, -⟩ | ⟨frame, dispatching, goes, -⟩
    · have frames : j.sent = f.ingress.sent :=
        h.of_still hj (.inl (by
          rw [hg, Ipc.Sink.frames_events still, Ipc.Sink.frames_events queue]))
      rw [frames]
      simpa [List.filterMap_cons, same] using sent
    · exact absurd goes (stays _ _ dispatching)
  · rcases hm.queues queue with ⟨-, stays⟩ | ⟨frame, dispatching', -, grown⟩
    · exact absurd goes (stays _ _ dispatching)
    · have message : frame.message = (msgType, payload) := by
        cases dispatching.symm.trans dispatching'
        rfl
      have fresh : k.delivered = none := holds.fresh (by rw [dispatching]; trivial)
      rw [← hg] at grown
      rcases hj.sending h.ingress with ⟨-, shorter⟩ | ⟨frame', appended, grown', -⟩
      · rw [grown, Ipc.Sink.frames_events queue, List.length_append, List.length_singleton] at shorter
        omega
      · have same : frame' = frame := by
          rw [grown, Ipc.Sink.frames_events queue] at grown'
          exact (List.singleton_inj.mp (List.append_cancel_left grown')).symm
        rw [appended, same, List.map_append, List.map_singleton, message]
        exact (sent.append_right _).trans (filterMap_replace before after fresh queued).symm

theorem Inv.move (h : Inv resource batchSize schemaUrl produces timeout f) {j : Ingress ρ}
    {g : Ipc.ServerState} {conns conns' : List Conn} {c c' : Conn}
    {before after : List Socket} {k k' : Socket} (hj : f.ingress.Step produces timeout j)
    (hm : Move f.ingress.server.state c g c')
    (hc : f.ingress.server.conns = conns ++ c :: conns')
    (hs : j.server = { f.ingress.server with state := g, conns := conns ++ c' :: conns' })
    (hk : f.sockets = before ++ k :: after) (hl : before.length = conns.length)
    (hf : k.Follows f.ingress.server.state.limits c.pc c'.pc k') :
    Inv resource batchSize schemaUrl produces timeout ⟨j, f.backlog, before ++ k' :: after⟩ := by
  have sockets := h.sockets
  rw [hc, hk, forall₂_middle hl] at sockets
  refine ⟨h.ingress.step hj, h.backlog, ?_, h.sent_move hj hm (by rw [hs]) hk sockets.2.1 hf⟩
  rw [hs]
  exact (forall₂_middle hl).mpr ⟨sockets.1, sockets.2.1.move hm hf, sockets.2.2⟩

theorem Inv.abort (h : Inv resource batchSize schemaUrl produces timeout f) {j : Ingress ρ}
    {conns conns' : List Conn} {c c' : Conn} (hj : f.ingress.Step produces timeout j)
    (hw : c.pc.waits) (hp : c'.pc = c.pc.leaveRead none)
    (hc : f.ingress.server.conns = conns ++ c :: conns')
    (hs : j.server = { f.ingress.server with conns := conns ++ c' :: conns' }) :
    Inv resource batchSize schemaUrl produces timeout { f with ingress := j } := by
  have leaves : ∀ k : Socket, k.Holds c.pc → k.Holds c'.pc := by
    intro k holds
    rw [hp]
    exact holds.leave hw none
  have sockets := h.sockets
  rw [hc] at sockets
  refine ⟨h.ingress.step hj, h.backlog, ?_, ?_⟩
  · rw [hs]
    exact (forall₂_replace leaves sockets.flip).flip
  · rw [h.of_still hj (.inl (by rw [hs]))]
    exact h.sent

theorem Inv.step (h : Inv resource batchSize schemaUrl produces timeout f)
    (hs : Step produces timeout f f') : Inv resource batchSize schemaUrl produces timeout f' := by
  cases hs with
  | connect sender =>
      refine ⟨h.ingress, ?_, h.sockets, h.sent⟩
      intro k waiting
      rcases List.mem_append.mp waiting with waiting | new
      · exact h.backlog k waiting
      · rw [List.mem_singleton.mp new]
        exact .connect sender
  | @early before after k k' hb hw =>
      have kept := h.backlog
      rw [hb] at kept
      refine ⟨h.ingress, ?_, h.sockets, h.sent⟩
      intro other waiting
      rcases List.mem_append.mp waiting with waiting | waiting
      · exact kept other (List.mem_append_left _ waiting)
      · rcases List.mem_cons.mp waiting with rfl | waiting
        · exact (kept k (by simp)).write hw
        · exact kept other (List.mem_append_right _ (.tail _ waiting))
  | @write before after k k' hk hw =>
      have sockets := h.sockets
      rw [hk] at sockets
      refine ⟨h.ingress, h.backlog, forall₂_replace (fun c holds => holds.write hw) sockets, ?_⟩
      have same : k'.delivered = k.delivered := by cases hw <;> rfl
      have sent := h.sent
      rw [delivered, hk] at sent
      simpa [delivered, List.filterMap_cons, same] using sent
  | @pull conns conns' before after c k k' hc hk hl hp =>
      have sockets := h.sockets
      rw [hc, hk, forall₂_middle hl] at sockets
      refine ⟨h.ingress, h.backlog, ?_, ?_⟩
      · rw [hc]
        exact (forall₂_middle hl).mpr ⟨sockets.1, sockets.2.1.pull hp, sockets.2.2⟩
      · have same : k'.delivered = k.delivered := by cases hp; rfl
        have sent := h.sent
        rw [delivered, hk] at sent
        simpa [delivered, List.filterMap_cons, same] using sent
  | accept hj hs hb => exact h.accept hj hs hb
  | move hj hm hc hs hk hl hf => exact h.move hj hm hc hs hk hl hf
  | abort hj hw hp hc hs => exact h.abort hj hw hp hc hs
  | still hj hc =>
      refine ⟨h.ingress.step hj, h.backlog, ?_, ?_⟩
      · rw [hc]
        exact h.sockets
      · rw [h.of_still hj (.inr hc)]
        exact h.sent

theorem Inv.of_reachable
    (h : Reachable (Init resource batchSize schemaUrl) (Step produces timeout) f) :
    Inv resource batchSize schemaUrl produces timeout f :=
  h.invariant (fun _ => init_inv) fun _ _ => Inv.step

theorem reachable_traced
    (h : Reachable (Init resource batchSize schemaUrl) (Step T.Produces timeout) f) :
    f.ingress.Traced T := by
  refine h.invariant (I := fun f => f.ingress.Traced T) ?_ ?_
  · rintro g ⟨⟨shutdown, limits, state, -, hj⟩, -, -⟩
    rw [hj]
    exact ⟨[], ⟨rfl, rfl⟩, .slnil⟩
  · intro g g' traced step
    cases step with
    | connect | early | write | pull => exact traced
    | accept hj | move hj | abort hj | still hj => exact traced.step hj

/-! ## What the daemon knows of the hooks -/

/-- The frame of an arrival is what a socket has carried.  If a hook was behind it, then the hook has
written all of its frame, and what is decoded is what the hook was to send. -/
structure Delivers (a : Arrival) (k : Socket) : Prop where
  carries : ∃ left, Carries k.sender.bytes a.frame.message left
  hook : ∀ hook, k.sender = .hook hook → k.rest = [] ∧
    Ipc.decodeWirePayload a.frame.msgType a.frame.payload =
      some (hook.header, Ipc.sentContext hook.traceparent, hook.stdin)

theorem Delivers.of_holds {a : Arrival} {k : Socket} {pc : Pc} (holds : k.Holds pc)
    (queued : k.delivered = some a.frame.message) : Delivers a k where
  carries := (holds.delivered _ queued).imp fun _ => And.left
  hook hook sender := by
    obtain ⟨message, written⟩ := holds.whole sender queued
    obtain ⟨msgType, payload⟩ := Prod.mk.inj message
    refine ⟨written, ?_⟩
    rw [msgType, payload, Ipc.decodeWirePayload, Ipc.Hook.payload, Ipc.decodeContextPayload_encode]
    rfl

/-- **Every event comes from a connection of its own**, in whatever order hooks, readers and daemon
go on and wherever a hook is killed: the events are those of arrivals that were carried by different
sockets, and a hook's data arrives whole and unchanged or not at all.  When the daemon has finished,
each frame that was delivered is transformed, refused or dropped. -/
theorem events_delivered
    (h : Reachable (Init resource batchSize schemaUrl) (Step T.Produces timeout) f) :
    (∃ arrivals senders,
      f.ingress.daemon.events.map (·.item) =
        (T.transformRun 0 arrivals).map (fun e => T.span e.1 e.2) ∧
      senders.Subperm f.sockets ∧ List.Forall₂ Delivers arrivals senders) ∧
    (f.ingress.daemon.phase = .finished →
      f.delivered.length = f.ingress.daemon.pipeline.stats.transformed +
        f.ingress.daemon.pipeline.stats.invalid + f.ingress.daemon.pipeline.frames) := by
  have inv := Inv.of_reachable h
  constructor
  · obtain ⟨arrivals, ⟨events, -⟩, taken⟩ := reachable_traced h
    have part : (arrivals.map fun a => a.frame.message).Subperm f.delivered := by
      have sent : (arrivals.map fun a => a.frame).Sublist f.ingress.sent := by
        rw [inv.ingress.sent]
        exact taken.trans (List.sublist_append_left _ _)
      have messages := sent.map (·.message)
      rw [List.map_map] at messages
      exact messages.subperm.trans inv.sent.subperm
    obtain ⟨senders, inside, matched⟩ := exists_matched part
    refine ⟨arrivals, senders, events, inside, ?_⟩
    rw [List.forall₂_map_left_iff] at matched
    have holds : ∀ k ∈ senders, ∃ c ∈ f.ingress.server.conns, k.Holds c.pc := fun k chosen =>
      exists_of_mem inv.sockets.flip (inside.subset chosen)
    have both := (List.forall₂_and_left _ _).mpr ⟨holds, matched.flip⟩
    refine both.flip.imp ?_
    rintro a k ⟨⟨c, -, known⟩, queued⟩
    exact .of_holds known queued
  · intro finished
    have drained := (inv.ingress.drained (.inr (.inr finished))).1
    rw [← inv.sent.length_eq, List.length_map, inv.ingress.sent, drained, List.append_nil,
      inv.ingress.taken]
    rfl

/-! ## One hook -/

section

variable {init : Fleet ρ → Prop} {g g' : Ipc.ServerState} {c c' : Conn} {tickets : List Lease.Ticket}
  {serving : Ipc.Serving} {d : Daemon IngressFrame ρ} {sent taken : List IngressFrame}
  {k k' : Socket}

/-- The reader of the only connection moves, and queues nothing. -/
theorem reachable_move
    (h : Reachable init (Step produces timeout) ⟨⟨⟨g, [c], tickets, serving⟩, d, sent, taken⟩, [], [k]⟩)
    (hm : Move g c g' c') (hq : g'.sink.events? = g.sink.events?)
    (hf : k.Follows g.limits c.pc c'.pc k') :
    Reachable init (Step produces timeout)
      ⟨⟨⟨g', [c'], tickets, serving⟩, d, sent, taken⟩, [], [k']⟩ :=
  h.tail (@Step.move _ _ _ _ _ _ g' [] [] _ _ [] [] _ _
    (.serve (@Ipc.Server.Step.move _ [] [] _ _ _ rfl hm) hq) hm rfl rfl rfl rfl hf)

/-- It has read its header. -/
theorem reachable_header {counted : List Ipc.IngressCounter} {exempt : Option Ipc.Exempt}
    (h : Reachable init (Step produces timeout)
      ⟨⟨⟨g, [⟨.header, counted, exempt⟩], tickets, serving⟩, d, sent, taken⟩, [], [k]⟩)
    {header : Ipc.Header} (hb : k.buffer = header.toBytes) {pc : Pc}
    (hp : Pc.afterHeader g.limits header = pc) :
    Reachable init (Step produces timeout)
      ⟨⟨⟨g, [⟨pc, counted, exempt⟩], tickets, serving⟩, d, sent, taken⟩, [],
        [{ k with buffer := [] }]⟩ := by
  subst hp
  exact reachable_move h (.readHeader header) rfl (.header hb)

/-- Its `read_exact` takes some bytes. -/
theorem reachable_pull
    (h : Reachable init (Step produces timeout) ⟨⟨⟨g, [c], tickets, serving⟩, d, sent, taken⟩, [], [k]⟩)
    (hp : k.Pull c.pc k') :
    Reachable init (Step produces timeout)
      ⟨⟨⟨g, [c], tickets, serving⟩, d, sent, taken⟩, [], [k']⟩ :=
  h.tail (@Step.pull _ _ _ _ _ [] [] [] [] _ _ _ rfl rfl rfl hp)

end

/-- A hook of one client and one event, with no context and no input. -/
def silentHook : Ipc.Hook := ⟨⟨2, 1⟩, none, [], Nat.zero_le _⟩

def silentFrame : IngressFrame := ⟨.hookPayloadWithContext, silentHook.payload, 0⟩

/-- The daemon of the silent hook. -/
def silentTransformer : Transformer := sampleTransformer [] { conversationId := some "c" } .absolute

def silentArrival : Arrival where
  frame := silentFrame
  contexts _ := ⟨none, .missing, none, .invalidWorkspace⟩
  traceNow := 0
  now := 0

/-- What the frame is transformed into, as the first of a daemon. -/
def silentOutcome : Except String Outcome :=
  (silentTransformer.productionTransformWithWorkspace (.ofNat 1) silentArrival).mapError
    TransformError.display

theorem silentOutcome_ok : ∃ outcome, silentOutcome = .ok outcome := by
  have accepted : silentOutcome.isOk = true := by decide +kernel
  cases known : silentOutcome with
  | ok outcome => exact ⟨outcome, rfl⟩
  | error error =>
      rw [known] at accepted
      cases accepted

/-- The daemon when it has taken the frame. -/
def silentDaemon : Daemon IngressFrame Resource :=
  { Ingress.quiet.daemon with processed := 1 }.transform (some fun _ _ => true) silentOutcome .id 0

theorem silentDaemon_events : silentDaemon.events ≠ [] := by
  obtain ⟨outcome, known⟩ := silentOutcome_ok
  obtain ⟨dropped, transformed⟩ := { Ingress.quiet.daemon with processed := 1 }.transform_ok
    (some fun _ _ => true) outcome .id 0
  unfold silentDaemon
  rw [known, transformed]
  exact List.cons_ne_nil _ _

/-- The socket when its frame is queued. -/
def silentSocket : Socket :=
  ⟨.hook silentHook, .writing, [], [], [], some silentFrame.message⟩

/-- The hook is accepted when it has written its frame, and its frame is transformed. -/
theorem reachable_silentHook : ∃ f : Fleet Resource,
    Reachable (Init ⟨[kvString "service.name" "agent"]⟩ 1 "") (Step silentTransformer.Produces 0) f ∧
      f.sockets = [silentSocket] ∧ f.ingress.daemon = silentDaemon := by
  have h₀ : Reachable (Init _ 1 "") (Step silentTransformer.Produces 0) ⟨Ingress.quiet, [], []⟩ :=
    .of_init ⟨⟨false, .default, Ingress.quiet.server.state, rfl, rfl⟩, rfl, rfl⟩
  have h₁ := h₀.tail (.connect (.hook silentHook))
  have h₂ := h₁.tail (@Step.early _ _ _ _ _ [] [] _ _ rfl (.start rfl))
  have h₃ := h₂.tail (@Step.early _ _ _ _ _ [] [] _ _ rfl
    (@Socket.Write.write _ (Sender.hook silentHook).bytes [] rfl (List.append_nil _).symm))
  have h₄ := h₃.tail (@Step.accept _ _ _ _ _ _ [] [] _ (.serve (.accept rfl) rfl) rfl rfl)
  have h₅ := reachable_move h₄ (.acquire (by decide)) rfl (.keep id)
  have h₆ := reachable_move h₅ .enter rfl (.keep id)
  have h₇ := reachable_pull h₆ (@Socket.Pull.pull _ _
    (Ipc.encodeFrame .hookPayloadWithContext silentHook.payload).1.toBytes silentHook.payload rfl
    (by decide))
  have sized : Pc.afterHeader .default
      (Ipc.encodeFrame .hookPayloadWithContext silentHook.payload).1 =
        .sized .hookPayloadWithContext silentHook.payload.length := by decide +kernel
  have h₈ := reachable_header h₇ (List.nil_append _) sized
  have h₉ := reachable_move h₈ (.reserve (by decide)) rfl (.keep id)
  have h₁₀ := reachable_move h₉ .lease rfl (.keep id)
  have h₁₁ := reachable_pull h₁₀ (@Socket.Pull.pull _ _ silentHook.payload [] (List.append_nil _).symm
    (Nat.le_refl _))
  have h₁₂ := reachable_move h₁₁ (.readPayload silentHook.payload rfl) rfl .payload
  have h₁₃ := reachable_move h₁₂ .announce rfl (.keep id)
  have h₁₄ := h₁₃.tail (@Step.move _ _ _ _ _ _ _ [] [] _ _ [] [] _ _
    (@Ingress.Step.send _ _ _ _ _ _ silentFrame (@Ipc.Server.Step.move _ [] [] _ _ _ rfl (.send 0))
      rfl) (.send 0) rfl rfl rfl rfl (.queue trivial))
  have emptied : silentDaemon.inbox = [] := (Daemon.transform_inbox _ _ silentOutcome .id 0).1
  have h₁₅ := h₁₄.tail (.still (.take .recvEvent rfl
    (.frame rfl ⟨rfl, rfl⟩ (Nat.zero_lt_succ 63) (show _ = [silentFrame] from rfl) (fun _ _ => true)
      ⟨silentArrival, rfl, rfl⟩ .id 0) emptied rfl) rfl)
  exact ⟨_, h₁₅, rfl, rfl⟩

/-- The one event of the daemon comes from the hook, which has written all of its frame. -/
theorem events_delivered_silentHook : ∃ f : Fleet Resource, ∃ arrivals,
    arrivals ≠ [] ∧
      f.ingress.daemon.events.map (·.item) =
        (silentTransformer.transformRun 0 arrivals).map (fun e => silentTransformer.span e.1 e.2) ∧
      ∀ a ∈ arrivals, Ipc.decodeWirePayload a.frame.msgType a.frame.payload =
        some (⟨2, 1⟩, none, []) := by
  obtain ⟨f, reachable, sockets, daemon⟩ := reachable_silentHook
  obtain ⟨⟨arrivals, senders, events, inside, matched⟩, -⟩ := events_delivered reachable
  refine ⟨f, arrivals, ?_, events, ?_⟩
  · rintro rfl
    rw [daemon] at events
    exact silentDaemon_events (List.map_eq_nil_iff.mp events)
  · intro a member
    obtain ⟨k, mem, delivers⟩ := exists_of_mem matched member
    have only : k = silentSocket := by
      have inSockets := inside.subset mem
      rwa [sockets, List.mem_singleton] at inSockets
    exact (delivers.hook silentHook (by rw [only]; rfl)).2

end Fleet

end AgentOtelBridge
