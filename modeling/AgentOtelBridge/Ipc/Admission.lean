import AgentOtelBridge.Ipc.Server
import AgentOtelBridge.Lib.Reachable

/-!
# Ingress admission

The two pools of the server keep their books over any run: the bytes that are
reserved are those of the leases that are alive, wherever the lease is, and the
active connections are the guards that are alive.  A connection that has ended has
counted one outcome, or none for a known reason.

A move is local: it changes one connection and what the readers share.  So each
part of the invariant has one lemma about a move, with the other tickets as a
frame.
-/

namespace AgentOtelBridge.Ipc

open Lease Transition

/-! ## The pools and their tickets -/

def ServerState.bytePool (g : ServerState) : Pool := ⟨g.bytes, g.stats.reservedBytes⟩

def ServerState.connPool (g : ServerState) : Pool := ⟨g.connections, g.stats.activeConnections⟩

/-- The leases of the frames in the channel of the events. -/
def Sink.tickets (sink : Sink) : List Ticket :=
  sink.frames.map fun frame => ⟨frame.payload.length, .live⟩

namespace Server

/-- The byte leases: of the connections, of the frames in the channel, and of those
received. -/
def byteTickets (s : Server) : List Ticket :=
  s.conns.flatMap (fun c => c.pc.byteTickets) ++ (s.state.sink.tickets ++ s.frames)

/-- The guards of the connections. -/
def connTickets (s : Server) : List Ticket := s.conns.flatMap fun c => c.pc.connTickets

end Server

theorem tickets_middle (f : Conn → List Ticket) (before after : List Conn) (c : Conn) :
    ((before ++ c :: after).flatMap f).Perm (f c ++ (before ++ after).flatMap f) :=
  List.perm_middle.flatMap_right f

/-- The byte leases, those of one connection first. -/
theorem Server.byteTickets_split {s : Server} {before after : List Conn} {c : Conn}
    (h : s.conns = before ++ c :: after) :
    s.byteTickets.Perm (c.pc.byteTickets ++ (s.state.sink.tickets ++
      ((before ++ after).flatMap (fun c => c.pc.byteTickets) ++ s.frames))) := by
  unfold Server.byteTickets
  rw [h]
  refine ((tickets_middle _ before after c).append_right _).trans ?_
  rw [List.append_assoc]
  refine List.Perm.append_left _ ?_
  rw [← List.append_assoc, ← List.append_assoc]
  exact List.perm_append_comm.append_right _

/-- The byte leases, that of one received frame first. -/
theorem Server.byteTickets_frame {s : Server} {before after : List Ticket} {t : Ticket}
    (h : s.frames = before ++ t :: after) :
    s.byteTickets.Perm (t :: (s.conns.flatMap (fun c => c.pc.byteTickets) ++
      (s.state.sink.tickets ++ (before ++ after)))) := by
  unfold Server.byteTickets
  rw [h]
  refine ((List.perm_middle.append_left _).append_left _).trans ?_
  refine (List.perm_middle.append_left _).trans ?_
  exact List.perm_middle

theorem Server.connTickets_split {s : Server} {before after : List Conn} {c : Conn}
    (h : s.conns = before ++ c :: after) :
    s.connTickets.Perm (c.pc.connTickets ++
      (before ++ after).flatMap fun c => c.pc.connTickets) := by
  unfold Server.connTickets
  rw [h]
  exact tickets_middle _ before after c

@[simp] theorem ServerState.bytePool_count (g : ServerState) (k : IngressCounter) :
    ({ g with stats := g.stats.count k } : ServerState).bytePool = g.bytePool := by
  simp [bytePool]

@[simp] theorem ServerState.connPool_count (g : ServerState) (k : IngressCounter) :
    ({ g with stats := g.stats.count k } : ServerState).connPool = g.connPool := by
  simp [connPool]

namespace Pc

@[simp] theorem afterHeader_byteTickets (limits : IngressLimits) (header : Header) :
    (afterHeader limits header).byteTickets = [] := by
  unfold afterHeader
  split
  · rfl
  · split <;> rfl

@[simp] theorem afterHeader_connTickets (limits : IngressLimits) (header : Header) :
    (afterHeader limits header).connTickets = [⟨1, .live⟩] := by
  unfold afterHeader
  split
  · rfl
  · split <;> rfl

@[simp] theorem afterDrop_byteTickets (outcome : Option IngressCounter) :
    (afterDrop outcome).byteTickets = [] := by
  cases outcome <;> rfl

@[simp] theorem afterDrop_connTickets (outcome : Option IngressCounter) :
    (afterDrop outcome).connTickets = [⟨1, .live⟩] := by
  cases outcome <;> rfl

theorem leaveRead_byteTickets {pc : Pc} (h : pc.waits) (outcome : Option IngressCounter) :
    (pc.leaveRead outcome).byteTickets = pc.byteTickets := by
  cases pc with
  | header => exact afterDrop_byteTickets outcome
  | payload => rfl
  | _ => exact h.elim

theorem leaveRead_connTickets {pc : Pc} (h : pc.waits) (outcome : Option IngressCounter) :
    (pc.leaveRead outcome).connTickets = pc.connTickets := by
  cases pc with
  | header => exact afterDrop_connTickets outcome
  | payload => rfl
  | _ => exact h.elim

end Pc

/-- What a send does: the outcome is counted with the lease held, the lease goes with
the frame, or the lease is dropped. -/
theorem dispatch_cases (sink : Sink) (msgType : MsgType) (payload : List UInt8) (now : Nat) :
    ∃ sink' : Sink,
      (∃ outcome, sink'.tickets = sink.tickets ∧
        dispatch sink msgType payload now = (sink', .tallying outcome payload.length, none)) ∨
      (sink'.tickets = sink.tickets ++ [⟨payload.length, .live⟩] ∧
        dispatch sink msgType payload now = (sink', .counting .admitted, none)) ∨
      (sink'.tickets = sink.tickets ∧ dispatch sink msgType payload now =
        (sink', .dropping payload.length .live (some .capacity), none)) ∨
      (sink'.tickets = sink.tickets ∧ dispatch sink msgType payload now =
        (sink', .dropping payload.length .live none, some .handedOver)) := by
  cases sink with
  | legacy tx =>
      cases hs : tx.trySend (msgType, payload) with
      | some tx' => exact ⟨.legacy tx', .inl ⟨.admitted, rfl, by simp only [dispatch, hs]⟩⟩
      | none => exact ⟨.legacy tx, .inl ⟨.capacity, rfl, by simp only [dispatch, hs]⟩⟩
  | bounded events control =>
      by_cases hm : msgType = .hookPayload ∨ msgType = .hookPayloadWithContext
      · cases hs : events.trySend ⟨msgType, payload, now⟩ with
        | some events' =>
            refine ⟨.bounded events' control, .inr (.inl ⟨?_, ?_⟩)⟩
            · simp [Sink.tickets, Sink.frames, Channel.trySend_some hs]
            · simp only [dispatch, hm, hs, if_true]
        | none =>
            refine ⟨.bounded events control, .inr (.inr (.inl ⟨rfl, ?_⟩))⟩
            simp only [dispatch, hm, hs, if_true]
      · cases hs : control.trySend msgType with
        | some control' =>
            refine ⟨.bounded events control', .inr (.inr (.inr ⟨rfl, ?_⟩))⟩
            simp only [dispatch, hm, hs, if_false]
        | none =>
            refine ⟨.bounded events control, .inl ⟨.controlDropped, rfl, ?_⟩⟩
            simp only [dispatch, hm, hs, if_false]

/-- A send moves the lease of its message, or leaves it with the connection. -/
theorem dispatch_tickets (sink : Sink) (msgType : MsgType) (payload : List UInt8) (now : Nat) :
    ((⟨payload.length, .live⟩ : Ticket) :: sink.tickets).Perm
      ((dispatch sink msgType payload now).2.1.byteTickets ++
        (dispatch sink msgType payload now).1.tickets) := by
  obtain ⟨sink', ⟨outcome, ht, hd⟩ | ⟨ht, hd⟩ | ⟨ht, hd⟩ | ⟨ht, hd⟩⟩ :=
    dispatch_cases sink msgType payload now
  · rw [hd, ht]
    exact .refl _
  · rw [hd, ht]
    exact (List.perm_append_singleton _ _).symm
  · rw [hd, ht]
    exact .refl _
  · rw [hd, ht]
    exact .refl _

theorem dispatch_connTickets (sink : Sink) (msgType : MsgType) (payload : List UInt8)
    (now : Nat) :
    (dispatch sink msgType payload now).2.1.connTickets = [⟨1, .live⟩] := by
  obtain ⟨sink', ⟨outcome, -, hd⟩ | ⟨-, hd⟩ | ⟨-, hd⟩ | ⟨-, hd⟩⟩ :=
    dispatch_cases sink msgType payload now <;> rw [hd] <;> rfl

/-! ## What a move keeps -/

namespace Move

variable {g g' : ServerState} {c c' : Conn} {total : Nat} {rest : List Ticket}

theorem limits_eq (h : Move g c g' c') : g'.limits = g.limits := by
  cases h <;> rfl

/-- A move keeps the books of the bytes. -/
theorem byteBooks (h : Move g c g' c')
    (hb : Books total g.bytePool (c.pc.byteTickets ++ (g.sink.tickets ++ rest))) :
    Books total g'.bytePool (c'.pc.byteTickets ++ (g'.sink.tickets ++ rest)) := by
  cases h with
  | acquire | refuse | exhausted | enter | announce | leave | part => exact hb
  | countRefused | count | tally =>
      rw [ServerState.bytePool_count]
      exact hb
  | readHeader header =>
      rw [Pc.afterHeader_byteTickets]
      exact hb
  | reserve hfree => exact hb.acquire hfree
  | lease => exact hb.activate
  | readPayload payload hlen =>
      subst hlen
      exact hb
  | @send k e msgType payload now =>
      have hp := (dispatch_tickets g.sink msgType payload now).append_right rest
      refine hb.perm ?_
      simpa [Pc.byteTickets] using hp
  | uncount => exact hb.deactivate
  | release =>
      rw [Pc.afterDrop_byteTickets]
      exact hb.release
  | readError hw | deadline hw | cancel hw _ =>
      rw [Pc.leaveRead_byteTickets hw]
      exact hb

/-- A move keeps the books of the connections. -/
theorem connBooks (h : Move g c g' c')
    (hb : Books total g.connPool (c.pc.connTickets ++ rest)) :
    Books total g'.connPool (c'.pc.connTickets ++ rest) := by
  cases h with
  | refuse | exhausted | announce | lease | reserve | readPayload | uncount => exact hb
  | countRefused | count | tally =>
      rw [ServerState.connPool_count]
      exact hb
  | acquire hfree => exact hb.acquire hfree
  | enter => exact hb.activate
  | readHeader header =>
      rw [Pc.afterHeader_connTickets]
      exact hb
  | send now =>
      rw [dispatch_connTickets]
      exact hb
  | release =>
      rw [Pc.afterDrop_connTickets]
      exact hb
  | readError hw | deadline hw | cancel hw _ =>
      rw [Pc.leaveRead_connTickets hw]
      exact hb
  | leave => exact hb.deactivate
  | part => exact hb.release

/-- What a move adds to a counter is what its connection counts. -/
theorem read_counted (h : Move g c g' c') (k : IngressCounter) :
    g'.stats.read k + c.counted.count k = g.stats.read k + c'.counted.count k := by
  cases h with
  | countRefused | count | tally =>
      simp only [IngressStats.read_count, List.count_append]
      omega
  | acquire | refuse | enter | readHeader | reserve | exhausted | lease | readPayload | announce
  | send | uncount | release | readError | deadline | cancel | leave | part => cases k <;> rfl

theorem shutdown_mono (h : Move g c g' c') (hs : g.shutdown = true) : g'.shutdown = true := by
  cases h with
  | announce => simp [hs]
  | acquire | refuse | countRefused | enter | readHeader | reserve | exhausted | lease
  | readPayload | send | tally | uncount | release | count | readError | deadline | cancel | leave
  | part => exact hs

end Move

/-! ## Outcomes -/

/-- One outcome is counted, or none with a reason. -/
def Settled (counted : List IngressCounter) : Option Exempt → Prop
  | none => ∃ k, counted = [k]
  | some _ => counted = []

/-- The outcome of a connection is settled before its lease and its guard go, unless
it is still to be counted. -/
def Conn.Ok (c : Conn) : Prop :=
  match c.pc with
  | .dropping _ _ none | .closing | .parting | .ended => Settled c.counted c.exempt
  | _ => c.counted = [] ∧ c.exempt = none

theorem Conn.ok_afterDrop {size : Nat} {phase : Phase} {outcome : Option IngressCounter}
    {k : List IngressCounter} {e : Option Exempt} (h : Conn.Ok ⟨.dropping size phase outcome, k, e⟩) :
    Conn.Ok ⟨.afterDrop outcome, k, e⟩ := by
  cases outcome <;> exact h

theorem Conn.ok_leaveRead {pc : Pc} (hw : pc.waits) {outcome : IngressCounter}
    {k : List IngressCounter} {e : Option Exempt} (h : Conn.Ok ⟨pc, k, e⟩) :
    Conn.Ok ⟨pc.leaveRead (some outcome), k, e⟩ := by
  cases pc <;> first | exact hw.elim | exact h

/-- A connection that waits is settled when it leaves for a reason. -/
theorem Conn.ok_exempt {pc : Pc} (hw : pc.waits) {k : List IngressCounter} {e : Option Exempt}
    (h : Conn.Ok ⟨pc, k, e⟩) (why : Exempt) : Conn.Ok ⟨pc.leaveRead none, k, some why⟩ := by
  cases pc <;> first | exact hw.elim | exact h.1

theorem ok_afterHeader {limits : IngressLimits} {header : Header} {k : List IngressCounter}
    {e : Option Exempt} (h : k = [] ∧ e = none) :
    Conn.Ok ⟨.afterHeader limits header, k, e⟩ := by
  unfold Pc.afterHeader
  split
  · exact h
  · split <;> exact h

theorem ok_dispatch (sink : Sink) (msgType : MsgType) (payload : List UInt8) (now : Nat) :
    Conn.Ok ⟨(dispatch sink msgType payload now).2.1, [],
      (dispatch sink msgType payload now).2.2⟩ := by
  obtain ⟨sink', ⟨outcome, -, hd⟩ | ⟨-, hd⟩ | ⟨-, hd⟩ | ⟨-, hd⟩⟩ :=
    dispatch_cases sink msgType payload now <;> rw [hd]
  · exact ⟨rfl, rfl⟩
  · exact ⟨rfl, rfl⟩
  · exact ⟨rfl, rfl⟩
  · exact rfl

theorem Move.ok {g g' : ServerState} {c c' : Conn} (h : Move g c g' c') (ho : c.Ok) : c'.Ok := by
  cases h with
  | acquire | refuse | enter | reserve | exhausted | lease | readPayload | announce | leave
  | part => exact ho
  | @uncount k e size outcome => cases outcome <;> exact ho
  | countRefused | count | tally =>
      obtain ⟨rfl, rfl⟩ := ho
      exact ⟨_, rfl⟩
  | readHeader header => exact ok_afterHeader ho
  | @send k e msgType payload now =>
      obtain ⟨rfl, rfl⟩ := ho
      exact ok_dispatch g.sink msgType payload now
  | release => exact Conn.ok_afterDrop ho
  | readError hw | deadline hw => exact Conn.ok_leaveRead hw ho
  | cancel hw _ => exact Conn.ok_exempt hw ho .cancelled

/-- Why a connection is exempt: a cancelled one was cancelled by the token. -/
def Exempt.Because (shutdown : Bool) (serving : Serving) : Option Exempt → Prop
  | some .cancelled => shutdown = true
  | some .aborted => serving = .failed
  | some .handedOver | none => True

theorem dispatch_because (sink : Sink) (msgType : MsgType) (payload : List UInt8) (now : Nat)
    (shutdown : Bool) (serving : Serving) :
    Exempt.Because shutdown serving (dispatch sink msgType payload now).2.2 := by
  obtain ⟨sink', ⟨outcome, -, hd⟩ | ⟨-, hd⟩ | ⟨-, hd⟩ | ⟨-, hd⟩⟩ :=
    dispatch_cases sink msgType payload now <;> rw [hd] <;> trivial

theorem Exempt.Because.mono {shutdown shutdown' : Bool} {serving serving' : Serving}
    {e : Option Exempt} (h : Exempt.Because shutdown serving e)
    (hs : shutdown = true → shutdown' = true) (hf : serving = .failed → serving' = .failed) :
    Exempt.Because shutdown' serving' e := by
  match e, h with
  | some .cancelled, h => exact hs h
  | some .aborted, h => exact hf h
  | some .handedOver, _ | none, _ => trivial

theorem Move.because {g g' : ServerState} {c c' : Conn} {serving : Serving}
    (h : Move g c g' c') (hb : Exempt.Because g.shutdown serving c.exempt) :
    Exempt.Because g'.shutdown serving c'.exempt := by
  have hm := hb.mono h.shutdown_mono id
  cases h with
  | @send k e msgType payload now =>
      cases e with
      | none => exact dispatch_because g.sink msgType payload now g.shutdown serving
      | some why => exact hb
  | cancel hw hs => exact hs
  | acquire | refuse | countRefused | enter | readHeader | reserve | exhausted | lease
  | readPayload | announce | tally | uncount | release | count | readError | deadline | leave
  | part => exact hm

/-! ## The invariant -/

namespace Server

/-- What every step of the server keeps. -/
structure Inv (s : Server) : Prop where
  bytes : Books s.state.limits.payloadBudgetBytes s.state.bytePool s.byteTickets
  conns : Books s.state.limits.maxConnections s.state.connPool s.connTickets
  counters : ∀ k, s.state.stats.read k = (s.conns.map fun c => c.counted.count k).sum
  ok : ∀ c ∈ s.conns, c.Ok
  because : ∀ c ∈ s.conns, Exempt.Because s.state.shutdown s.serving c.exempt
  stopped : s.serving = .shutDown → s.state.shutdown = true

theorem inv_init {s : Server} (h : s.Init) : s.Inv := by
  obtain ⟨sink, shutdown, limits, state, hnew, hsink, rfl⟩ := h
  obtain rfl := ServerState.new_ok hnew
  refine ⟨?_, Books.full _, fun k => ?_, ?_, ?_, ?_⟩
  · simp only [byteTickets, Sink.tickets, hsink, List.flatMap_nil, List.map_nil, List.append_nil]
    exact Books.full limits.payloadBudgetBytes
  · cases k <;> rfl
  · simp
  · simp
  · simp

/-- A property of all connections is kept when the one that changed has it. -/
theorem forall_replace {P : Conn → Prop} {before after : List Conn} {c c' : Conn}
    (h : ∀ d ∈ before ++ c :: after, P d) (hc : P c') : ∀ d ∈ before ++ c' :: after, P d := by
  intro d hd
  simp only [List.mem_append, List.mem_cons] at hd h
  rcases hd with hd | rfl | hd
  · exact h d (.inl hd)
  · exact hc
  · exact h d (.inr (.inr hd))

theorem inv_move {s : Server} {before after : List Conn} {c c' : Conn} {g : ServerState}
    (hi : s.Inv) (h : s.conns = before ++ c :: after) (hm : Move s.state c g c') :
    Inv { s with state := g, conns := before ++ c' :: after } where
  bytes := by
    rw [hm.limits_eq]
    refine (hm.byteBooks (hi.bytes.perm (byteTickets_split h))).perm ?_
    exact (byteTickets_split (s := { s with state := g, conns := before ++ c' :: after }) rfl).symm
  conns := by
    rw [hm.limits_eq]
    refine (hm.connBooks (hi.conns.perm (connTickets_split h))).perm ?_
    exact (connTickets_split (s := { s with state := g, conns := before ++ c' :: after }) rfl).symm
  counters k := by
    have hk := hi.counters k
    have hmk := hm.read_counted k
    rw [h] at hk
    simp only [List.map_append, List.map_cons, List.sum_append, List.sum_cons] at hk ⊢
    omega
  ok := forall_replace (c := c) (fun d hd => hi.ok d (h ▸ hd)) (hm.ok (hi.ok c (by simp [h])))
  because := by
    refine forall_replace (c := c) (fun d hd => ?_) (hm.because (hi.because c (by simp [h])))
    exact (hi.because d (h ▸ hd)).mono hm.shutdown_mono id
  stopped hs := hm.shutdown_mono (hi.stopped hs)

theorem inv_abort {s : Server} {before after : List Conn} {pc : Pc} {k : List IngressCounter}
    {e : Option Exempt} (hi : s.Inv) (h : s.conns = before ++ ⟨pc, k, e⟩ :: after)
    (hs : s.serving ≠ .running) (hw : pc.waits) :
    Inv { s with conns := before ++ ⟨pc.leaveRead none, k, s.serving.exempt⟩ :: after } where
  bytes := by
    refine (hi.bytes.perm (byteTickets_split h)).perm (.trans ?_ (byteTickets_split rfl).symm)
    rw [Pc.leaveRead_byteTickets hw]
  conns := by
    refine (hi.conns.perm (connTickets_split h)).perm (.trans ?_ (connTickets_split rfl).symm)
    rw [Pc.leaveRead_connTickets hw]
  counters k' := by
    have hk := hi.counters k'
    rw [h] at hk
    simpa using hk
  ok := by
    refine forall_replace (c := ⟨pc, k, e⟩) (fun d hd => hi.ok d (h ▸ hd)) ?_
    have ho := hi.ok ⟨pc, k, e⟩ (by simp [h])
    cases hv : s.serving with
    | running => exact absurd hv hs
    | shutDown => exact Conn.ok_exempt hw ho .cancelled
    | failed => exact Conn.ok_exempt hw ho .aborted
  because := by
    refine forall_replace (c := ⟨pc, k, e⟩) (fun d hd => hi.because d (h ▸ hd)) ?_
    cases hv : s.serving with
    | running => exact absurd hv hs
    | shutDown => exact hi.stopped hv
    | failed => exact rfl
  stopped := hi.stopped

/-- The accept loop and the token do not touch the books. -/
theorem Inv.frame {s : Server} (hi : s.Inv) {shutdown : Bool} {serving : Serving}
    (hs : s.state.shutdown = true → shutdown = true) (hf : s.serving = .failed → serving = .failed)
    (hstop : serving = .shutDown → shutdown = true) :
    Inv { s with state := { s.state with shutdown := shutdown }, serving := serving } where
  bytes := hi.bytes
  conns := hi.conns
  counters := hi.counters
  ok := hi.ok
  because c hc := (hi.because c hc).mono hs hf
  stopped := hstop

/-- What only moves byte leases keeps the rest. -/
theorem Inv.ofBytes {s : Server} (hi : s.Inv) {sink : Sink} {bytes : Nat} {reserved : Int}
    {frames : List Ticket} {s' : Server}
    (hs' : s' = { s with
      state := { s.state with
        sink := sink, bytes := bytes, stats := { s.state.stats with reservedBytes := reserved } }
      frames := frames })
    (hb : Books s.state.limits.payloadBudgetBytes s'.state.bytePool s'.byteTickets) : s'.Inv := by
  subst hs'
  exact ⟨hb, hi.conns, fun k => by rw [← hi.counters k]; cases k <;> rfl, hi.ok, hi.because,
    hi.stopped⟩

/-- A consumer that receives a frame takes its lease. -/
theorem consume_tickets {sink sink' : Sink} {tickets : List Ticket}
    (h : sink.Consume sink' tickets) : sink.tickets = tickets ++ sink'.tickets := by
  cases h <;> rfl

theorem inv_step {s s' : Server} (hi : s.Inv) (h : Step s s') : s'.Inv := by
  cases h with
  | accept hs =>
      refine ⟨?_, ?_, fun k => ?_, ?_, ?_, hi.stopped⟩
      · simpa [byteTickets, Pc.byteTickets] using hi.bytes
      · simpa [connTickets, Pc.connTickets] using hi.conns
      · simpa using hi.counters k
      · intro c hc
        rcases List.mem_append.mp hc with hc | hc
        · exact hi.ok c hc
        · obtain rfl := List.mem_singleton.mp hc
          exact ⟨rfl, rfl⟩
      · intro c hc
        rcases List.mem_append.mp hc with hc | hc
        · exact hi.because c hc
        · obtain rfl := List.mem_singleton.mp hc
          trivial
  | move h hm => exact inv_move hi h hm
  | cancelToken => exact hi.frame (fun _ => rfl) id fun _ => rfl
  | stop hs hc => exact hi.frame id (by simp [hs]) fun _ => hc
  | acceptError hs => exact hi.frame id (fun _ => rfl) (by simp)
  | abort h hs hw => exact inv_abort hi h hs hw
  | @consume sink tickets h =>
      refine hi.ofBytes rfl (hi.bytes.perm ?_)
      unfold byteTickets
      rw [consume_tickets h, List.append_assoc]
      exact List.Perm.append_left _ (List.perm_append_comm_assoc _ _ _)
  | @dropFrame before after w h =>
      refine hi.ofBytes rfl ((hi.bytes.perm (byteTickets_frame h)).deactivate.perm ?_)
      exact (byteTickets_frame (s := { s with frames := before ++ ⟨w, .released⟩ :: after })
        rfl).symm
  | @dropPermit before after w h =>
      exact hi.ofBytes rfl (hi.bytes.perm (byteTickets_frame h)).release

theorem Inv.of_reachable {s : Server} (h : Reachable Init Step s) : s.Inv :=
  h.invariant (fun _ => inv_init) fun _ _ => inv_step

/-! ## Admission -/

/-- The account of a state: what the two gauges show, how far they go, when they are
back at zero, and what the connections have counted. -/
structure Admission (s : Server) : Prop where
  reserved : s.state.stats.reservedBytes = live s.byteTickets
  reserved_nonneg : 0 ≤ s.state.stats.reservedBytes
  reserved_le : s.state.stats.reservedBytes ≤ s.state.limits.payloadBudgetBytes
  active : s.state.stats.activeConnections = live s.connTickets
  active_nonneg : 0 ≤ s.state.stats.activeConnections
  active_le : s.state.stats.activeConnections ≤ s.state.limits.maxConnections
  /-- When the connections have ended and the frames are dropped, both gauges are at
  zero and all permits are back. -/
  idle : (∀ c ∈ s.conns, c.pc = .ended) → s.state.sink.frames = [] → s.frames = [] →
    s.state.bytePool = .full s.state.limits.payloadBudgetBytes ∧
      s.state.connPool = .full s.state.limits.maxConnections
  /-- A connection that has ended has counted one outcome, or none when it was
  cancelled, aborted, or its control message handed over. -/
  settled : ∀ c ∈ s.conns, c.pc = .ended → Settled c.counted c.exempt
  because : ∀ c ∈ s.conns, Exempt.Because s.state.shutdown s.serving c.exempt
  counters : ∀ k, s.state.stats.read k = (s.conns.map fun c => c.counted.count k).sum

theorem Inv.admission {s : Server} (hi : s.Inv) : s.Admission where
  reserved := hi.bytes.gauge
  reserved_nonneg := hi.bytes.gauge_nonneg
  reserved_le := hi.bytes.gauge_le
  active := hi.conns.gauge
  active_nonneg := hi.conns.gauge_nonneg
  active_le := hi.conns.gauge_le
  idle hc hs hf := by
    have hb : s.byteTickets = [] := by
      simp only [byteTickets, Sink.tickets, hs, hf, List.map_nil, List.append_nil,
        List.flatMap_eq_nil_iff]
      intro c hmem
      rw [hc c hmem]
      rfl
    have hg : s.connTickets = [] := by
      simp only [connTickets, List.flatMap_eq_nil_iff]
      intro c hmem
      rw [hc c hmem]
      rfl
    exact ⟨Books.idle (hb ▸ hi.bytes), Books.idle (hg ▸ hi.conns)⟩
  settled c hc he := by
    have ho := hi.ok c hc
    unfold Conn.Ok at ho
    rw [he] at ho
    exact ho
  because := hi.because
  counters := hi.counters

/-- Every reachable state of the server keeps the account of its admissions. -/
theorem reachable_admission {s : Server} (h : Reachable Init Step s) : s.Admission :=
  (Inv.of_reachable h).admission

/-! ## A connection that the server leaves behind -/

/-- The server of `run_server_bounded` with one place in each channel. -/
def fresh : Server where
  state := {
    sink := .bounded ⟨[], 1, true⟩ ⟨[], 1, true⟩
    shutdown := false
    limits := .default
    bytes := IngressLimits.default.payloadBudgetBytes
    connections := IngressLimits.default.maxConnections
    stats := .zero }
  conns := []
  frames := []
  serving := .running

/-- The server after an accept has failed, and the one connection it had ended. -/
def leftBehind : Server where
  state := { fresh.state with stats := { IngressStats.zero with peakConnections := 1 } }
  conns := [⟨.ended, [], some .aborted⟩]
  frames := []
  serving := .failed

/-- A connection is accepted and its reader waits for the header; the next accept
fails, the loop returns the error, and the reader is aborted. -/
theorem leftBehind_reachable : Reachable Init Step leftBehind := by
  have h₀ : Reachable Init Step fresh :=
    .of_init ⟨fresh.state.sink, false, .default, fresh.state, rfl, rfl, rfl⟩
  have h₁ := h₀.tail (.accept rfl)
  have h₂ := h₁.tail (@Step.move _ [] [] _ _ _ rfl (.acquire (by decide)))
  have h₃ := h₂.tail (@Step.move _ [] [] _ _ _ rfl .enter)
  have h₄ := h₃.tail (.acceptError rfl)
  have h₅ := h₄.tail (@Step.abort _ [] [] _ _ _ rfl (by decide) trivial)
  have h₆ := h₅.tail (@Step.move _ [] [] _ _ _ rfl .leave)
  exact h₆.tail (@Step.move _ [] [] _ _ _ rfl .part)

/-- That connection ended without a shutdown and counted no outcome. -/
theorem leftBehind_uncounted : Reachable Init Step leftBehind ∧
    leftBehind.state.shutdown = false ∧
    leftBehind.conns = [⟨.ended, [], some .aborted⟩] ∧
    ∀ k, leftBehind.state.stats.read k = 0 :=
  ⟨leftBehind_reachable, rfl, rfl, fun k => by cases k <;> rfl⟩

theorem reachable_admission_leftBehind :
    Reachable Init Step leftBehind ∧ leftBehind.Admission :=
  ⟨leftBehind_reachable, reachable_admission leftBehind_reachable⟩

end Server

end AgentOtelBridge.Ipc
