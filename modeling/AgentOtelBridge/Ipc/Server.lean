import AgentOtelBridge.Ipc.Frame
import AgentOtelBridge.Lib.Lease

/-!
# The ingress server

The server accepts connections and a reader handles each of them: it reads a
header, reserves the bytes of the payload, reads the payload and hands the message
to the sink.  A connection holds a guard on the pool of connections, and a frame a
byte lease on the pool of bytes; the lease goes with the frame when the frame is
queued.

A `Move` is one update of what the readers share, made by one connection: a try
for permits, a counter, a send, a read that completes.  `Step` interleaves the
moves of all connections with the accept loop and with the consumers of the
channels.  What a client sends is arbitrary, and so is when a read fails or the
deadline passes; a reader is cancelled or aborted only where it waits.

`counted` and `exempt` are ghosts: the outcomes a connection has counted, and why
it counts none.
-/

namespace AgentOtelBridge.Ipc

open Lease

structure IngressLimits where
  maxFrameBytes : Nat
  maxConnections : Nat
  payloadBudgetBytes : Nat
  readTimeout : Nat
deriving DecidableEq, Repr

/-- The limits `run_server` uses.  Times are milliseconds. -/
def IngressLimits.default : IngressLimits where
  maxFrameBytes := 16 * 1024 * 1024
  maxConnections := 32
  payloadBudgetBytes := 32 * 1024 * 1024
  readTimeout := 100

/-- The counters of the ways a connection ends. -/
inductive IngressCounter where
  | admitted
  | invalid
  | readFailed
  | readDeadline
  | capacity
  | controlDropped
deriving DecidableEq, Repr

structure IngressStats where
  received : Nat
  admitted : Nat
  invalid : Nat
  readFailed : Nat
  readDeadline : Nat
  capacity : Nat
  controlDropped : Nat
  reservedBytes : Int
  peakReservedBytes : Int
  activeConnections : Int
  peakConnections : Int
deriving DecidableEq, Repr

namespace IngressStats

def zero : IngressStats := ⟨0, 0, 0, 0, 0, 0, 0, 0, 0, 0, 0⟩

def read (stats : IngressStats) : IngressCounter → Nat
  | .admitted => stats.admitted
  | .invalid => stats.invalid
  | .readFailed => stats.readFailed
  | .readDeadline => stats.readDeadline
  | .capacity => stats.capacity
  | .controlDropped => stats.controlDropped

/-- `fetch_add(1)` of a counter. -/
def count (stats : IngressStats) : IngressCounter → IngressStats
  | .admitted => { stats with admitted := stats.admitted + 1 }
  | .invalid => { stats with invalid := stats.invalid + 1 }
  | .readFailed => { stats with readFailed := stats.readFailed + 1 }
  | .readDeadline => { stats with readDeadline := stats.readDeadline + 1 }
  | .capacity => { stats with capacity := stats.capacity + 1 }
  | .controlDropped => { stats with controlDropped := stats.controlDropped + 1 }

theorem read_count (stats : IngressStats) (k k' : IngressCounter) :
    (stats.count k).read k' = stats.read k' + [k].count k' := by
  cases k <;> cases k' <;> rfl

@[simp] theorem count_reservedBytes (stats : IngressStats) (k : IngressCounter) :
    (stats.count k).reservedBytes = stats.reservedBytes := by
  cases k <;> rfl

@[simp] theorem count_activeConnections (stats : IngressStats) (k : IngressCounter) :
    (stats.count k).activeConnections = stats.activeConnections := by
  cases k <;> rfl

/-- `fetch_add` of a lease, and `fetch_max` of the peak. -/
def reserve (stats : IngressStats) (size : Nat) : IngressStats :=
  let bytes := stats.reservedBytes + size
  { stats with reservedBytes := bytes, peakReservedBytes := max stats.peakReservedBytes bytes }

/-- `ByteLease::drop`. -/
def unreserve (stats : IngressStats) (size : Nat) : IngressStats :=
  { stats with reservedBytes := stats.reservedBytes - size }

def enter (stats : IngressStats) : IngressStats :=
  let count := stats.activeConnections + 1
  { stats with activeConnections := count, peakConnections := max stats.peakConnections count }

/-- `ConnectionLease::drop`. -/
def leave (stats : IngressStats) : IngressStats :=
  { stats with activeConnections := stats.activeConnections - 1 }

end IngressStats

/-! ## The sink -/

/-- A bounded channel, with what waits in it. -/
structure Channel (α : Type*) where
  items : List α
  capacity : Nat
  isOpen : Bool

/-- `try_send`: the channel with the item, unless it is closed or full. -/
def Channel.trySend {α : Type*} (ch : Channel α) (item : α) : Option (Channel α) :=
  if ch.isOpen ∧ ch.items.length < ch.capacity then
    some { ch with items := ch.items ++ [item] }
  else none

theorem Channel.trySend_some {α : Type*} {ch ch' : Channel α} {item : α}
    (h : ch.trySend item = some ch') : ch'.items = ch.items ++ [item] := by
  unfold Channel.trySend at h
  split at h
  · cases h
    rfl
  · cases h

/-- A frame holds a byte lease of the length of its payload. -/
structure IngressFrame where
  msgType : MsgType
  payload : List UInt8
  receivedAt : Nat
deriving DecidableEq, Repr

inductive Sink where
  | legacy (tx : Channel (MsgType × List UInt8))
  | bounded (events : Channel IngressFrame) (control : Channel MsgType)

/-- The frames in the channel of the events. -/
def Sink.frames : Sink → List IngressFrame
  | .legacy _ => []
  | .bounded events _ => events.items

/-! ## The state that readers share -/

structure ServerState where
  sink : Sink
  shutdown : Bool
  limits : IngressLimits
  bytes : Nat
  connections : Nat
  stats : IngressStats

/-- `ServerState::new`. -/
def ServerState.new (sink : Sink) (shutdown : Bool) (limits : IngressLimits)
    (stats : IngressStats) : Except String ServerState :=
  if limits.maxConnections = 0 ∨ limits.maxConnections > 4096 ∨ limits.maxFrameBytes = 0 ∨
      limits.maxFrameBytes > 16 * 1024 * 1024 ∨
      limits.payloadBudgetBytes < limits.maxFrameBytes ∨
      limits.payloadBudgetBytes > 2 ^ 32 - 1 ∨ limits.readTimeout = 0 then
    .error "invalid ingress limits"
  else
    .ok {
      sink, shutdown, limits, stats
      bytes := limits.payloadBudgetBytes
      connections := limits.maxConnections }

theorem ServerState.new_ok {sink : Sink} {shutdown : Bool} {limits : IngressLimits}
    {stats : IngressStats} {state : ServerState} (h : new sink shutdown limits stats = .ok state) :
    state = ⟨sink, shutdown, limits, limits.payloadBudgetBytes, limits.maxConnections, stats⟩ := by
  unfold new at h
  split at h
  · cases h
  · cases h
    rfl

/-! ## Connections -/

/-- Where the handling of a connection stands. -/
inductive Pc where
  /-- `spawn_reader` is about to try for a permit. -/
  | accepted
  /-- There was none: about to count. -/
  | refusing
  /-- The permit is taken, the connection not counted. -/
  | entering
  /-- The reader waits for the header. -/
  | header
  /-- About to try for the permits of the payload. -/
  | sized (msgType : MsgType) (size : Nat)
  /-- The permits are taken, the bytes not counted. -/
  | granted (msgType : MsgType) (size : Nat)
  /-- The reader waits for the payload. -/
  | payload (msgType : MsgType) (size : Nat)
  /-- The payload is read: about to cancel the token, when it is to. -/
  | received (msgType : MsgType) (payload : List UInt8)
  /-- About to send. -/
  | dispatching (msgType : MsgType) (payload : List UInt8)
  /-- About to count, with the lease still held. -/
  | tallying (outcome : IngressCounter) (size : Nat)
  /-- The lease is dropped, and then the outcome counted. -/
  | dropping (size : Nat) (phase : Phase) (outcome : Option IngressCounter)
  /-- About to count, without a lease. -/
  | counting (outcome : IngressCounter)
  /-- The task ends: the guard is dropped. -/
  | closing
  /-- The guard is not counted any more, its permit not given back. -/
  | parting
  | ended
deriving DecidableEq, Repr

/-- Why a connection counts no outcome. -/
inductive Exempt where
  | handedOver
  | cancelled
  | aborted
deriving DecidableEq, Repr

structure Conn where
  pc : Pc
  counted : List IngressCounter
  exempt : Option Exempt
deriving DecidableEq, Repr

namespace Pc

/-- The byte lease a connection holds. -/
def byteTickets : Pc → List Ticket
  | .granted _ size => [⟨size, .reserved⟩]
  | .payload _ size => [⟨size, .live⟩]
  | .received _ body => [⟨body.length, .live⟩]
  | .dispatching _ body => [⟨body.length, .live⟩]
  | .tallying _ size => [⟨size, .live⟩]
  | .dropping size phase _ => [⟨size, phase⟩]
  | .accepted | .refusing | .entering | .header | .sized .. | .counting _ | .closing | .parting
  | .ended => []

/-- The guard a connection holds. -/
def connTickets : Pc → List Ticket
  | .accepted | .refusing | .ended => []
  | .entering => [⟨1, .reserved⟩]
  | .parting => [⟨1, .released⟩]
  | .header | .sized .. | .granted .. | .payload .. | .received .. | .dispatching .. | .tallying ..
  | .dropping .. | .counting _ | .closing => [⟨1, .live⟩]

/-- Where `read` goes with a header. -/
def afterHeader (limits : IngressLimits) (header : Header) : Pc :=
  match decodeHeader header with
  | .error _ => .counting .invalid
  | .ok (msgType, size) =>
    if size > limits.maxFrameBytes ∨ msgType = .unknown then .counting .invalid
    else .sized msgType size

/-- Where a connection goes when its lease is dropped. -/
def afterDrop : Option IngressCounter → Pc
  | some outcome => .counting outcome
  | none => .closing

/-- Where a connection goes when it leaves a read: a lease is dropped first. -/
def leaveRead (pc : Pc) (outcome : Option IngressCounter) : Pc :=
  match pc with
  | .payload _ size => .dropping size .live outcome
  | _ => afterDrop outcome

/-- The reader waits: for the header or for the payload. -/
def waits : Pc → Prop
  | .header | .payload .. => True
  | _ => False

end Pc

/-- The end of `read`: the sink after the send, where the connection goes, and
whether it is exempt. -/
def dispatch (sink : Sink) (msgType : MsgType) (payload : List UInt8) (receivedAt : Nat) :
    Sink × Pc × Option Exempt :=
  match sink with
  | .legacy tx =>
    match tx.trySend (msgType, payload) with
    | some tx' => (.legacy tx', .tallying .admitted payload.length, none)
    | none => (sink, .tallying .capacity payload.length, none)
  | .bounded events control =>
    if msgType = .hookPayload ∨ msgType = .hookPayloadWithContext then
      -- A frame that is not sent is dropped with its lease before the outcome is counted.
      match events.trySend ⟨msgType, payload, receivedAt⟩ with
      | some events' => (.bounded events' control, .counting .admitted, none)
      | none => (sink, .dropping payload.length .live (some .capacity), none)
    else
      match control.trySend msgType with
      | some control' =>
          (.bounded events control', .dropping payload.length .live none, some .handedOver)
      | none => (sink, .tallying .controlDropped payload.length, none)

/-- One update of the shared state by one connection. -/
inductive Move (g : ServerState) : Conn → ServerState → Conn → Prop where
  | acquire {k : List IngressCounter} {e : Option Exempt} (hfree : 0 < g.connections) :
      Move g ⟨.accepted, k, e⟩ { g with connections := g.connections - 1 } ⟨.entering, k, e⟩
  | refuse {k : List IngressCounter} {e : Option Exempt} (hfull : g.connections = 0) :
      Move g ⟨.accepted, k, e⟩ g ⟨.refusing, k, e⟩
  | countRefused {k : List IngressCounter} {e : Option Exempt} :
      Move g ⟨.refusing, k, e⟩ { g with stats := g.stats.count .capacity }
        ⟨.ended, k ++ [.capacity], e⟩
  | enter {k : List IngressCounter} {e : Option Exempt} :
      Move g ⟨.entering, k, e⟩ { g with stats := g.stats.enter } ⟨.header, k, e⟩
  | readHeader {k : List IngressCounter} {e : Option Exempt} (header : Header) :
      Move g ⟨.header, k, e⟩ g ⟨.afterHeader g.limits header, k, e⟩
  | reserve {k : List IngressCounter} {e : Option Exempt} {msgType : MsgType} {size : Nat}
      (hfree : size ≤ g.bytes) :
      Move g ⟨.sized msgType size, k, e⟩ { g with bytes := g.bytes - size }
        ⟨.granted msgType size, k, e⟩
  | exhausted {k : List IngressCounter} {e : Option Exempt} {msgType : MsgType} {size : Nat}
      (hfull : g.bytes < size) :
      Move g ⟨.sized msgType size, k, e⟩ g ⟨.counting .capacity, k, e⟩
  | lease {k : List IngressCounter} {e : Option Exempt} {msgType : MsgType} {size : Nat} :
      Move g ⟨.granted msgType size, k, e⟩ { g with stats := g.stats.reserve size }
        ⟨.payload msgType size, k, e⟩
  | readPayload {k : List IngressCounter} {e : Option Exempt} {msgType : MsgType} {size : Nat}
      (payload : List UInt8) (hlen : payload.length = size) :
      Move g ⟨.payload msgType size, k, e⟩
        { g with stats := { g.stats with received := g.stats.received + 1 } }
        ⟨.received msgType payload, k, e⟩
  | announce {k : List IngressCounter} {e : Option Exempt} {msgType : MsgType}
      {payload : List UInt8} :
      Move g ⟨.received msgType payload, k, e⟩
        { g with shutdown := g.shutdown || msgType == .shutdown }
        ⟨.dispatching msgType payload, k, e⟩
  | send {k : List IngressCounter} {e : Option Exempt} {msgType : MsgType} {payload : List UInt8}
      (now : Nat) :
      Move g ⟨.dispatching msgType payload, k, e⟩
        { g with sink := (dispatch g.sink msgType payload now).1 }
        ⟨(dispatch g.sink msgType payload now).2.1, k,
          e.or (dispatch g.sink msgType payload now).2.2⟩
  | tally {k : List IngressCounter} {e : Option Exempt} {outcome : IngressCounter} {size : Nat} :
      Move g ⟨.tallying outcome size, k, e⟩ { g with stats := g.stats.count outcome }
        ⟨.dropping size .live none, k ++ [outcome], e⟩
  | uncount {k : List IngressCounter} {e : Option Exempt} {size : Nat}
      {outcome : Option IngressCounter} :
      Move g ⟨.dropping size .live outcome, k, e⟩ { g with stats := g.stats.unreserve size }
        ⟨.dropping size .released outcome, k, e⟩
  | release {k : List IngressCounter} {e : Option Exempt} {size : Nat}
      {outcome : Option IngressCounter} :
      Move g ⟨.dropping size .released outcome, k, e⟩ { g with bytes := g.bytes + size }
        ⟨.afterDrop outcome, k, e⟩
  | count {k : List IngressCounter} {e : Option Exempt} {outcome : IngressCounter} :
      Move g ⟨.counting outcome, k, e⟩ { g with stats := g.stats.count outcome }
        ⟨.closing, k ++ [outcome], e⟩
  /-- The read fails. -/
  | readError {pc : Pc} {k : List IngressCounter} {e : Option Exempt} (hw : pc.waits) :
      Move g ⟨pc, k, e⟩ g ⟨pc.leaveRead (some .readFailed), k, e⟩
  /-- The timeout passes before the read is done. -/
  | deadline {pc : Pc} {k : List IngressCounter} {e : Option Exempt} (hw : pc.waits) :
      Move g ⟨pc, k, e⟩ g ⟨pc.leaveRead (some .readDeadline), k, e⟩
  /-- The token is cancelled. -/
  | cancel {pc : Pc} {k : List IngressCounter} {e : Option Exempt} (hw : pc.waits)
      (hs : g.shutdown = true) :
      Move g ⟨pc, k, e⟩ g ⟨pc.leaveRead none, k, some .cancelled⟩
  | leave {k : List IngressCounter} {e : Option Exempt} :
      Move g ⟨.closing, k, e⟩ { g with stats := g.stats.leave } ⟨.parting, k, e⟩
  | part {k : List IngressCounter} {e : Option Exempt} :
      Move g ⟨.parting, k, e⟩ { g with connections := g.connections + 1 } ⟨.ended, k, e⟩

/-! ## The server -/

/-- How the accept loop stands. -/
inductive Serving where
  | running
  /-- The loop has seen the token. -/
  | shutDown
  /-- The loop has returned the error of an accept. -/
  | failed
deriving DecidableEq, Repr

/-- Why a reader is aborted. -/
def Serving.exempt : Serving → Option Exempt
  | .running => none
  | .shutDown => some .cancelled
  | .failed => some .aborted

/-- The server, its connections, and the leases of the frames that were received
from the channel of the events. -/
structure Server where
  state : ServerState
  conns : List Conn
  frames : List Ticket
  serving : Serving

/-- What the consumers of the channels do to the sink: they receive or close. -/
inductive Sink.Consume : Sink → Sink → List Ticket → Prop where
  | recvLegacy {item : MsgType × List UInt8} {rest : List (MsgType × List UInt8)} {n : Nat}
      {isOpen : Bool} : Consume (.legacy ⟨item :: rest, n, isOpen⟩) (.legacy ⟨rest, n, isOpen⟩) []
  | closeLegacy {tx : Channel (MsgType × List UInt8)} :
      Consume (.legacy tx) (.legacy { tx with isOpen := false }) []
  | recvControl {events : Channel IngressFrame} {item : MsgType} {rest : List MsgType} {n : Nat}
      {isOpen : Bool} :
      Consume (.bounded events ⟨item :: rest, n, isOpen⟩) (.bounded events ⟨rest, n, isOpen⟩) []
  | closeControl {events : Channel IngressFrame} {control : Channel MsgType} :
      Consume (.bounded events control) (.bounded events { control with isOpen := false }) []
  | recvEvent {item : IngressFrame} {rest : List IngressFrame} {n : Nat} {isOpen : Bool}
      {control : Channel MsgType} :
      Consume (.bounded ⟨item :: rest, n, isOpen⟩ control) (.bounded ⟨rest, n, isOpen⟩ control)
        [⟨item.payload.length, .live⟩]
  | closeEvents {events : Channel IngressFrame} {control : Channel MsgType} :
      Consume (.bounded events control) (.bounded { events with isOpen := false } control) []

namespace Server

/-- A server that is about to accept. -/
def Init (s : Server) : Prop :=
  ∃ (sink : Sink) (shutdown : Bool) (limits : IngressLimits) (state : ServerState),
    ServerState.new sink shutdown limits .zero = .ok state ∧ sink.frames = [] ∧
      s = ⟨state, [], [], .running⟩

inductive Step (s : Server) : Server → Prop where
  | accept (hs : s.serving = .running) :
      Step s { s with conns := s.conns ++ [⟨.accepted, [], none⟩] }
  | move {before after : List Conn} {c c' : Conn} {g : ServerState}
      (h : s.conns = before ++ c :: after) (hm : Move s.state c g c') :
      Step s { s with state := g, conns := before ++ c' :: after }
  /-- The token is cancelled from outside. -/
  | cancelToken : Step s { s with state := { s.state with shutdown := true } }
  | stop (hs : s.serving = .running) (hc : s.state.shutdown = true) :
      Step s { s with serving := .shutDown }
  | acceptError (hs : s.serving = .running) : Step s { s with serving := .failed }
  /-- A reader that waits is aborted when the loop is left. -/
  | abort {before after : List Conn} {pc : Pc} {k : List IngressCounter} {e : Option Exempt}
      (h : s.conns = before ++ ⟨pc, k, e⟩ :: after) (hs : s.serving ≠ .running) (hw : pc.waits) :
      Step s { s with conns := before ++ ⟨pc.leaveRead none, k, s.serving.exempt⟩ :: after }
  | consume {sink : Sink} {tickets : List Ticket} (h : s.state.sink.Consume sink tickets) :
      Step s { s with state := { s.state with sink := sink }, frames := tickets ++ s.frames }
  /-- The consumer drops a frame: the lease is not counted any more. -/
  | dropFrame {before after : List Ticket} {w : Nat}
      (h : s.frames = before ++ ⟨w, .live⟩ :: after) :
      Step s { s with
        state := { s.state with stats := s.state.stats.unreserve w }
        frames := before ++ ⟨w, .released⟩ :: after }
  | dropPermit {before after : List Ticket} {w : Nat}
      (h : s.frames = before ++ ⟨w, .released⟩ :: after) :
      Step s { s with
        state := { s.state with bytes := s.state.bytes + w }
        frames := before ++ after }

end Server

end AgentOtelBridge.Ipc
