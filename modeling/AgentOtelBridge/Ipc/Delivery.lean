import AgentOtelBridge.Ipc.Envelope
import AgentOtelBridge.Ipc.Server

/-!
# From a hook to a frame

A hook connects, checks its deadline and writes its frame; it is killed at any time, and its write
may fail after any number of bytes.  The reader of the connection takes the bytes as they come, and
`read_exact` is done when the header, and then the payload, is in its buffer.

A `Socket` is a connection as both ends see it.  `Socket.Holds` says what it holds while the reader
stands at some place: read, buffered, sent and unsent bytes are those of the sender, in their order.
So what the reader queues is a frame its sender has written whole (`Socket.Holds.whole`).
-/

namespace AgentOtelBridge.Ipc

/-! ## The sender -/

/-- `MAX_STDIN_BYTES`. -/
def maxStdinBytes : Nat := 256 * 1024

/-- What a hook is to send: its header, the context it inherits and what it reads of its input. -/
structure Hook where
  header : WireHeader
  traceparent : Option String
  stdin : List UInt8
  capped : stdin.length ≤ maxStdinBytes

def Hook.payload (hook : Hook) : List UInt8 :=
  encodeContextPayload hook.header hook.traceparent hook.stdin

/-- A hook, or any other process that writes to the socket. -/
inductive Sender where
  | hook (invocation : Hook)
  | other (bytes : List UInt8)

def Sender.bytes : Sender → List UInt8
  | .hook invocation => frameBytes .hookPayloadWithContext invocation.payload
  | .other bytes => bytes

/-- The stages at which an attempt on a Unix socket fails. -/
inductive SendStage where
  | connect
  | submit
  | deadline
deriving DecidableEq, Repr

/-- Where `attempt_send_until` stands once its stream is connected. -/
inductive Sending where
  | connected
  | writing
  | complete (result : Except SendStage Nat)
  | killed

def Sending.underway : Sending → Prop
  | .connected | .writing => True
  | .complete _ | .killed => False

/-! ## The socket -/

/-- A connection as both ends see it.  `delivered` is a ghost, what its reader has queued. -/
structure Socket where
  sender : Sender
  sending : Sending
  /-- The bytes that are still to be written. -/
  rest : List UInt8
  /-- The bytes that are written and not read. -/
  wire : List UInt8
  /-- The bytes that `read_exact` has so far. -/
  buffer : List UInt8
  delivered : Option (MsgType × List UInt8)

namespace Socket

/-- `UnixStream::connect`. -/
def connect (sender : Sender) : Socket where
  sender := sender
  sending := .connected
  rest := sender.bytes
  wire := []
  buffer := []
  delivered := none

/-- The steps of the sender. -/
inductive Write (k : Socket) : Socket → Prop where
  /-- No time remains. -/
  | deadline (hs : k.sending = .connected) :
      Write k { k with sending := .complete (.error .deadline) }
  | start (hs : k.sending = .connected) : Write k { k with sending := .writing }
  /-- A call of `write` inside `write_all`. -/
  | write {chunk rest : List UInt8} (hs : k.sending = .writing) (hr : k.rest = chunk ++ rest) :
      Write k { k with rest := rest, wire := k.wire ++ chunk }
  | written (hs : k.sending = .writing) (hr : k.rest = []) :
      Write k { k with sending := .complete (.ok k.sender.bytes.length) }
  /-- A call fails, the timeout of the socket included. -/
  | fail (hs : k.sending = .writing) : Write k { k with sending := .complete (.error .submit) }
  /-- The watchdog or a signal ends the process. -/
  | kill (hs : k.sending.underway) : Write k { k with sending := .killed }

end Socket

namespace Pc

/-- How many bytes the `read_exact` asks for that a reader waits in. -/
def wants : Pc → Nat
  | .header => headerLen
  | .payload _ size => size
  | _ => 0

/-- The reader goes on from a send that has queued its message. -/
def admits : Pc → Prop
  | .counting .admitted | .tallying .admitted _ => True
  | _ => False

/-- A move between the two places has to do with the bytes of the socket: a `read_exact` is done or
a message queued. -/
def Touches : Pc → Pc → Prop
  | .header, .sized .. | .header, .counting .invalid | .payload .., .received .. => True
  | .dispatching .., pc' => pc'.admits
  | _, _ => False

/-- The reader has not sent yet. -/
def unsent : Pc → Prop
  | .accepted | .refusing | .entering | .header | .sized .. | .granted .. | .payload ..
  | .received .. | .dispatching .. => True
  | .tallying .. | .dropping .. | .counting _ | .closing | .parting | .ended => False

end Pc

namespace Socket

/-- `read_exact` takes some bytes, none beyond what it asks for. -/
inductive Pull (pc : Pc) (k : Socket) : Socket → Prop where
  | pull {chunk wire : List UInt8} (hw : k.wire = chunk ++ wire)
      (hn : (k.buffer ++ chunk).length ≤ pc.wants) :
      Pull pc k { k with wire := wire, buffer := k.buffer ++ chunk }

/-- What a move of the reader is on its socket. -/
inductive Follows (limits : IngressLimits) (k : Socket) : Pc → Pc → Socket → Prop where
  | header {header : Header} (hb : k.buffer = header.toBytes) :
      Follows limits k .header (.afterHeader limits header) { k with buffer := [] }
  | payload {msgType : MsgType} :
      Follows limits k (.payload msgType k.buffer.length) (.received msgType k.buffer)
        { k with buffer := [] }
  | queue {msgType : MsgType} {payload : List UInt8} {pc' : Pc} (ha : pc'.admits) :
      Follows limits k (.dispatching msgType payload) pc'
        { k with delivered := some (msgType, payload) }
  | keep {pc pc' : Pc} (hk : ¬pc.Touches pc') : Follows limits k pc pc' k

end Socket

/-! ## What the bytes hold -/

/-- The bytes begin with a frame of the message, and some are left. -/
def Carries (bytes : List UInt8) (message : MsgType × List UInt8) (left : List UInt8) : Prop :=
  ∃ header : Header, bytes = header.toBytes ++ (message.2 ++ left) ∧
    decodeHeader header = .ok (message.1, message.2.length)

theorem Hook.length_payload_lt (hook : Hook) : hook.payload.length < 2 ^ 32 := by
  have context := length_sentBytes_le hook.traceparent
  have input := hook.capped
  rw [payload, encodeContextPayload_eq, List.length_append, length_fixedPart, List.length_append]
  unfold maxStdinBytes at input
  unfold maxContextLen at context
  unfold envelopeLen WireHeader.len
  omega

/-- The bytes of a frame carry the message it was made of and no other. -/
theorem Carries.frame {msgType : MsgType} (known : msgType ≠ .unknown) {payload : List UInt8}
    (short : payload.length < 2 ^ 32) {message : MsgType × List UInt8} {left : List UInt8}
    (carries : Carries (frameBytes msgType payload) message left) :
    message = (msgType, payload) ∧ left = [] := by
  obtain ⟨header, bytes, decoded⟩ := carries
  have parts := List.append_inj bytes (by simp)
  have same : (encodeFrame msgType payload).1 = header := by
    have parsed := congrArg Header.ofBytes parts.1
    rw [Header.ofBytes_toBytes, Header.ofBytes_toBytes] at parsed
    exact Option.some.inj parsed
  rw [← same, decodeHeader_encodeFrame known short] at decoded
  have fields := Prod.mk.inj (Except.ok.inj decoded)
  have body : payload = message.2 ++ left := parts.2
  have nothing : left = [] := by
    have size := congrArg List.length body
    rw [List.length_append, ← fields.2] at size
    exact List.eq_nil_of_length_eq_zero (by omega)
  rw [nothing, List.append_nil] at body
  exact ⟨Prod.ext fields.1.symm body.symm, nothing⟩

/-- What a hook's bytes carry is its context envelope, and nothing is left. -/
theorem Carries.hook {hook : Hook} {message : MsgType × List UInt8} {left : List UInt8}
    (carries : Carries (Sender.hook hook).bytes message left) :
    message = (.hookPayloadWithContext, hook.payload) ∧ left = [] :=
  Carries.frame (by decide) hook.length_payload_lt carries

/-- The bytes that the reader has taken out of its buffer, by where it stands. -/
def Pc.HasRead : Pc → List UInt8 → Prop
  | .accepted, read | .refusing, read | .entering, read | .header, read => read = []
  | .sized msgType size, read | .granted msgType size, read | .payload msgType size, read =>
      ∃ header : Header, read = header.toBytes ∧ decodeHeader header = .ok (msgType, size)
  | .received msgType body, read | .dispatching msgType body, read =>
      ∃ header : Header, read = header.toBytes ++ body ∧
        decodeHeader header = .ok (msgType, body.length)
  | .tallying .., _ | .dropping .., _ | .counting _, _ | .closing, _ | .parting, _ | .ended, _ =>
      True

/-- What a socket holds while its reader is at some place. -/
structure Socket.Holds (pc : Pc) (k : Socket) : Prop where
  /-- No byte is lost, repeated or moved. -/
  bytes : ∃ read, pc.HasRead read ∧ k.sender.bytes = read ++ (k.buffer ++ (k.wire ++ k.rest))
  fresh : pc.unsent → k.delivered = none
  delivered : ∀ message, k.delivered = some message →
    ∃ left, Carries k.sender.bytes message left ∧ k.rest <:+ left

/-! ## Moves of the reader -/

theorem Pc.hasRead_afterHeader (limits : IngressLimits) (header : Header) :
    (afterHeader limits header).HasRead header.toBytes := by
  unfold afterHeader
  split
  next => trivial
  next msgType size decoded =>
    split
    next => trivial
    next => exact ⟨header, rfl, decoded⟩

theorem Pc.touches_afterHeader (limits : IngressLimits) (header : Header) :
    Pc.header.Touches (afterHeader limits header) := by
  unfold afterHeader
  split
  next => trivial
  next =>
    split
    next => trivial
    next => trivial

theorem Pc.hasRead_leaveRead {pc : Pc} (hw : pc.waits) (outcome : Option IngressCounter)
    (read : List UInt8) : (pc.leaveRead outcome).HasRead read := by
  cases pc with
  | header => cases outcome <;> trivial
  | payload => trivial
  | _ => exact hw.elim

theorem Pc.hasRead_dispatch (sink : Sink) (msgType : MsgType) (payload : List UInt8) (now : Nat)
    (read : List UInt8) : (dispatch sink msgType payload now).2.1.HasRead read := by
  unfold dispatch
  split
  next => split <;> trivial
  next =>
    split
    next => split <;> trivial
    next => split <;> trivial

/-- A move that does not touch the socket leaves what is known of the bytes. -/
theorem Move.hasRead {g g' : ServerState} {c c' : Conn} (h : Move g c g' c')
    (untouched : ¬c.pc.Touches c'.pc) {read : List UInt8} (has : c.pc.HasRead read) :
    c'.pc.HasRead read := by
  cases h with
  | readHeader header => exact absurd (Pc.touches_afterHeader _ header) untouched
  | readPayload => exact absurd trivial untouched
  | send now => exact Pc.hasRead_dispatch _ _ _ _ _
  | readError hw | deadline hw | cancel hw _ => exact Pc.hasRead_leaveRead hw _ _
  | @release k e size outcome => cases outcome <;> trivial
  | acquire | refuse | enter | reserve | lease | announce => exact has
  | countRefused | exhausted | tally | uncount | count | leave | part => trivial

theorem Pc.unsent_afterDrop (outcome : Option IngressCounter) : ¬(afterDrop outcome).unsent := by
  cases outcome <;> exact id

theorem Pc.unsent_leaveRead {pc : Pc} (hw : pc.waits) (outcome : Option IngressCounter) :
    ¬(pc.leaveRead outcome).unsent := by
  cases pc with
  | header => exact unsent_afterDrop outcome
  | payload => exact id
  | _ => exact hw.elim

/-- A reader that has sent does not send again. -/
theorem Move.unsent {g g' : ServerState} {c c' : Conn} (h : Move g c g' c')
    (later : c'.pc.unsent) : c.pc.unsent := by
  cases h with
  | readError hw | deadline hw | cancel hw _ => exact absurd later (Pc.unsent_leaveRead hw _)
  | release => exact absurd later (Pc.unsent_afterDrop _)
  | acquire | refuse | enter | readHeader | reserve | exhausted | lease | readPayload | announce
  | send => trivial
  | countRefused | tally | uncount | count | leave | part => exact later.elim

theorem Pc.not_unsent_of_admits {pc : Pc} (ha : pc.admits) : ¬pc.unsent := by
  cases pc with
  | counting => exact id
  | tallying => exact id
  | _ => exact ha.elim

theorem Pc.hasRead_of_admits {pc : Pc} (ha : pc.admits) (read : List UInt8) : pc.HasRead read := by
  cases pc with
  | counting => trivial
  | tallying => trivial
  | _ => exact ha.elim

/-! ## What a socket keeps -/

namespace Socket

variable {k k' : Socket} {pc : Pc}

theorem Holds.connect (sender : Sender) : Holds .accepted (connect sender) where
  bytes := ⟨[], rfl, rfl⟩
  fresh _ := rfl
  delivered _ h := by cases h

/-- The sender moves bytes of the rest to the wire. -/
theorem Holds.write (holds : Holds pc k) (step : k.Write k') : Holds pc k' := by
  cases step with
  | @write chunk rest hs hr =>
      obtain ⟨read, has, bytes⟩ := holds.bytes
      refine ⟨⟨read, has, ?_⟩, holds.fresh, ?_⟩
      · rw [bytes, hr, List.append_assoc]
      · intro message sent
        obtain ⟨left, carries, suffix⟩ := holds.delivered message sent
        rw [hr] at suffix
        exact ⟨left, carries, (List.suffix_append chunk rest).trans suffix⟩
  | deadline | start | written | fail | kill => exact ⟨holds.bytes, holds.fresh, holds.delivered⟩

/-- The reader moves bytes of the wire to its buffer. -/
theorem Holds.pull (holds : Holds pc k) (step : k.Pull pc k') : Holds pc k' := by
  cases step with
  | pull hw _ =>
      obtain ⟨read, has, bytes⟩ := holds.bytes
      refine ⟨⟨read, has, ?_⟩, holds.fresh, holds.delivered⟩
      simp only [bytes, hw, List.append_assoc]

/-- The reader moves its buffer to what it has read, queues what it has read, or leaves the socket. -/
theorem Holds.move {g g' : ServerState} {c c' : Conn} (holds : Holds c.pc k)
    (move : Move g c g' c') (follows : k.Follows g.limits c.pc c'.pc k') : Holds c'.pc k' := by
  have fresh : c'.pc.unsent → k.delivered = none := fun later => holds.fresh (move.unsent later)
  obtain ⟨pc, counted, exempt⟩ := c
  obtain ⟨pc', counted', exempt'⟩ := c'
  obtain ⟨read, has, bytes⟩ := holds.bytes
  cases follows with
  | @header header hb =>
      obtain rfl : read = [] := has
      refine ⟨⟨header.toBytes, Pc.hasRead_afterHeader _ header, ?_⟩, fresh, holds.delivered⟩
      rw [bytes, hb]
      rfl
  | payload =>
      obtain ⟨header, rfl, decoded⟩ := has
      refine ⟨⟨header.toBytes ++ k.buffer, ⟨header, rfl, decoded⟩, ?_⟩, fresh, holds.delivered⟩
      rw [bytes, List.append_assoc]
      rfl
  | @queue msgType payload pc' ha =>
      obtain ⟨header, rfl, decoded⟩ := has
      refine ⟨⟨header.toBytes ++ payload, Pc.hasRead_of_admits ha _, bytes⟩,
        fun later => absurd later (Pc.not_unsent_of_admits ha), ?_⟩
      rintro message ⟨rfl⟩
      rw [List.append_assoc] at bytes
      exact ⟨_, ⟨header, bytes, decoded⟩, List.suffix_append_of_suffix (List.suffix_append _ _)⟩
  | keep hk => exact ⟨⟨read, move.hasRead hk has, bytes⟩, fresh, holds.delivered⟩

/-- A move queues what it dispatches, or leaves what its socket has delivered. -/
theorem Follows.delivers {limits : IngressLimits} {pc' : Pc} (follows : k.Follows limits pc pc' k') :
    (k'.delivered = k.delivered ∧
        ∀ msgType payload, pc = .dispatching msgType payload → ¬pc'.admits) ∨
      ∃ msgType payload, pc = .dispatching msgType payload ∧ pc'.admits ∧
        k'.delivered = some (msgType, payload) := by
  cases follows with
  | header | payload => exact .inl ⟨rfl, by rintro msgType payload ⟨⟩⟩
  | queue ha => exact .inr ⟨_, _, rfl, ha, rfl⟩
  | keep hk =>
      refine .inl ⟨rfl, ?_⟩
      rintro msgType payload rfl
      exact hk

/-- The reader leaves a read. -/
theorem Holds.leave (holds : Holds pc k) (hw : pc.waits) (outcome : Option IngressCounter) :
    Holds (pc.leaveRead outcome) k := by
  obtain ⟨read, -, bytes⟩ := holds.bytes
  exact ⟨⟨read, Pc.hasRead_leaveRead hw outcome read, bytes⟩,
    fun later => absurd later (Pc.unsent_leaveRead hw outcome), holds.delivered⟩

/-- What was queued of a hook is its envelope, and the hook has written all of its frame. -/
theorem Holds.whole (holds : Holds pc k) {hook : Hook} (sender : k.sender = .hook hook)
    {message : MsgType × List UInt8} (queued : k.delivered = some message) :
    message = (.hookPayloadWithContext, hook.payload) ∧ k.rest = [] := by
  obtain ⟨left, carries, suffix⟩ := holds.delivered message queued
  rw [sender] at carries
  obtain ⟨same, rfl⟩ := carries.hook
  exact ⟨same, List.suffix_nil.mp suffix⟩

end Socket

end AgentOtelBridge.Ipc
