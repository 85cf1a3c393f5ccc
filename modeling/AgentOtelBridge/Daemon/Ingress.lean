import AgentOtelBridge.Daemon.Run
import AgentOtelBridge.Ipc.Server

/-!
# The daemon and its server

The readers of the server queue frames that the loop of the daemon takes.  The
channel between them is the channel of the events on the one side and the inbox on
the other, so a state of `Ingress` is a state of each, and a step is a step of one
of them, or of both where a frame is queued or taken.

The drain loop starts when the server task has ended.  After a shutdown that is
when its readers have been joined; after the error of an accept they have only been
told to stop.  `sent` and `taken` are ghosts: the frames that were queued and those
that were taken, in their orders.
-/

namespace AgentOtelBridge

open PairBuffer
open Ipc (IngressFrame Sink)

/-! ## The channel of the events -/

namespace Ipc

def Sink.events? : Sink → Option (Channel IngressFrame)
  | .legacy _ => none
  | .bounded events _ => some events

/-- `rx.close()`. -/
def Sink.closeEvents : Sink → Sink
  | .legacy tx => .legacy tx
  | .bounded events control => .bounded { events with isOpen := false } control

/-- The server task has ended: it has joined its readers, or an accept has failed. -/
def Server.Ended (s : Server) : Prop :=
  s.serving = .failed ∨ s.serving = .shutDown ∧ ∀ c ∈ s.conns, c.pc = .ended

end Ipc

/-! ## Steps -/

structure Ingress (ρ : Type*) where
  server : Ipc.Server
  daemon : Daemon IngressFrame ρ
  sent : List IngressFrame
  taken : List IngressFrame

namespace Ingress

variable {ρ : Type*} [Message ρ]

/-- The daemon before its loop, with the server it has spawned. -/
def Init (resource : ρ) (batchSize : Nat) (schemaUrl : String) (j : Ingress ρ) : Prop :=
  ∃ (shutdown : Bool) (limits : Ipc.IngressLimits) (state : Ipc.ServerState),
    Ipc.ServerState.new (.bounded ⟨[], ingressQueueItems, true⟩ ⟨[], 8, true⟩) shutdown limits .zero =
      .ok state ∧
    j = ⟨⟨state, [], [], .running⟩, .start resource batchSize schemaUrl, [], []⟩

/-- The steps of the two.  A frame holds its lease until the work on it is done, and
the daemon goes on then. -/
inductive Step (produces : IngressFrame → Nat → Except String Outcome → Prop) (timeout : Nat)
    (j : Ingress ρ) : Ingress ρ → Prop where
  /-- The server works, or the lease of a frame is dropped. -/
  | serve {server : Ipc.Server} (hs : j.server.Step server)
      (hq : server.state.sink.events? = j.server.state.sink.events?) :
      Step produces timeout j { j with server := server }
  /-- A reader queues a frame. -/
  | send {server : Ipc.Server} {frame : IngressFrame} (hs : j.server.Step server)
      (hq : server.state.sink.frames = j.server.state.sink.frames ++ [frame]) :
      Step produces timeout j { j with
        server := server
        daemon := { j.daemon with inbox := j.daemon.inbox ++ [frame] }
        sent := j.sent ++ [frame] }
  /-- The loop or the drain takes a frame. -/
  | take {sink : Sink} {daemon : Daemon IngressFrame ρ} {frame : IngressFrame}
      {rest : List IngressFrame}
      (hs : j.server.state.sink.Consume sink [⟨frame.payload.length, .live⟩])
      (hi : j.daemon.inbox = frame :: rest) (hd : Daemon.Step produces timeout j.daemon daemon)
      (hi' : daemon.inbox = rest) (hf : j.server.frames = []) :
      Step produces timeout j { j with
        server := { j.server with
          state := { j.server.state with sink := sink }
          frames := [⟨frame.payload.length, .live⟩] }
        daemon := daemon
        taken := j.taken ++ [frame] }
  /-- The daemon or its export worker works. -/
  | work {daemon : Daemon IngressFrame ρ} (hd : Daemon.Step produces timeout j.daemon daemon)
      (hi : daemon.inbox = j.daemon.inbox) (hp : daemon.phase = j.daemon.phase) :
      Step produces timeout j { j with daemon := daemon }
  /-- The loop ends and cancels the token. -/
  | stop (hp : j.daemon.phase = .running) (hf : j.daemon.Free) (hl : j.server.frames = [])
      (reason : StopReason) (hr : ∀ error, reason = .server error → j.server.Ended) :
      Step produces timeout j { j with
        server := { j.server with state := { j.server.state with shutdown := true } }
        daemon := { j.daemon with phase := .stopping, serverError := reason.error } }
  /-- The server task has ended, and the channel is closed. -/
  | close (hp : j.daemon.phase = .stopping) (he : j.server.Ended) :
      Step produces timeout j { j with
        server := { j.server with
          state := { j.server.state with sink := j.server.state.sink.closeEvents } }
        daemon := { j.daemon with phase := .draining } }
  /-- The daemon goes on from the drain. -/
  | wind {daemon : Daemon IngressFrame ρ} (hd : Daemon.Step produces timeout j.daemon daemon)
      (hp : j.daemon.phase = .draining ∨ j.daemon.phase = .flushing ∨ j.daemon.phase = .waiting)
      (hp' : daemon.phase ≠ j.daemon.phase) (hl : j.server.frames = []) :
      Step produces timeout j { j with daemon := daemon }

end Ingress

end AgentOtelBridge
