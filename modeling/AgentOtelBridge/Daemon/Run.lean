import AgentOtelBridge.Daemon.Pipeline
import AgentOtelBridge.Daemon.SpanAssembler

/-!
# A run of the daemon

The loop of `Daemon::run` takes frames from the ingress channel, transforms each into
an event, lets the assembler pair it, batches the spans that come out and offers full
batches to the export queue.  It ends in five ways, and then the daemon drains the
channel, flushes the batcher, drops the queue and waits for the worker.

One step of the loop is cut where the export worker, which runs beside it, can come
in: `spans` are the spans of the frame at work that are still to be pushed, and
`ready` the batches that are still to be enqueued.  What a frame becomes is up to
`produces`: the transformation reads caches that others fill.  `events` is a ghost,
the events that were transformed.
-/

namespace AgentOtelBridge

open PairBuffer FiniteMap

/-! ## The state -/

/-- The frames the ingress channel holds. -/
def ingressQueueItems : Nat := 4096

/-- What the transformation of a frame yields. -/
structure Outcome where
  span : Span
  agentName : Option String
  totalTokens : Option Nat

/-- Whether `QuotaWorker::activity` takes an activity. -/
abbrev Quotas := String → Option Nat → Bool

/-- Why the loop ends. -/
inductive StopReason where
  | shutdown
  | idle
  | channelClosed
  | server (error : Option String)
deriving DecidableEq, Repr

def StopReason.error : StopReason → Option String
  | .server error => error
  | .shutdown | .idle | .channelClosed => none

inductive Phase where
  | running
  | stopping
  | draining
  | flushing
  | waiting
  | finished
deriving DecidableEq, Repr

structure Daemon (φ ρ : Type*) where
  phase : Phase
  inbox : List φ
  salt : Nat
  processed : Nat
  assembler : SpanAssembler
  spans : List Span
  batch : SpanBatcher ρ Span
  ready : List (ExportBatch ρ Span)
  pipeline : Pipeline ρ Span
  serverError : Option String
  events : List (Event PairKey Span)

namespace Daemon

variable {φ ρ : Type*} [Message ρ]

/-- The daemon before its loop. -/
def start (resource : ρ) (batchSize : Nat) (schemaUrl : String) : Daemon φ ρ where
  phase := .running
  inbox := []
  salt := 0
  processed := 0
  assembler := default
  spans := []
  batch := .withSchema resource batchSize schemaUrl
  ready := []
  pipeline := .new
  serverError := none
  events := []

/-! ## The work on a frame -/

/-- Counters that the daemon itself adds to. -/
def count (d : Daemon φ ρ) (f : Diagnostics → Diagnostics) : Daemon φ ρ :=
  { d with pipeline := { d.pipeline with stats := f d.pipeline.stats } }

def nextSalt (d : Daemon φ ρ) : Nat := (d.salt + 1) % 2 ^ 32

/-- A quota activity, and its count when it is not taken. -/
def noteActivity (d : Daemon φ ρ) (quotas : Option Quotas) (outcome : Outcome) : Daemon φ ρ :=
  match quotas, outcome.agentName with
  | some quotas, some name =>
    if quotas name outcome.totalTokens then d
    else d.count fun stats =>
      { stats with quotaActivityDropped := stats.quotaActivityDropped + 1 }
  | _, _ => d

/-- `transform` up to its loop: the spans that the assembler lets out are at work. -/
def transform (d : Daemon φ ρ) (quotas : Option Quotas) (outcome : Except String Outcome)
    (ord : IterOrder PairKey) (now : Nat) : Daemon φ ρ :=
  match outcome with
  | .error _ => d.count fun stats => { stats with invalid := stats.invalid + 1 }
  | .ok outcome =>
    let d := { d with salt := d.nextSalt }.noteActivity quotas outcome
    let d := d.count fun stats => { stats with transformed := stats.transformed + 1 }
    let (spans, assembler) := d.assembler.observe ord outcome.span now
    { d with
      spans := spans
      assembler := assembler
      events := d.events ++ [⟨outcome.span, now, ord⟩] }

/-- One span of the loop of `transform`: a full batch is handed out before and after. -/
def push (d : Daemon φ ρ) (span : Span) (rest : List Span) (now : Nat) : Daemon φ ρ :=
  match d.batch.tryPush span now with
  | (.ok ready, batch) =>
    let (full, batch) := if batch.isFull then batch.take else (none, batch)
    { d with spans := rest, batch := batch, ready := ready.toList ++ full.toList }
  | (.error _, batch) =>
    { d.count (fun stats => { stats with spanSize := stats.spanSize + 1 }) with
      spans := rest, batch := batch }

def takeDue (d : Daemon φ ρ) (now timeout : Nat) : Daemon φ ρ :=
  let (ready, batch) := d.batch.takeDue now timeout
  { d with batch := batch, ready := ready.toList }

/-- The batcher hands out what it has. -/
def flush (d : Daemon φ ρ) : Daemon φ ρ :=
  let (ready, batch) := d.batch.take
  { d with phase := .flushing, batch := batch, ready := ready.toList }

/-! ## Steps -/

/-- No frame is at work. -/
def Free (d : Daemon φ ρ) : Prop := d.spans = [] ∧ d.ready = []

/-- The steps of the daemon and of its export worker. -/
inductive Step (produces : φ → Nat → Except String Outcome → Prop) (timeout : Nat)
    (d : Daemon φ ρ) : Daemon φ ρ → Prop where
  /-- The server sends until the channel is closed. -/
  | arrive (frame : φ) (hp : d.phase = .running ∨ d.phase = .stopping)
      (hroom : d.inbox.length < ingressQueueItems) :
      Step produces timeout d { d with inbox := d.inbox ++ [frame] }
  | frame {frame : φ} {rest : List φ} {outcome : Except String Outcome} (hp : d.phase = .running)
      (hf : d.Free) (hn : d.processed < 64) (hi : d.inbox = frame :: rest) (quotas : Quotas)
      (ho : produces frame d.nextSalt outcome) (ord : IterOrder PairKey) (now : Nat) :
      Step produces timeout d ({ d with inbox := rest, processed := d.processed + 1 }.transform
        (some quotas) outcome ord now)
  /-- After 64 frames what is due is taken and the others are let run. -/
  | pause (hp : d.phase = .running) (hf : d.Free) (hn : 64 ≤ d.processed) (now : Nat) :
      Step produces timeout d { d.takeDue now timeout with processed := 0 }
  | tick (hp : d.phase = .running) (hf : d.Free) (hn : d.processed < 64) (now : Nat) :
      Step produces timeout d (d.takeDue now timeout)
  | push {span : Span} {rest : List Span} (hs : d.spans = span :: rest) (hr : d.ready = [])
      (now : Nat) : Step produces timeout d (d.push span rest now)
  | enqueue {batch : ExportBatch ρ Span} {rest : List (ExportBatch ρ Span)}
      (hr : d.ready = batch :: rest) :
      Step produces timeout d { d with ready := rest, pipeline := d.pipeline.enqueue batch }
  | stop (hp : d.phase = .running) (hf : d.Free) (reason : StopReason) :
      Step produces timeout d { d with phase := .stopping, serverError := reason.error }
  /-- The server has ended or is aborted, and the channel is closed. -/
  | close (hp : d.phase = .stopping) : Step produces timeout d { d with phase := .draining }
  | drain {frame : φ} {rest : List φ} {outcome : Except String Outcome}
      (hp : d.phase = .draining) (hf : d.Free) (hi : d.inbox = frame :: rest)
      (ho : produces frame d.nextSalt outcome) (ord : IterOrder PairKey) (now : Nat) :
      Step produces timeout d ({ d with inbox := rest }.transform none outcome ord now)
  /-- A frame that is drained after the deadline is dropped. -/
  | dropFrame {frame : φ} {rest : List φ} (hp : d.phase = .draining) (hf : d.Free)
      (hi : d.inbox = frame :: rest) :
      Step produces timeout d { d with
        inbox := rest
        pipeline := { d.pipeline with
          stats := d.pipeline.stats.add .shutdownDropped 1
          frames := d.pipeline.frames + 1 } }
  | flush (hp : d.phase = .draining) (hf : d.Free) (hi : d.inbox = []) :
      Step produces timeout d d.flush
  | dropQueue (hp : d.phase = .flushing) (hf : d.Free) :
      Step produces timeout d { d with
        phase := .waiting, pipeline := { d.pipeline with senderOpen := false } }
  /-- The worker receives a batch, finishes one, or ends when the queue is gone. -/
  | recv {item : QueuedBatch ρ Span} {rest : List (QueuedBatch ρ Span)}
      (hw : d.pipeline.worker = .idle) (hq : d.pipeline.queue = item :: rest) :
      Step produces timeout d { d with pipeline := d.pipeline.recv item rest }
  | finish {item : QueuedBatch ρ Span} (hw : d.pipeline.worker = .exporting item)
      {report : Exporter.ExportReport} (hr : Pipeline.Reports item.batch report) :
      Step produces timeout d { d with pipeline := d.pipeline.finish item report }
  | workerEnds (hw : d.pipeline.worker = .idle) (hq : d.pipeline.queue = [])
      (hs : d.pipeline.senderOpen = false) :
      Step produces timeout d { d with
        pipeline := { d.pipeline with worker := .gone, receiverOpen := false } }
  /-- The deadline passes before the worker ends. -/
  | abort (hp : d.phase = .waiting) :
      Step produces timeout d { d with pipeline := d.pipeline.cancel }
  | finished (hp : d.phase = .waiting) (hw : d.pipeline.worker = .gone) :
      Step produces timeout d { d with phase := .finished }

/-- What `Daemon::run` returns. -/
def result (d : Daemon φ ρ) : Except String Unit :=
  match d.serverError with
  | some error => .error error
  | none => .ok ()

end Daemon

end AgentOtelBridge
