import AgentOtelBridge.Daemon.Batch
import AgentOtelBridge.Daemon.Diagnostics
import AgentOtelBridge.Lib.Reachable

/-!
# The export pipeline

`enqueue` admits a batch against a budget of bytes and a bounded channel, and the
worker exports what the channel holds, one batch at a time.  A batch that is
dropped gives its bytes back and, unless it was accounted for, counts its spans.

The state carries three ghost fields: the batches that were offered, in order;
the ledger, one charge for every count of spans, with the batch it is for; and
the number of frames the daemon counts in `shutdown_dropped`, which is not a
part of the queue's account.  `Books` is the invariant over the batches that are
alive, and each operation has a lemma that says what it does to the books.
-/

namespace AgentOtelBridge

open Exporter Transition

variable {ρ σ : Type*}

def exportQueueBytes : Nat := 16 * 1024 * 1024
def exportQueueItems : Nat := 64

/-! ## The queue and the worker -/

/-- A batch in the queue or at the worker.  The id is its place among the batches
offered, the permit the bytes of the budget it holds. -/
structure QueuedBatch (ρ σ : Type*) where
  id : Nat
  batch : ExportBatch ρ σ
  permit : Nat
  attempted : Bool
  accounted : Bool

/-- A count of spans of one batch. -/
structure Charge where
  batch : Nat
  counter : Counter
  spans : Nat
deriving DecidableEq, Repr

inductive Worker (ρ σ : Type*) where
  | idle
  | exporting (item : QueuedBatch ρ σ)
  | gone

def Worker.items : Worker ρ σ → List (QueuedBatch ρ σ)
  | .idle => []
  | .exporting item => [item]
  | .gone => []

structure Pipeline (ρ σ : Type*) where
  stats : Diagnostics
  permits : Nat
  queue : List (QueuedBatch ρ σ)
  senderOpen : Bool
  receiverOpen : Bool
  worker : Worker ρ σ
  offered : List (ExportBatch ρ σ)
  ledger : List Charge
  frames : Nat

namespace Pipeline

/-- `ExportQueue::new`, with the worker about to receive. -/
def new : Pipeline ρ σ where
  stats := .zero
  permits := exportQueueBytes
  queue := []
  senderOpen := true
  receiverOpen := true
  worker := .idle
  offered := []
  ledger := []
  frames := 0

/-- The charges for shares of a batch. -/
def chargesFor (id : Nat) (shares : List (Counter × Nat)) : List Charge :=
  shares.map fun share => ⟨id, share.1, share.2⟩

/-- Counts shares of a batch. -/
def charge (p : Pipeline ρ σ) (id : Nat) (shares : List (Counter × Nat)) : Pipeline ρ σ :=
  { p with stats := p.stats.addAll shares, ledger := p.ledger ++ chargesFor id shares }

/-- `QueuedBatch::drop`, and then the permit. -/
def dropBatch (p : Pipeline ρ σ) (item : QueuedBatch ρ σ) : Pipeline ρ σ :=
  let p := { p with stats := { p.stats with
    queuedBytes := p.stats.queuedBytes - item.batch.encodedBytes
    queuedItems := p.stats.queuedItems - 1 } }
  let p :=
    if item.accounted then p
    else
      let counter := if item.attempted then Counter.unknown else Counter.shutdownDropped
      p.charge item.id [(counter, item.batch.count)]
  { p with permits := p.permits + item.permit }

/-- `ExportQueue::enqueue`. -/
def enqueue (p : Pipeline ρ σ) (batch : ExportBatch ρ σ) : Pipeline ρ σ :=
  let id := p.offered.length
  let p := { p with offered := p.offered ++ [batch] }
  -- `try_acquire_many_owned` takes the length as a `u32`.
  let want := batch.encodedBytes % 2 ^ 32
  if p.permits < want then p.charge id [(.exportCapacity, batch.count)]
  else
    let bytes : Int := p.stats.queuedBytes + batch.encodedBytes
    let p := { p with
      permits := p.permits - want
      stats := { p.stats with
        queuedBytes := bytes
        peakQueuedBytes := max p.stats.peakQueuedBytes bytes
        queuedItems := p.stats.queuedItems + 1 } }
    let queued : QueuedBatch ρ σ := ⟨id, batch, want, false, false⟩
    if p.receiverOpen ∧ p.queue.length < exportQueueItems then
      { p with
        queue := p.queue ++ [queued]
        stats := { p.stats with exportQueued := p.stats.exportQueued + batch.count } }
    else
      (p.charge id [(.exportCapacity, batch.count)]).dropBatch { queued with accounted := true }

/-- The worker receives a batch and marks it attempted. -/
def recv (p : Pipeline ρ σ) (item : QueuedBatch ρ σ) (rest : List (QueuedBatch ρ σ)) :
    Pipeline ρ σ :=
  { p with queue := rest, worker := .exporting { item with attempted := true } }

/-- The worker records the report of the batch it exports and drops the batch. -/
def finish (p : Pipeline ρ σ) (item : QueuedBatch ρ σ) (report : ExportReport) : Pipeline ρ σ :=
  let p := { p with
    stats := p.stats.recordExport item.batch.count report
    ledger := p.ledger ++ chargesFor item.id (report.outcome.shares item.batch.count) }
  { p.dropBatch { item with accounted := true } with worker := .idle }

/-- The worker is dropped: the batch it exports, then the receiver with the queue. -/
def cancel (p : Pipeline ρ σ) : Pipeline ρ σ :=
  { (p.worker.items ++ p.queue).foldl dropBatch p with
    queue := [], receiverOpen := false, worker := .gone }

/-- A report the exporter can give for a batch. -/
def Reports (batch : ExportBatch ρ σ) (report : ExportReport) : Prop :=
  ∃ (exporter : OtlpExporter) (codec : Codec) (env : ExportEnv) (deadline : Nat),
    (exporter.export codec env batch.encodedBytes exporter.traces .traces
      batch.request.spans.length deadline).1 = report

/-- The steps of the queue, the worker and the final drops. -/
inductive Step (p : Pipeline ρ σ) : Pipeline ρ σ → Prop where
  | enqueue (hs : p.senderOpen = true) (batch : ExportBatch ρ σ)
      (hfit : batch.encodedBytes < 2 ^ 32) : Step p (p.enqueue batch)
  | recv {item : QueuedBatch ρ σ} {rest : List (QueuedBatch ρ σ)} (hw : p.worker = .idle)
      (hq : p.queue = item :: rest) : Step p (p.recv item rest)
  | finish {item : QueuedBatch ρ σ} (hw : p.worker = .exporting item) {report : ExportReport}
      (hr : Reports item.batch report) : Step p (p.finish item report)
  | cancel : Step p p.cancel
  | closed (hw : p.worker = .idle) (hq : p.queue = []) (hs : p.senderOpen = false) :
      Step p { p with worker := .gone, receiverOpen := false }
  | dropQueue : Step p { p with senderOpen := false }
  /-- The daemon counts a frame it drops in the same counter. -/
  | dropFrame : Step p { p with
      stats := p.stats.add .shutdownDropped 1, frames := p.frames + 1 }

/-! ## The books -/

/-- The batches that are alive. -/
def alive (p : Pipeline ρ σ) : List (QueuedBatch ρ σ) := p.queue ++ p.worker.items

/-- What a ledger charges to a counter. -/
def chargedTo (ledger : List Charge) (c : Counter) : Nat :=
  ((ledger.filter fun charge => charge.counter = c).map Charge.spans).sum

/-- What a ledger charges for a batch. -/
def chargedFor (ledger : List Charge) (id : Nat) : Nat :=
  ((ledger.filter fun charge => charge.batch = id).map Charge.spans).sum

@[simp] theorem chargedTo_append (l l' : List Charge) (c : Counter) :
    chargedTo (l ++ l') c = chargedTo l c + chargedTo l' c := by
  simp [chargedTo]

@[simp] theorem chargedFor_append (l l' : List Charge) (id : Nat) :
    chargedFor (l ++ l') id = chargedFor l id + chargedFor l' id := by
  simp [chargedFor]

@[simp] theorem chargedTo_chargesFor (id : Nat) (shares : List (Counter × Nat)) (c : Counter) :
    chargedTo (chargesFor id shares) c = sharesOf c shares := by
  simp [chargedTo, chargesFor, sharesOf, List.filter_map, Function.comp_def]

theorem chargedFor_chargesFor (id id' : Nat) (shares : List (Counter × Nat)) :
    chargedFor (chargesFor id shares) id' =
      if id = id' then (shares.map Prod.snd).sum else 0 := by
  by_cases h : id = id' <;>
    simp [chargedFor, chargesFor, List.filter_map, Function.comp_def, h]

/-- A ledger without charges for a batch charges nothing for it. -/
theorem chargedFor_eq_zero {ledger : List Charge} {id : Nat}
    (h : ∀ charge ∈ ledger, charge.batch ≠ id) : chargedFor ledger id = 0 := by
  rw [chargedFor, List.filter_eq_nil_iff.mpr fun charge hc => by simpa using h charge hc]
  rfl

def bytesOf (items : List (QueuedBatch ρ σ)) : Nat :=
  (items.map fun item => item.batch.encodedBytes).sum

def spansOf (items : List (QueuedBatch ρ σ)) : Nat := (items.map fun item => item.batch.count).sum

/-- The gauges, the budget and the ledger agree with the batches in `items`. -/
structure Books (p : Pipeline ρ σ) (items : List (QueuedBatch ρ σ)) : Prop where
  bytes : p.stats.queuedBytes = bytesOf items
  count : p.stats.queuedItems = items.length
  budget : p.permits + bytesOf items = exportQueueBytes
  held : ∀ item ∈ items, item.permit = item.batch.encodedBytes
  origin : ∀ item ∈ items, p.offered[item.id]? = some item.batch
  ids : (items.map QueuedBatch.id).Nodup
  charged : ∀ i batch, p.offered[i]? = some batch →
    chargedFor p.ledger i = if i ∈ items.map QueuedBatch.id then 0 else batch.count
  known : ∀ charge ∈ p.ledger, charge.batch < p.offered.length
  counters : ∀ c, p.stats.read c =
    chargedTo p.ledger c + if c = .shutdownDropped then p.frames else 0

/-- What was queued is alive or was charged to a counter of the queue. -/
def Queued (p : Pipeline ρ σ) (items : List (QueuedBatch ρ σ)) : Prop :=
  p.stats.exportQueued = spansOf items + chargedTo p.ledger .accepted +
    chargedTo p.ledger .rejected + chargedTo p.ledger .unknown +
    chargedTo p.ledger .shutdownDropped

section
variable {p : Pipeline ρ σ} {items items' : List (QueuedBatch ρ σ)} {item : QueuedBatch ρ σ}

theorem Books.perm (h : Books p items) (hp : items.Perm items') : Books p items' where
  bytes := by rw [h.bytes, bytesOf, bytesOf, (hp.map _).sum_nat]
  count := by rw [h.count, hp.length_eq]
  budget := by rw [← h.budget, bytesOf, bytesOf, (hp.map _).sum_nat]
  held := fun item hi => h.held item (hp.mem_iff.mpr hi)
  origin := fun item hi => h.origin item (hp.mem_iff.mpr hi)
  ids := (hp.map _).nodup_iff.mp h.ids
  charged := fun i batch hb => by
    rw [h.charged i batch hb]
    simp only [(hp.map QueuedBatch.id).mem_iff]
  known := h.known
  counters := h.counters

theorem Queued.perm (h : Queued p items) (hp : items.Perm items') : Queued p items' := by
  rw [Queued, h, spansOf, spansOf, (hp.map _).sum_nat]

/-- The flags of a batch are not on the books. -/
theorem Books.flags (h : Books p (item :: items)) (attempted accounted : Bool) :
    Books p ({ item with attempted := attempted, accounted := accounted } :: items) where
  bytes := h.bytes
  count := h.count
  budget := h.budget
  held := by
    intro item' hi
    rcases List.mem_cons.mp hi with rfl | hi
    · exact h.held item (.head _)
    · exact h.held item' (.tail _ hi)
  origin := by
    intro item' hi
    rcases List.mem_cons.mp hi with rfl | hi
    · exact h.origin item (.head _)
    · exact h.origin item' (.tail _ hi)
  ids := h.ids
  charged := h.charged
  known := h.known
  counters := h.counters

end

/-! ## What the operations do to the books -/

/-- The gauges and the permit of a batch that is dropped. -/
def release (p : Pipeline ρ σ) (item : QueuedBatch ρ σ) : Pipeline ρ σ :=
  { p with
    permits := p.permits + item.permit
    stats := { p.stats with
      queuedBytes := p.stats.queuedBytes - item.batch.encodedBytes
      queuedItems := p.stats.queuedItems - 1 } }

/-- Where a batch that was not accounted for is counted when it is dropped. -/
def dropShares (item : QueuedBatch ρ σ) : List (Counter × Nat) :=
  [(if item.attempted then .unknown else .shutdownDropped, item.batch.count)]

theorem dropBatch_accounted (p : Pipeline ρ σ) {item : QueuedBatch ρ σ}
    (h : item.accounted = true) : p.dropBatch item = p.release item := by
  simp [dropBatch, release, h]

theorem dropBatch_eq (p : Pipeline ρ σ) {item : QueuedBatch ρ σ} (h : item.accounted = false) :
    p.dropBatch item = (p.charge item.id (dropShares item)).release item := by
  unfold dropBatch release dropShares
  simp only [h, Bool.false_eq_true, if_false]
  cases item.attempted <;> rfl

/-- The reservation `enqueue` makes for a batch that fits the budget. -/
def reserve (p : Pipeline ρ σ) (batch : ExportBatch ρ σ) : Pipeline ρ σ :=
  { p with
    offered := p.offered ++ [batch]
    permits := p.permits - batch.encodedBytes % 2 ^ 32
    stats := { p.stats with
      queuedBytes := p.stats.queuedBytes + batch.encodedBytes
      peakQueuedBytes :=
        max p.stats.peakQueuedBytes (p.stats.queuedBytes + (batch.encodedBytes : Int))
      queuedItems := p.stats.queuedItems + 1 } }

/-- The batch `enqueue` puts in the queue. -/
def queuedBatch (p : Pipeline ρ σ) (batch : ExportBatch ρ σ) : QueuedBatch ρ σ :=
  ⟨p.offered.length, batch, batch.encodedBytes % 2 ^ 32, false, false⟩

/-- What `enqueue` does: it refuses the batch for lack of budget, queues it, or
refuses it because the channel is full or closed. -/
theorem enqueue_cases (p : Pipeline ρ σ) (batch : ExportBatch ρ σ) :
    p.permits < batch.encodedBytes % 2 ^ 32 ∧
        p.enqueue batch = { p with offered := p.offered ++ [batch] }.charge p.offered.length
          [(.exportCapacity, batch.count)] ∨
      batch.encodedBytes % 2 ^ 32 ≤ p.permits ∧
        (p.receiverOpen = true ∧ p.enqueue batch = { p.reserve batch with
            queue := p.queue ++ [p.queuedBatch batch]
            stats := { (p.reserve batch).stats with
              exportQueued := p.stats.exportQueued + batch.count } } ∨
          p.enqueue batch = ((p.reserve batch).charge p.offered.length
            [(.exportCapacity, batch.count)]).release (p.queuedBatch batch)) := by
  unfold enqueue
  by_cases hlt : p.permits < batch.encodedBytes % 2 ^ 32
  · exact .inl ⟨hlt, by simp only [if_pos hlt]⟩
  · refine .inr ⟨Nat.le_of_not_lt hlt, ?_⟩
    simp only [if_neg hlt]
    by_cases hsend : p.receiverOpen = true ∧ p.queue.length < exportQueueItems
    · exact .inl ⟨hsend.1, by simp only [if_pos hsend]; rfl⟩
    · exact .inr (by simp only [if_neg hsend]; rfl)

section
variable {p : Pipeline ρ σ} {items : List (QueuedBatch ρ σ)} {item : QueuedBatch ρ σ}
  {batch : ExportBatch ρ σ}

/-- A batch that is charged in full and released leaves the books. -/
theorem Books.settle (h : Books p (item :: items)) {shares : List (Counter × Nat)}
    (hsum : (shares.map Prod.snd).sum = item.batch.count) :
    Books ((p.charge item.id shares).release item) items := by
  obtain ⟨hb, hi, _⟩ := Diagnostics.addAll_gauges shares p.stats
  obtain ⟨hnot, hnodup⟩ := List.nodup_cons.mp h.ids
  have hlt : item.id < p.offered.length :=
    (List.getElem?_eq_some_iff.mp (h.origin item (.head _))).1
  refine ⟨?_, ?_, ?_, fun i hi => h.held i (.tail _ hi), fun i hi => h.origin i (.tail _ hi),
    hnodup, fun i batch hbatch => ?_, fun c hc => ?_, fun c => ?_⟩
  · show (p.stats.addAll shares).queuedBytes - (item.batch.encodedBytes : Int) = _
    rw [hb, h.bytes]
    simp only [bytesOf, List.map_cons, List.sum_cons]
    omega
  · show (p.stats.addAll shares).queuedItems - 1 = _
    rw [hi, h.count, List.length_cons]
    omega
  · show p.permits + item.permit + bytesOf items = _
    rw [h.held item (.head _), ← h.budget]
    simp only [bytesOf, List.map_cons, List.sum_cons]
    omega
  · show chargedFor (p.ledger ++ chargesFor item.id shares) i = _
    have hold := h.charged i batch hbatch
    rw [chargedFor_append, chargedFor_chargesFor, hold]
    by_cases hid : item.id = i
    · subst hid
      have : batch = item.batch := by
        have := h.origin item (.head _)
        rw [show p.offered[item.id]? = some batch from hbatch] at this
        exact Option.some.inj this
      rw [if_pos (by simp), if_pos rfl, if_neg hnot, hsum, this, Nat.zero_add]
    · rw [if_neg hid, Nat.add_zero]
      simp only [List.map_cons, List.mem_cons, Ne.symm hid, false_or]
  · rcases List.mem_append.mp hc with hc | hc
    · exact h.known c hc
    · obtain ⟨share, _, rfl⟩ := List.mem_map.mp hc
      exact hlt
  · have hread : (p.stats.addAll shares).read c =
        chargedTo (p.ledger ++ chargesFor item.id shares) c +
          if c = .shutdownDropped then p.frames else 0 := by
      rw [Diagnostics.read_addAll, h.counters, chargedTo_append, chargedTo_chargesFor]
      omega
    cases c <;> exact hread

/-- A batch that is settled against the counters of the queue was queued. -/
theorem Queued.settle (h : Queued p (item :: items)) {shares : List (Counter × Nat)}
    (hsum : sharesOf .accepted shares + sharesOf .rejected shares + sharesOf .unknown shares +
      sharesOf .shutdownDropped shares = item.batch.count) :
    Queued ((p.charge item.id shares).release item) items := by
  obtain ⟨_, _, hq, _⟩ := Diagnostics.addAll_gauges shares p.stats
  show (p.stats.addAll shares).exportQueued = _
  rw [hq, h]
  simp only [release, charge, chargedTo_append, chargedTo_chargesFor, spansOf, List.map_cons,
    List.sum_cons]
  omega

theorem Books.refuse (h : Books p items) :
    Books ({ p with offered := p.offered ++ [batch] }.charge p.offered.length
      [(.exportCapacity, batch.count)]) items := by
  have horigin : ∀ item ∈ items, (p.offered ++ [batch])[item.id]? = some item.batch := by
    intro item hi
    have := h.origin item hi
    rw [List.getElem?_append_left (List.getElem?_eq_some_iff.mp this).1, this]
  have hfresh : chargedFor p.ledger p.offered.length = 0 :=
    chargedFor_eq_zero fun c hc => Nat.ne_of_lt (h.known c hc)
  refine ⟨h.bytes, h.count, h.budget, h.held, horigin, h.ids, fun i b hb => ?_, fun c hc => ?_,
    fun c => ?_⟩
  · show chargedFor (p.ledger ++ chargesFor p.offered.length _) i = _
    rw [chargedFor_append, chargedFor_chargesFor]
    rcases Nat.lt_trichotomy i p.offered.length with hlt | heq | hgt
    · have hb' : p.offered[i]? = some b := by
        rwa [charge, List.getElem?_append_left hlt] at hb
      rw [h.charged i b hb', if_neg (Nat.ne_of_gt hlt), Nat.add_zero]
    · subst heq
      have hbatch : batch = b := by simpa [charge] using hb
      have hnot : p.offered.length ∉ items.map QueuedBatch.id := by
        intro hmem
        obtain ⟨item, hi, hid⟩ := List.mem_map.mp hmem
        have := (List.getElem?_eq_some_iff.mp (h.origin item hi)).1
        omega
      rw [hfresh, if_pos rfl, if_neg hnot, hbatch]
      simp
    · rw [charge, List.getElem?_eq_none (by simp; omega)] at hb
      cases hb
  · show c.batch < (p.offered ++ [batch]).length
    rw [List.length_append, List.length_singleton]
    rcases List.mem_append.mp hc with hc | hc
    · exact Nat.lt_succ_of_lt (h.known c hc)
    · obtain ⟨share, _, rfl⟩ := List.mem_map.mp hc
      exact Nat.lt_succ_self _
  · show (p.stats.addAll _).read c = chargedTo (p.ledger ++ chargesFor _ _) c +
      if c = .shutdownDropped then p.frames else 0
    rw [Diagnostics.read_addAll, h.counters, chargedTo_append, chargedTo_chargesFor]
    omega

/-- A batch that is reserved enters the books. -/
theorem Books.reserve (h : Books p items) (hfit : batch.encodedBytes < 2 ^ 32)
    (hroom : batch.encodedBytes % 2 ^ 32 ≤ p.permits) :
    Books (p.reserve batch) (p.queuedBatch batch :: items) := by
  have hmod : batch.encodedBytes % 2 ^ 32 = batch.encodedBytes := Nat.mod_eq_of_lt hfit
  have hnot : p.offered.length ∉ items.map QueuedBatch.id := by
    intro hmem
    obtain ⟨item, hi, hid⟩ := List.mem_map.mp hmem
    have := (List.getElem?_eq_some_iff.mp (h.origin item hi)).1
    omega
  refine ⟨?_, ?_, ?_, fun item hi => ?_, fun item hi => ?_, List.nodup_cons.mpr ⟨hnot, h.ids⟩,
    fun i b hb => ?_, fun c hc => ?_, fun c => ?_⟩
  · show p.stats.queuedBytes + (batch.encodedBytes : Int) = _
    rw [h.bytes]
    simp only [bytesOf, List.map_cons, List.sum_cons, queuedBatch]
    omega
  · show p.stats.queuedItems + 1 = _
    rw [h.count, List.length_cons]
    omega
  · show p.permits - batch.encodedBytes % 2 ^ 32 + bytesOf (p.queuedBatch batch :: items) = _
    rw [← h.budget, hmod]
    rw [hmod] at hroom
    simp only [bytesOf, List.map_cons, List.sum_cons, queuedBatch]
    omega
  · rcases List.mem_cons.mp hi with rfl | hi
    · exact hmod
    · exact h.held item hi
  · show (p.offered ++ [batch])[item.id]? = _
    rcases List.mem_cons.mp hi with rfl | hi
    · simp [queuedBatch]
    · have := h.origin item hi
      rw [List.getElem?_append_left (List.getElem?_eq_some_iff.mp this).1, this]
  · show chargedFor p.ledger i = _
    rcases Nat.lt_trichotomy i p.offered.length with hlt | heq | hgt
    · have hb' : p.offered[i]? = some b := by
        rwa [Pipeline.reserve, List.getElem?_append_left hlt] at hb
      rw [h.charged i b hb']
      simp only [List.map_cons, List.mem_cons, queuedBatch, Nat.ne_of_lt hlt, false_or]
    · subst heq
      rw [chargedFor_eq_zero fun c hc => Nat.ne_of_lt (h.known c hc), if_pos (by simp [queuedBatch])]
    · rw [Pipeline.reserve, List.getElem?_eq_none (by simp; omega)] at hb
      cases hb
  · show c.batch < (p.offered ++ [batch]).length
    rw [List.length_append]
    exact Nat.lt_add_right _ (h.known c hc)
  · have hread := h.counters c
    cases c <;> exact hread

/-- Dropping batches that were not accounted for takes them off the books. -/
theorem Books.foldl_dropBatch :
    ∀ (dropped : List (QueuedBatch ρ σ)) (p : Pipeline ρ σ), Books p (dropped ++ items) →
      Queued p (dropped ++ items) → (∀ item ∈ dropped, item.accounted = false) →
      Books (dropped.foldl dropBatch p) items ∧ Queued (dropped.foldl dropBatch p) items
  | [], _, h, hq, _ => ⟨h, hq⟩
  | item :: dropped, p, h, hq, hacc => by
      have hdrop := dropBatch_eq p (hacc item (.head _))
      rw [List.foldl_cons, hdrop]
      refine Books.foldl_dropBatch dropped _ (h.settle ?_) (hq.settle ?_)
        fun i hi => hacc i (.tail _ hi)
      · simp [dropShares]
      · cases ha : item.attempted <;> simp [dropShares, sharesOf, ha]

end

/-! ## Every run -/

/-- The invariant of a run: the books of what is alive, and the flags. -/
structure Inv (p : Pipeline ρ σ) : Prop where
  books : Books p p.alive
  queued : Queued p p.alive
  waiting : ∀ item ∈ p.queue, item.attempted = false ∧ item.accounted = false
  exporting : ∀ item ∈ p.worker.items, item.attempted = true ∧ item.accounted = false

theorem new_inv : Inv (new : Pipeline ρ σ) where
  books := ⟨rfl, rfl, rfl, nofun, nofun, List.nodup_nil, nofun, nofun,
    fun c => by cases c <;> rfl⟩
  queued := rfl
  waiting := nofun
  exporting := nofun

section
variable {p p' : Pipeline ρ σ} {batch : ExportBatch ρ σ}

theorem Inv.enqueue (h : Inv p) (hfit : batch.encodedBytes < 2 ^ 32) : Inv (p.enqueue batch) := by
  rcases enqueue_cases p batch with ⟨_, he⟩ | ⟨hroom, ⟨_, he⟩ | he⟩
  · rw [he]
    refine ⟨h.books.refuse, ?_, h.waiting, h.exporting⟩
    have hq := h.queued
    simp only [Queued, charge, chargedTo_append, chargedTo_chargesFor] at hq ⊢
    simpa [sharesOf, Diagnostics.addAll, Diagnostics.add, alive] using hq
  · rw [he]
    have hbooks := (h.books.reserve hfit hroom).perm
      (show (p.queuedBatch batch :: p.alive).Perm
          (p.queue ++ [p.queuedBatch batch] ++ p.worker.items) by
        simpa [alive] using List.perm_middle.symm)
    refine ⟨⟨hbooks.bytes, hbooks.count, hbooks.budget, hbooks.held, hbooks.origin, hbooks.ids,
      hbooks.charged, hbooks.known, fun c => ?_⟩, ?_, fun item hi => ?_, h.exporting⟩
    · have hread := hbooks.counters c
      cases c <;> exact hread
    · have hspans : spansOf (p.queue ++ [p.queuedBatch batch] ++ p.worker.items) =
          batch.count + spansOf p.alive := by
        simp only [spansOf, alive, queuedBatch, List.map_append, List.sum_append, List.map_cons,
          List.map_nil, List.sum_cons, List.sum_nil]
        omega
      have hq : p.stats.exportQueued = _ := h.queued
      show p.stats.exportQueued + batch.count =
        spansOf (p.queue ++ [p.queuedBatch batch] ++ p.worker.items) +
          chargedTo p.ledger .accepted + chargedTo p.ledger .rejected +
          chargedTo p.ledger .unknown + chargedTo p.ledger .shutdownDropped
      rw [hspans, hq]
      omega
    · rcases List.mem_append.mp hi with hi | hi
      · exact h.waiting item hi
      · rw [List.mem_singleton.mp hi]
        exact ⟨rfl, rfl⟩
  · rw [he]
    refine ⟨(h.books.reserve hfit hroom).settle (by simp [queuedBatch]), ?_, h.waiting,
      h.exporting⟩
    have hq := h.queued
    simp only [Queued, release, charge, Pipeline.reserve, chargedTo_append,
      chargedTo_chargesFor] at hq ⊢
    simpa [sharesOf, Diagnostics.addAll, Diagnostics.add, alive] using hq

/-- The counters of `record_export` that count no spans. -/
def noteAttempts (p : Pipeline ρ σ) (report : ExportReport) : Pipeline ρ σ :=
  { p with stats := { p.stats with
    attempts := p.stats.attempts + report.attempts
    possibleDuplicateBatches :=
      p.stats.possibleDuplicateBatches + if report.mayDuplicate then 1 else 0 } }

theorem finish_eq (p : Pipeline ρ σ) (item : QueuedBatch ρ σ) (report : ExportReport) :
    p.finish item report =
      { ((p.noteAttempts report).charge item.id
          (report.outcome.shares item.batch.count)).release item with worker := .idle } := by
  unfold Pipeline.finish
  rw [Diagnostics.recordExport_eq]
  rfl

theorem Inv.finish (h : Inv p) {item : QueuedBatch ρ σ} (hw : p.worker = .exporting item)
    {report : ExportReport} (hr : Reports item.batch report) : Inv (p.finish item report) := by
  have hbound : ∀ refused warning, report.outcome = .partiallyAccepted refused warning →
      refused ≤ item.batch.count := by
    obtain ⟨exporter, codec, env, deadline, rfl⟩ := hr
    intro refused warning ho
    rw [item.batch.counted]
    exact exporter.export_bounded codec env _ _ _ _ _ ho
  have hsum := ExportOutcome.shares_sum hbound
  have halive : p.alive.Perm (item :: p.queue) := by
    rw [alive, hw]
    exact List.perm_append_singleton item p.queue
  have hb := h.books.perm halive
  have hb' : Books (p.noteAttempts report) (item :: p.queue) :=
    ⟨hb.bytes, hb.count, hb.budget, hb.held, hb.origin, hb.ids, hb.charged, hb.known,
      fun c => by have hread := hb.counters c; cases c <;> exact hread⟩
  have hq' : Queued (p.noteAttempts report) (item :: p.queue) := h.queued.perm halive
  have hsettled := hb'.settle hsum
  have hqueued : Queued (((p.noteAttempts report).charge item.id
      (report.outcome.shares item.batch.count)).release item) p.queue := hq'.settle (by
    cases ho : report.outcome with
    | partiallyAccepted refused warning =>
        rw [ho] at hsum
        simpa [sharesOf, ExportOutcome.shares] using hsum
    | accepted => simp [sharesOf, ExportOutcome.shares]
    | rejected reason => simp [sharesOf, ExportOutcome.shares]
    | unknown reason => simp [sharesOf, ExportOutcome.shares])
  have hnil : ∀ q : Pipeline ρ σ, ({ q with worker := .idle } : Pipeline ρ σ).alive = q.queue :=
    fun q => List.append_nil _
  rw [finish_eq]
  refine ⟨?_, ?_, h.waiting, List.forall_mem_nil _⟩
  · rw [hnil]
    exact ⟨hsettled.bytes, hsettled.count, hsettled.budget, hsettled.held, hsettled.origin,
      hsettled.ids, hsettled.charged, hsettled.known, hsettled.counters⟩
  · rw [hnil]
    exact hqueued

theorem Inv.recv (h : Inv p) {item : QueuedBatch ρ σ} {rest : List (QueuedBatch ρ σ)}
    (hw : p.worker = .idle) (hq : p.queue = item :: rest) : Inv (p.recv item rest) := by
  have halive : p.alive = item :: rest := by
    rw [alive, hw, hq]
    exact List.append_nil _
  have hb := h.books
  rw [halive] at hb
  have hb := (hb.flags true item.accounted).perm
    (List.perm_append_singleton _ rest).symm
  have hqueued : Queued p (item :: rest) := halive ▸ h.queued
  have hqueued := hqueued.perm (List.perm_append_singleton item rest).symm
  obtain ⟨_, hacc⟩ := h.waiting item (hq ▸ .head _)
  refine ⟨⟨hb.bytes, hb.count, hb.budget, hb.held, hb.origin, hb.ids, hb.charged, hb.known,
    hb.counters⟩, ?_, fun i hi => h.waiting i (hq ▸ .tail _ hi), fun i hi => ?_⟩
  · have hspans : spansOf (p.recv item rest).alive = spansOf (rest ++ [item]) := by
      simp [spansOf, alive, Pipeline.recv, Worker.items]
    rw [Queued, hspans]
    exact hqueued
  · rw [List.mem_singleton.mp hi]
    exact ⟨rfl, hacc⟩

theorem Inv.cancel (h : Inv p) : Inv p.cancel := by
  have hperm : p.alive.Perm ((p.worker.items ++ p.queue) ++ []) := by
    rw [List.append_nil]
    exact List.perm_append_comm
  have hacc : ∀ item ∈ p.worker.items ++ p.queue, item.accounted = false := by
    intro item hi
    rcases List.mem_append.mp hi with hi | hi
    · exact (h.exporting item hi).2
    · exact (h.waiting item hi).2
  obtain ⟨hb, hq⟩ := Books.foldl_dropBatch _ p (h.books.perm hperm) (h.queued.perm hperm) hacc
  exact ⟨⟨hb.bytes, hb.count, hb.budget, hb.held, hb.origin, hb.ids, hb.charged, hb.known,
    hb.counters⟩, hq, nofun, nofun⟩

/-- Every step keeps the invariant. -/
theorem Step.inv (h : Inv p) (hs : Step p p') : Inv p' := by
  cases hs with
  | enqueue _ batch hfit => exact h.enqueue hfit
  | recv hw hq => exact h.recv hw hq
  | finish hw hr => exact h.finish hw hr
  | cancel => exact h.cancel
  | closed hw hq _ =>
      have hnil : p.alive = [] := by rw [alive, hw, hq]; rfl
      have hb := h.books
      have hqueued := h.queued
      rw [hnil] at hb hqueued
      have halive : ({ p with worker := .gone, receiverOpen := false } : Pipeline ρ σ).alive = [] :=
        by rw [alive, hq]; rfl
      refine ⟨?_, ?_, h.waiting, nofun⟩
      · rw [halive]
        exact ⟨hb.bytes, hb.count, hb.budget, hb.held, hb.origin, hb.ids, hb.charged, hb.known,
          hb.counters⟩
      · rw [halive]
        exact hqueued
  | dropQueue =>
      exact ⟨⟨h.books.bytes, h.books.count, h.books.budget, h.books.held, h.books.origin,
        h.books.ids, h.books.charged, h.books.known, h.books.counters⟩, h.queued, h.waiting,
        h.exporting⟩
  | dropFrame =>
      refine ⟨⟨h.books.bytes, h.books.count, h.books.budget, h.books.held, h.books.origin,
        h.books.ids, h.books.charged, h.books.known, fun c => ?_⟩, h.queued, h.waiting,
        h.exporting⟩
      have hread := h.books.counters c
      cases c
      case shutdownDropped =>
        show p.stats.shutdownDropped + 1 = chargedTo p.ledger .shutdownDropped + (p.frames + 1)
        exact congrArg (· + 1) hread
      all_goals exact hread

end

/-! ## What the daemon relies on -/

section
variable {p p' : Pipeline ρ σ}

/-- A worker that is gone has left nothing in the queue. -/
def Closed (p : Pipeline ρ σ) : Prop := p.worker = .gone → p.queue = [] ∧ p.receiverOpen = false

theorem enqueue_offered (p : Pipeline ρ σ) (batch : ExportBatch ρ σ) :
    (p.enqueue batch).offered = p.offered ++ [batch] := by
  rcases enqueue_cases p batch with ⟨_, he⟩ | ⟨_, ⟨_, he⟩ | he⟩ <;> rw [he] <;> rfl

theorem foldl_dropBatch_same (items : List (QueuedBatch ρ σ)) (p : Pipeline ρ σ) :
    (items.foldl dropBatch p).offered = p.offered ∧
      (items.foldl dropBatch p).stats.transformed = p.stats.transformed ∧
      (items.foldl dropBatch p).stats.spanSize = p.stats.spanSize ∧
      (items.foldl dropBatch p).senderOpen = p.senderOpen := by
  induction items generalizing p with
  | nil => exact ⟨rfl, rfl, rfl, rfl⟩
  | cons item items ih =>
      obtain ⟨h1, h2, h3, h4⟩ := ih (p.dropBatch item)
      rw [List.foldl_cons, h1, h2, h3, h4]
      refine ⟨?_, ?_, ?_, ?_⟩ <;>
        cases ha : item.accounted <;> cases ht : item.attempted <;>
          simp [dropBatch, ha, ht, charge, Diagnostics.addAll, Diagnostics.add]

/-- The pipeline leaves the daemon's own counters alone. -/
theorem Step.own (hs : Step p p') :
    p'.stats.transformed = p.stats.transformed ∧ p'.stats.spanSize = p.stats.spanSize := by
  cases hs with
  | enqueue _ batch =>
      rcases enqueue_cases p batch with ⟨_, he⟩ | ⟨_, ⟨_, he⟩ | he⟩ <;> rw [he] <;> exact ⟨rfl, rfl⟩
  | @finish item _ report _ =>
      have h := Diagnostics.addAll_gauges (report.outcome.shares item.batch.count)
        (p.noteAttempts report).stats
      rw [finish_eq]
      exact ⟨h.2.2.2.1, h.2.2.2.2⟩
  | cancel =>
      have h := foldl_dropBatch_same (p.worker.items ++ p.queue) p
      exact ⟨h.2.1, h.2.2.1⟩
  | recv => exact ⟨rfl, rfl⟩
  | closed => exact ⟨rfl, rfl⟩
  | dropQueue => exact ⟨rfl, rfl⟩
  | dropFrame => exact ⟨rfl, rfl⟩

theorem Step.closed_inv (h : Closed p) (hs : Step p p') : Closed p' := by
  cases hs with
  | enqueue _ batch =>
      intro hw
      rcases enqueue_cases p batch with ⟨_, he⟩ | ⟨_, ⟨ho, he⟩ | he⟩ <;> rw [he] at hw ⊢
      · exact h hw
      · exact absurd (h hw).2 (by simp [ho])
      · exact h hw
  | recv => exact nofun
  | finish => exact nofun
  | cancel => exact fun _ => ⟨rfl, rfl⟩
  | closed _ hq => exact fun _ => ⟨hq, rfl⟩
  | dropQueue => exact h
  | dropFrame => exact h

/-- The invariant asks nothing of the daemon's own counters. -/
theorem Inv.setStats (h : Inv p) {stats : Diagnostics}
    (hb : stats.queuedBytes = p.stats.queuedBytes) (hi : stats.queuedItems = p.stats.queuedItems)
    (hq : stats.exportQueued = p.stats.exportQueued) (hr : stats.read = p.stats.read) :
    Inv { p with stats := stats } where
  books := ⟨hb.trans h.books.bytes, hi.trans h.books.count, h.books.budget, h.books.held,
    h.books.origin, h.books.ids, h.books.charged, h.books.known,
    fun c => (congrFun hr c).trans (h.books.counters c)⟩
  queued := hq.trans h.queued
  waiting := h.waiting
  exporting := h.exporting

end

/-- What the counters and gauges of a pipeline say of the batches offered to it. -/
structure Reconciled (p : Pipeline ρ σ) : Prop where
  bytes : p.stats.queuedBytes = bytesOf p.alive
  items : p.stats.queuedItems = p.alive.length
  budget : 0 ≤ p.stats.queuedBytes ∧ p.stats.queuedBytes ≤ exportQueueBytes
  /-- Each batch is alive and not counted, or counted once in full. -/
  once : ∀ i batch, p.offered[i]? = some batch →
    chargedFor p.ledger i = if i ∈ p.alive.map QueuedBatch.id then 0 else batch.count
  alive_offered : ∀ item ∈ p.alive, p.offered[item.id]? = some item.batch
  /-- The counters are the charges of the ledger, and the daemon's frames. -/
  counters : ∀ c, p.stats.read c =
    chargedTo p.ledger c + if c = .shutdownDropped then p.frames else 0
  settled : p.alive = [] →
    p.stats.exportQueued + p.frames = p.stats.accepted + p.stats.rejected + p.stats.unknown +
      p.stats.shutdownDropped ∧
    p.permits = exportQueueBytes

theorem Inv.reconciled {p : Pipeline ρ σ} (h : Inv p) : Reconciled p where
  bytes := h.books.bytes
  items := h.books.count
  budget := by
    have hb := h.books.bytes
    have hle := h.books.budget
    omega
  once := h.books.charged
  alive_offered := h.books.origin
  counters := h.books.counters
  settled hnil := by
    have hq : p.stats.exportQueued = _ := h.queued
    have hb := h.books.budget
    have ha : p.stats.accepted = _ := h.books.counters .accepted
    have hr : p.stats.rejected = _ := h.books.counters .rejected
    have hu : p.stats.unknown = _ := h.books.counters .unknown
    have hs : p.stats.shutdownDropped = _ + p.frames := h.books.counters .shutdownDropped
    rw [hnil] at hq hb
    simp only [spansOf, bytesOf, List.map_nil, List.sum_nil, Nat.zero_add, Nat.add_zero,
      reduceCtorEq, if_false] at hq hb ha hr hu
    exact ⟨by omega, hb⟩

/-- **The pipeline accounts for every span it is offered**, in every state that
any interleaving of its steps can reach. -/
theorem reachable_reconciled {p : Pipeline ρ σ}
    (h : Reachable (· = (new : Pipeline ρ σ)) Step p) : Reconciled p :=
  (h.invariant (fun _ hp => hp ▸ new_inv) fun _ _ hi hs => hs.inv hi).reconciled

/-- A batch of one span. -/
def oneSpan : ExportBatch Unit Unit :=
  ⟨buildTraceRequestWithSchema () [()] "", 1, 100, 0, rfl⟩

/-- The batch is queued, received and, at the second attempt, accepted. -/
def oneSpanExported : Pipeline Unit Unit :=
  (((new.enqueue oneSpan).recv (new.queuedBatch oneSpan) []).finish
    { new.queuedBatch oneSpan with attempted := true } ⟨.accepted, 2, true⟩)

theorem reachable_reconciled_oneSpanExported :
    oneSpanExported.stats.accepted = 1 ∧ Reconciled oneSpanExported := by
  refine ⟨by decide, reachable_reconciled ?_⟩
  have hreports : Reports oneSpan ⟨.accepted, 2, true⟩ :=
    ⟨⟨plainTarget, plainTarget, false⟩, emptyCodec, lossyOnce, exportDeadline, by decide⟩
  have h₀ : Reachable (· = (new : Pipeline Unit Unit)) Step new := .of_init rfl
  have h₁ := h₀.tail (Step.enqueue rfl oneSpan (by decide))
  have h₂ := h₁.tail (Step.recv rfl (show _ = new.queuedBatch oneSpan :: [] from rfl))
  exact h₂.tail (Step.finish rfl hreports)

end Pipeline

end AgentOtelBridge
